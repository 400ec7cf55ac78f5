import Lisplet.Proofs.Property.Sequences
import Lisplet.Proofs.Property.Places
import Lisplet.Proofs.Value.Updates
import Lisplet.Settings
import Mathlib.Data.List.Nodup

/-!
# Properties that spreads and reads agree on

A spread takes over the own properties of a value: the entries of a dictionary, the elements of a
sequence under the texts of their positions, what a node is made of, and the public attributes of
host objects and functions. A read of one of these gives the very same value, unless the guard
refuses its name, which a spread does not ask. Only dictionaries can hold names that are refused for
their underscores.

Main statement: `own_visible`.
-/

namespace Lisplet

/-! ## What the host guarantees -/

/-- No two entries have the same key, and every entry stands where its key is looked for. -/
structure Dict.WellKeyed (d : Dict) : Prop where
  distinct : d.Distinct
  keyed : ∀ e ∈ d.entries, e.key.key = .ok e.hash

/-- No two attributes have the same name. -/
def Attributes.Distinct (attrs : Attributes) : Prop := (attrs.map Prod.fst).Nodup

/-- No two attributes have the same name, and what a bound method remembers is none of them. -/
structure FunctionCell.WellFormed (cell : FunctionCell) : Prop where
  distinct : cell.attributes.Distinct
  remembered : ∀ m first named, cell.code = .bound m first named →
    ∀ name ∈ ["args", "keywords"], name ∉ cell.attributes.map Prod.fst

/-- A sequence of so many elements can be read at each of its positions by the text of it. -/
def Countable (length : Nat) : Prop := length ≤ 10 ^ Numeral.maxDigits

/-- What a value has in the store is as the host keeps it: entries and attributes are told apart by
their keys and names, and sequences are not too long for positions that are texts. -/
def Store.Sound (s : Store) : Value → Prop
  | .dict r => (s.dict r).WellKeyed
  | .list r => Countable (s.list r).size
  | .tuple _ items => Countable items.length
  | .str text => Countable text.toList.length
  | .object r => (s.object r).Distinct
  | .function r | .method _ (.function r) _ => ∀ cell, s.function? r = some cell → cell.WellFormed
  | _ => True

theorem countable_kind (k : NodeKind) : Countable k.name.toList.length := by
  have hshort : k.name.toList.length ≤ Numeral.maxDigits := by
    rcases k with ⟨_ | _⟩ | ⟨_ | _⟩ | _ <;> decide
  exact hshort.trans (Nat.lt_pow_self (by decide)).le

namespace Dict.WellKeyed

theorem empty : Dict.empty.WellKeyed := ⟨distinct_empty, fun _ h => by cases h⟩

theorem insert {d : Dict} (h : d.WellKeyed) {hash : Key} {key : Value} (hkey : key.key = .ok hash)
    (value : Value) : (d.insert hash key value).WellKeyed := by
  refine ⟨h.distinct.insert hash key value, fun f hf => ?_⟩
  have hmem := List.mem_map_of_mem (f := fun f : Entry => (f.hash, f.key)) hf
  -- no entry gets another key than it was first inserted with
  have hpairs : (f.hash, f.key) ∈ d.entries.map (fun f => (f.hash, f.key)) ++ [(hash, key)] := by
    have heq := map_key_insertEntry ⟨hash, key, value⟩ d.entries
    unfold Dict.insert at hmem
    rw [heq] at hmem
    split at hmem
    · exact List.mem_append_left _ hmem
    · exact hmem
  rcases List.mem_append.mp hpairs with hold | hnew
  · obtain ⟨g, hg, heq⟩ := List.mem_map.mp hold
    obtain ⟨hhash, hgkey⟩ := Prod.mk.inj heq
    rw [← hhash, ← hgkey]
    exact h.keyed g hg
  · obtain ⟨rfl, rfl⟩ := Prod.mk.inj (List.mem_singleton.mp hnew)
    exact hkey

theorem ofTexts (items : List (String × Value)) : (Dict.ofTexts items).WellKeyed := by
  induction items using List.reverseRecOn with
  | nil => exact empty
  | append_singleton items item ih =>
    rw [ofTexts_concat]
    exact ih.insert rfl item.2

theorem get?_of_mem {d : Dict} (h : d.WellKeyed) {e : Entry} (he : e ∈ d.entries) :
    ∃ k, e.key.key = .ok k ∧ d.get? k = some e.value :=
  ⟨e.hash, h.keyed e he, h.distinct.get?_of_mem he⟩

end Dict.WellKeyed

namespace Property

open Lisplet.Action

variable {v key : Value} {name : String} {s : Store}

/-! ## Attributes -/

theorem lookup_of_mem {attrs : Attributes} (h : attrs.Distinct) (hmem : (name, v) ∈ attrs) :
    attrs.get? name = some v := by
  unfold Attributes.Distinct at h
  unfold Attributes.get?
  induction attrs with
  | nil => cases hmem
  | cons a rest ih =>
    obtain ⟨n, w⟩ := a
    rw [List.map_cons, List.nodup_cons] at h
    rw [lookup_cons_eq_ite]
    rcases List.mem_cons.mp hmem with heq | hmem
    · cases heq
      rw [if_pos rfl]
    · have hne : name ≠ n := fun heq => h.1 (List.mem_map.mpr ⟨(name, v), hmem, heq⟩)
      rw [if_neg hne]
      exact ih h.2 hmem

/-- An entry of what a spread takes over from attributes is one of them and has a public name. -/
theorem mem_ofAttributes {attrs : Attributes} (h : attrs.Distinct) {e : Entry}
    (he : e ∈ (ofAttributes attrs).entries) :
    ∃ name, e.key = .str name ∧ (name, e.value) ∈ attrs ∧ name.toList.head? ≠ some '_' := by
  have hpublic : ((attrs.filter fun a => a.1.toList.head? != some '_').map Prod.fst).Nodup :=
    List.Nodup.sublist (List.filter_sublist.map _) h
  unfold ofAttributes at he
  rw [Dict.entries_ofTexts hpublic] at he
  obtain ⟨⟨name, w⟩, hmem, rfl⟩ := List.mem_map.mp he
  obtain ⟨hattr, hname⟩ := List.mem_filter.mp hmem
  exact ⟨name, rfl, hattr, by simpa using hname⟩

/-! ## Positions -/

theorem toList_toString (i : Nat) : (toString i).toList = Nat.toDigits 10 i := by
  rw [Nat.toString_eq_ofList_toDigits, String.toList_ofList]

theorem toString_injective : Function.Injective (toString : Nat → String) := by
  intro i j h
  have hdigits := congrArg String.toList h
  rw [toList_toString, toList_toString] at hdigits
  rw [← (Numeral.toDigits_spec i).2, hdigits, (Numeral.toDigits_spec j).2]

/-- A spread takes over the elements of a sequence under the texts of their positions. -/
theorem entries_ofItems (items : List Value) :
    (ofItems items).entries = items.zipIdx.map fun item =>
      ⟨Key.ofText (toString item.2), .str (toString item.2), item.1⟩ := by
  have hitems : ofItems items =
      Dict.ofTexts (items.zipIdx.map fun item => (toString item.2, item.1)) := rfl
  have hnames : ((items.zipIdx.map fun item => (toString item.2, item.1)).map Prod.fst).Nodup := by
    have hmap : (items.zipIdx.map fun item => (toString item.2, item.1)).map Prod.fst =
        (items.zipIdx.map Prod.snd).map toString := by
      rw [List.map_map, List.map_map]
      rfl
    rw [hmap, List.zipIdx_map_snd]
    exact List.Nodup.map toString_injective (List.nodup_range' 1)
  rw [hitems, Dict.entries_ofTexts hnames, List.map_map]
  rfl

/-- An entry of what a spread takes over from a sequence is an element under its position. -/
theorem mem_ofItems {items : List Value} {e : Entry} (he : e ∈ (ofItems items).entries) :
    ∃ i : Nat, e.key = .str (toString i) ∧ items[i]? = some e.value := by
  rw [entries_ofItems] at he
  obtain ⟨⟨w, i⟩, hmem, rfl⟩ := List.mem_map.mp he
  exact ⟨i, rfl, List.mem_zipIdx_iff_getElem?.mp hmem⟩

theorem isDigits_toString (i : Nat) : isDigits (toString i) = true := by
  rw [isDigits_iff, toList_toString]
  constructor
  · intro hempty
    have hnil := congrArg String.toList hempty
    rw [toList_toString] at hnil
    exact Nat.toDigits_ne_nil hnil
  · intro c hc
    unfold Text.isDigit
    rw [(Numeral.toDigits_spec i).1 c hc, Bool.true_or]

/-- The text of a position is read as the position. -/
theorem index?_toString {i length : Nat} (hi : i < length) (h : Countable length) :
    index? (.str (toString i)) = .ok (some (i : Int)) := by
  have hgood : ¬Unreadable (toString i) := by
    rintro ⟨-, ⟨c, hc, hdecimal⟩ | hlong⟩
    · rw [toList_toString] at hc
      rw [(Numeral.toDigits_spec i).1 c hc] at hdecimal
      cases hdecimal
    · rw [toList_toString] at hlong
      have hlength : (Nat.toDigits 10 i).length ≤ Numeral.maxDigits :=
        (Nat.length_toDigits_le_iff (by decide) (by decide)).mpr (Nat.lt_of_lt_of_le hi h)
      omega
  rw [index?_of_digits rfl (isDigits_toString i) hgood, toList_toString,
    (Numeral.toDigits_spec i).2]

/-- A key that passes the guard and is the position of an element gives the element. -/
theorem get_position (hv : IsSequence v) {items : List Value} (hitems : s.elements v = .ok items)
    (hsize : Countable items.length) {i : Nat} {w : Value} (hi : items[i]? = some w)
    (hkey : ¬Forbidden s.denylist (.str (toString i))) :
    get v (.str (toString i)) s = .done w s := by
  have hlt : i < items.length := (List.getElem?_eq_some_iff.mp hi).1
  obtain ⟨items', hitems', hget⟩ := get_of_position hv (guardKey_passes hkey)
    (index?_toString hlt hsize)
  obtain rfl : items = items' := Except.ok.inj (hitems.symm.trans hitems')
  rw [hget, hi]
  rfl

theorem not_private_toString (i : Nat) : (toString i).toList.head? ≠ some '_' := by
  rw [toList_toString]
  exact fun h => Nat.underscore_not_in_toDigits (List.mem_of_head? h)

/-! ## Slots -/

/-- A read under a text that no place in a container answers gives the attribute. -/
theorem attributeOf_slot {w : Value} (hname : key.text? = some name)
    (hslot : s.slot? v name = some w) : attributeOf v key s = .done w s := by
  have hread : Action.gets (·.slot? v name) s = .done (some w) s := congrArg (Outcome.done · s) hslot
  have hattribute : attribute? v name s = .done (some w) s := (bind_of_done hread).trans rfl
  unfold attributeOf
  rw [hname]
  exact (bind_of_done hattribute).trans rfl

theorem functionSlot?_of_mem {r : FunctionRef} {cell : FunctionCell} {w : Value}
    (hcell : s.function? r = some cell) (h : cell.WellFormed) (hmem : (name, w) ∈ cell.attributes) :
    s.functionSlot? r name = some w := by
  have hget := lookup_of_mem h.distinct hmem
  have hname : name ∈ cell.attributes.map Prod.fst := List.mem_map_of_mem hmem
  unfold Store.functionSlot?
  rw [hcell, Option.bind_some]
  split
  · next hcode => exact absurd hname (h.remembered _ _ _ hcode _ (by simp))
  · next hcode => exact absurd hname (h.remembered _ _ _ hcode _ (by simp))
  · exact hget

/-- The entry is read under its key. If a guard refuses it, it is for the denylist or because it
stands in a dictionary. -/
structure Visible (s : Store) (v : Value) (e : Entry) : Prop where
  read : ¬Forbidden s.denylist e.key → get v e.key s = .done e.value s
  refused : Forbidden s.denylist e.key → ∃ f, get v e.key s = .failed f s ∧ f.kind = .forbiddenAccess
  open_name : (∀ r, v ≠ .dict r) → ∃ name, e.key = .str name ∧ name.toList.head? ≠ some '_'

theorem visible_item (hv : IsSequence v) {items : List Value} (hitems : s.elements v = .ok items)
    (hsize : Countable items.length) {e : Entry} (he : e ∈ (ofItems items).entries) :
    Visible s v e := by
  obtain ⟨i, hkey, hi⟩ := mem_ofItems he
  refine ⟨fun hpass => ?_, get_forbidden, fun _ => ⟨_, hkey, not_private_toString i⟩⟩
  rw [hkey] at hpass ⊢
  exact get_position hv hitems hsize hi hpass

/-- An entry of what a spread takes over from a node is one of its slots. -/
theorem mem_nodeParts {n : Expr} {e : Entry}
    (he : e ∈ (Dict.ofTexts
      [("type", .kind n.kind), ("value", contentOf n), ("line", lineOf n)]).entries) :
    ∃ name, e.key = .str name ∧ nodeSlot? n name = some e.value ∧ name.toList.head? ≠ some '_' := by
  have hnames : ([("type", .kind n.kind), ("value", contentOf n), ("line", lineOf n)].map
      (Prod.fst : String × Value → String)).Nodup := by
    show ["type", "value", "line"].Nodup
    decide
  rw [Dict.entries_ofTexts hnames] at he
  obtain ⟨⟨name, w⟩, hmem, rfl⟩ := List.mem_map.mp he
  refine ⟨name, rfl, ?_⟩
  simp only [List.mem_cons, List.not_mem_nil, or_false, Prod.mk.injEq] at hmem
  rcases hmem with ⟨rfl, rfl⟩ | ⟨rfl, rfl⟩ | ⟨rfl, rfl⟩
  · exact ⟨rfl, by decide⟩
  · exact ⟨rfl, by decide⟩
  · exact ⟨rfl, by decide⟩

theorem visible_slot {e : Entry}
    (hget : guardKey e.key s = .done () s → get v e.key s = attributeOf v e.key s)
    (hkey : e.key = .str name) (hopen : name.toList.head? ≠ some '_')
    (hslot : s.slot? v name = some e.value) : Visible s v e := by
  refine ⟨fun hpass => ?_, get_forbidden, fun _ => ⟨name, hkey, hopen⟩⟩
  rw [hget (guardKey_passes hpass)]
  exact attributeOf_slot (by rw [hkey]; rfl) hslot

theorem visible_function {r : FunctionRef} {e : Entry}
    (hget : guardKey e.key s = .done () s → get v e.key s = attributeOf v e.key s)
    (hslots : ∀ name, s.slot? v name = s.functionSlot? r name)
    (hsound : ∀ cell, s.function? r = some cell → cell.WellFormed)
    (he : e ∈ (ofAttributes (((s.function? r).map (·.attributes)).getD [])).entries) :
    Visible s v e := by
  cases hcell : s.function? r with
  | none =>
    rw [hcell] at he
    cases he
  | some cell =>
    rw [hcell] at he
    obtain ⟨name, hkey, hmem, hopen⟩ := mem_ofAttributes (hsound cell hcell).distinct he
    refine visible_slot hget hkey hopen ?_
    rw [hslots]
    exact functionSlot?_of_mem hcell (hsound cell hcell) hmem

/-- What a spread takes over from a value is what reads of it give. A spread always gives something,
and every entry that it takes over is read under its key, unless the guard refuses the key, for
which the spread does not ask. Of a value that is no dictionary the spread takes over no name that
begins with an underscore, so that only the denylist can forbid it. -/
theorem own_visible (h : s.Sound v) :
    ∃ d, own v s = .done d s ∧ d.WellKeyed ∧
      ∀ e ∈ d.entries, e.key.text?.isSome → Visible s v e := by
  have hempty : ∃ d, Outcome.done Dict.empty s = .done d s ∧ d.WellKeyed ∧
      ∀ e ∈ d.entries, e.key.text?.isSome → Visible s v e :=
    ⟨.empty, rfl, .empty, fun e he => by cases he⟩
  cases v with
  | dict r =>
    refine ⟨s.dict r, rfl, h, fun e he _ => ⟨fun hpass => ?_, get_forbidden, fun hv => ?_⟩⟩
    · obtain ⟨k, hk, hvalue⟩ := h.get?_of_mem he
      rw [get_dict (guardKey_passes hpass) hk, hvalue]
      rfl
    · exact absurd rfl (hv r)
  | list r =>
    exact ⟨_, rfl, .ofTexts _, fun e he _ => visible_item (v := .list r) trivial rfl h he⟩
  | tuple id items =>
    exact ⟨_, rfl, .ofTexts _, fun e he _ => visible_item (v := .tuple id items) trivial rfl h he⟩
  | str text =>
    refine ⟨_, rfl, .ofTexts _, fun e he _ => visible_item (v := .str text) trivial rfl ?_ he⟩
    rw [charValues, List.length_map]
    exact h
  | kind k =>
    refine ⟨_, rfl, .ofTexts _, fun e he _ => visible_item (v := .kind k) trivial rfl ?_ he⟩
    rw [charValues, List.length_map]
    exact countable_kind k
  | node n =>
    refine ⟨_, rfl, .ofTexts _, fun e he _ => ?_⟩
    obtain ⟨name, hkey, hslot, hopen⟩ := mem_nodeParts he
    exact visible_slot (fun hguard => bind_of_done hguard) hkey hopen hslot
  | object r =>
    refine ⟨_, rfl, .ofTexts _, fun e he _ => ?_⟩
    obtain ⟨name, hkey, hmem, hopen⟩ := mem_ofAttributes h he
    refine visible_slot (fun hguard => bind_of_done hguard) hkey hopen ?_
    show s.objectSlot? r name = some e.value
    unfold Store.objectSlot?
    rw [lookup_of_mem h hmem]
  | function r =>
    exact ⟨_, rfl, .ofTexts _, fun e he _ =>
      visible_function (fun hguard => bind_of_done hguard) (fun _ => rfl) h he⟩
  | method receiver m id =>
    cases m with
    | function r =>
      exact ⟨_, rfl, .ofTexts _, fun e he _ =>
        visible_function (fun hguard => bind_of_done hguard) (fun _ => rfl) h he⟩
    | _ => exact hempty
  | _ => exact hempty

/-- A store with a host object that has a name on the denylist among its attributes. -/
def prototypeStore : Store :=
  ((Store.empty Settings.alwaysForbidden).addObject .plain [("prototype", .int 1), ("a", .int 2)]).2

theorem own_visible_object :
    prototypeStore.Sound (.object ⟨.plain, 0⟩) ∧
      ∃ d, own (.object ⟨.plain, 0⟩) prototypeStore = .done d prototypeStore ∧ d.WellKeyed ∧
        ∀ e ∈ d.entries, e.key.text?.isSome → Visible prototypeStore (.object ⟨.plain, 0⟩) e := by
  have hsound : prototypeStore.Sound (.object ⟨.plain, 0⟩) := by
    show ["prototype", "a"].Nodup
    decide
  exact ⟨hsound, own_visible hsound⟩

/-- A spread takes over an attribute that a read refuses. -/
theorem own_refused :
    ∃ d f, own (.object ⟨.plain, 0⟩) prototypeStore = .done d prototypeStore ∧
      d.getText? "prototype" = some (.int 1) ∧
      get (.object ⟨.plain, 0⟩) (.str "prototype") prototypeStore = .failed f prototypeStore :=
  ⟨Dict.ofTexts [("prototype", .int 1), ("a", .int 2)], .fresh (.forbidden "prototype"),
    rfl, rfl, rfl⟩

end Property

end Lisplet
