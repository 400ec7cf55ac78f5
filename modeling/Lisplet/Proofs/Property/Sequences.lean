import Lisplet.Proofs.Numeral.Reading
import Lisplet.Proofs.Property.Positions
import Lisplet.Proofs.Property.Total

/-!
# Properties of sequences

Reading a property of a list, a tuple or a text under a text. The key may be forbidden, a position,
the length, a method, an attribute or nothing at all, which is void. A read that is not refused
gives a value, unless the key consists of digits that do not make a number: a digit that belongs to
no positional system counts as a digit where a position is looked for, and makes the number
unreadable, and so do too many digits.

Main statement: `get_sequence_spec`.
-/

namespace Lisplet.Property

open Lisplet.Action

variable {v key : Value} {name : String} {s t : Store}

/-! ## Positions -/

/-- The text consists of digits that do not make a number: one of them belongs to no positional
system, or there are too many. -/
def Unreadable (name : String) : Prop :=
  isDigits name = true ∧
    ((∃ c ∈ name.toList, Text.isDecimal c = false) ∨ Numeral.maxDigits < name.toList.length)

theorem isDigits_iff :
    isDigits name = true ↔ name ≠ "" ∧ ∀ c ∈ name.toList, Text.isDigit c = true := by
  simp [isDigits]

theorem index?_text (hname : key.text? = some name) :
    index? key =
      if isDigits name = true then
        (Numeral.readWhole 10 name).mapError numeralFault |>.map some
      else .ok none := by
  cases key with
  | str _ | kind _ =>
    obtain rfl := Option.some.inj hname
    unfold index?
    dsimp only [Value.text?]
    split
    · split
      · next heq => rw [heq]; rfl
      · next heq => rw [heq]; rfl
    · rfl
  | _ => cases hname

/-- Where a position is looked for, digits that make no number are an error. -/
theorem index?_of_unreadable (hname : key.text? = some name) (h : Unreadable name) :
    ∃ e, index? key = .error (numeralFault e) := by
  obtain ⟨hdigits, hbad⟩ := h
  obtain ⟨hne, hall⟩ := isDigits_iff.mp hdigits
  rw [index?_text hname, if_pos hdigits, Numeral.readWhole_digits hne hall]
  by_cases hdecimal : name.toList.all Text.isDecimal = true
  · rw [if_pos hdecimal]
    rcases hbad with ⟨c, hc, hfalse⟩ | hlong
    · rw [List.all_eq_true.mp hdecimal c hc] at hfalse
      cases hfalse
    · rw [if_pos hlong]
      exact ⟨_, rfl⟩
  · rw [if_neg hdecimal]
    exact ⟨_, rfl⟩

/-- All other digits denote a position. -/
theorem index?_of_digits (hname : key.text? = some name) (hdigits : isDigits name = true)
    (h : ¬Unreadable name) :
    index? key = .ok (some (Numeral.denoted 10 name.toList : Int)) := by
  obtain ⟨hne, hall⟩ := isDigits_iff.mp hdigits
  have hdecimal : name.toList.all Text.isDecimal = true := by
    rw [List.all_eq_true]
    intro c hc
    by_contra hfalse
    exact h ⟨hdigits, .inl ⟨c, hc, by simpa using hfalse⟩⟩
  have hlength : ¬Numeral.maxDigits < name.toList.length := fun hlong => h ⟨hdigits, .inr hlong⟩
  rw [index?_text hname, if_pos hdigits, Numeral.readWhole_digits hne hall, if_pos hdecimal,
    if_neg hlength]
  rfl

theorem index?_of_not_digits (hname : key.text? = some name) (hdigits : ¬isDigits name = true) :
    index? key = .ok none := by
  rw [index?_text hname, if_neg hdigits]

/-! ## Reading -/

/-- Lists, tuples and texts, of which the kinds of nodes are some. -/
def IsSequence : Value → Prop
  | .list _ | .tuple _ _ | .str _ | .kind _ => True
  | _ => False

/-- The text denotes no element of the sequence, is not the name of its length, and names neither a
method nor an attribute of it. -/
structure NamesNothing (s : Store) (v : Value) (name : String) : Prop where
  element : isDigits name = true →
    ∃ items, s.elements v = .ok items ∧ items.length ≤ Numeral.denoted 10 name.toList
  length : name ≠ "length"
  method : v.text? = none → SequenceMethod.ofName? name = none
  none_other : ∃ t, hasAttribute v name s = .done false t

theorem get_of_error (hv : IsSequence v) (hguard : guardKey key s = .done () s) {fault : Fault}
    (h : index? key = .error fault) : get v key s = .failed (.fresh fault) s := by
  unfold get
  rw [bind_of_done hguard]
  cases v with
  | list r =>
    show ofSequence (.list r) (s.list r) key s = _
    unfold ofSequence
    rw [h]
    rfl
  | tuple id items =>
    dsimp only
    unfold ofSequence
    rw [h]
    rfl
  | str _ | kind _ =>
    dsimp only
    unfold ofText
    rw [h]
    rfl
  | _ => cases hv

theorem place?_bind {α : Type} (f : Nat → Option α) (length i : Nat) :
    (place? length (i : Int)).bind f = if i < length then f i else none := by
  by_cases h : i < length
  · rw [place?_eq_some.mpr ⟨rfl, h⟩, Option.bind_some, if_pos h]
  · have hnone : place? length (i : Int) = none := by
      rw [Option.eq_none_iff_forall_ne_some]
      intro n hn
      obtain ⟨heq, hlt⟩ := place?_eq_some.mp hn
      omega
    rw [hnone, Option.bind_none, if_neg h]

/-- The character of a text at a position, as a value. -/
theorem charValues_getElem? (text : String) (i : Nat) :
    (charValues text)[i]? = (text.toList[i]?).map fun c => .str c.toString := by
  unfold charValues
  rw [List.getElem?_map]

/-- A position gives the element that stands there; past the end there is none. -/
theorem get_of_position (hv : IsSequence v) (hguard : guardKey key s = .done () s) {i : Nat}
    (h : index? key = .ok (some (i : Int))) :
    ∃ items, s.elements v = .ok items ∧ get v key s = .done (items[i]?.getD .undefined) s := by
  have htext : ∀ w text, ofText w text key s =
      .done ((charValues text)[i]?.getD .undefined) s := by
    intro w text
    unfold ofText
    rw [h, charValues_getElem?]
    show Outcome.done (((place? text.toList.length i).bind (text.toList[·]?)).elim Value.undefined
      fun c => Value.str c.toString) s = _
    rw [place?_bind]
    split
    · cases text.toList[i]? <;> rfl
    · rw [List.getElem?_eq_none (by omega)]
      rfl
  have hitems : ∀ w (items : Array Value), ofSequence w items key s =
      .done (items[i]?.getD .undefined) s := by
    intro w items
    unfold ofSequence
    rw [h]
    show Outcome.done (((place? items.size i).bind (items[·]?)).getD .undefined) s = _
    rw [place?_bind]
    split
    · rfl
    · rw [Array.getElem?_eq_none (by omega)]
  unfold get
  rw [bind_of_done hguard]
  cases v with
  | list r =>
    refine ⟨(s.list r).toList, rfl, ?_⟩
    rw [Array.getElem?_toList]
    exact hitems _ _
  | tuple id items =>
    refine ⟨items, rfl, ?_⟩
    rw [← List.getElem?_toArray]
    exact hitems _ _
  | str text => exact ⟨charValues text, rfl, htext _ _⟩
  | kind k => exact ⟨charValues k.name, rfl, htext _ _⟩
  | _ => cases hv

/-- A method or an attribute of a sequence. -/
def methodOrAttribute (v key : Value) : Action Value :=
  match v.text? with
  | some _ => textMethod v key
  | none => do
    match ← sequenceMethod? v key with
    | some method => return method
    | none => attributeOf v key

/-- A text that is no position is the name of the length, or of a method or an attribute. -/
theorem get_of_name (hv : IsSequence v) (hguard : guardKey key s = .done () s)
    (h : index? key = .ok none) :
    ∃ n : Nat, get v key s =
      (if isLength key = true then pure (.int n) else methodOrAttribute v key) s := by
  unfold get
  rw [bind_of_done hguard]
  cases v with
  | list r =>
    refine ⟨(s.list r).size, ?_⟩
    show ofSequence (.list r) (s.list r) key s = _
    unfold ofSequence
    rw [h]
    rfl
  | tuple id items =>
    refine ⟨items.toArray.size, ?_⟩
    dsimp only
    unfold ofSequence
    rw [h]
    rfl
  | str text =>
    refine ⟨text.length, ?_⟩
    dsimp only
    unfold ofText
    rw [h]
    rfl
  | kind k =>
    refine ⟨k.name.length, ?_⟩
    dsimp only
    unfold ofText
    rw [h]
    rfl
  | _ => cases hv

/-- The methods on the list are methods of every text. -/
theorem member_text_total (hv : v.text?.isSome) (h : (TextMethod.ofName? name).isSome) :
    Total (member v name) := by
  obtain ⟨m, hm⟩ := Option.isSome_iff_exists.mp h
  have hmethod : Total (method? v name >>= fun value => match value with
      | some value => pure value
      | none => Action.raise (Store.missingAttribute v name)) := by
    cases v with
    | str _ | kind _ =>
      unfold method?
      dsimp only
      rw [hm]
      exact (newMethod_total _ _).bind fun _ => .ret _
    | _ => cases hv
  unfold member attribute?
  rw [bind_assoc]
  refine (Total.gets _).bind fun slot => ?_
  cases slot with
  | some value => exact .ret _
  | none => exact hmethod

theorem methodOrAttribute_ends (hname : key.text? = some name) (s : Store) :
    (∃ w t, methodOrAttribute v key s = .done w t) ∨
      ∃ e t, methodOrAttribute v key s = .failed e t ∧ e.kind = .forbiddenAccess := by
  unfold methodOrAttribute
  cases htext : v.text? with
  | none =>
    refine .inl (((sequenceMethod?_total v hname).bind fun method => ?_) s)
    cases method with
    | some method => exact .ret _
    | none => exact attributeOf_total v key
  | some text =>
    unfold textMethod
    rw [hname]
    dsimp only
    by_cases hm : (TextMethod.ofName? name).isSome = true
    · rw [if_pos hm]
      exact .inl (member_text_total (by rw [htext]; rfl) hm s)
    · rw [if_neg hm]
      obtain ⟨found, t, hfound⟩ := hasAttribute_total v name s
      rw [bind_of_done hfound]
      cases found with
      | true => exact .inr ⟨_, t, rfl, rfl⟩
      | false => exact .inl ⟨_, t, rfl⟩

theorem attribute?_of_hasAttribute (h : hasAttribute v name s = .done false t) :
    attribute? v name s = .done none t := by
  unfold hasAttribute at h
  rcases ite_eq_done.mp h with ⟨-, h⟩ | ⟨-, h⟩
  · cases h
  · obtain ⟨found, u, hfound, h⟩ := bind_eq_done.mp h
    cases found with
    | some value => cases h
    | none =>
      cases h
      exact hfound

/-- Looking in vain for an attribute of a sequence makes no value, and a text has no name of a
method on the list that it could be looked for under. -/
theorem attribute?_eq_none (hv : IsSequence v) (h : attribute? v name s = .done none t) :
    t = s ∧ (v.text?.isSome → TextMethod.ofName? name = none) := by
  unfold attribute? at h
  obtain ⟨slot, u, hslot, h⟩ := bind_eq_done.mp h
  cases hslot
  dsimp only at h
  have hnamed : ∀ {μ : Type} (method : Option μ) (kind : μ → Method),
      methodNamed v method kind s = .done none t → t = s ∧ method = none := by
    intro μ method kind h
    cases method with
    | none =>
      cases h
      exact ⟨rfl, rfl⟩
    | some m =>
      obtain ⟨w, u, -, h⟩ := bind_eq_done.mp h
      cases h
  cases hslot : s.slot? v name with
  | some value =>
    rw [hslot] at h
    cases h
  | none =>
    rw [hslot] at h
    cases v with
    | list r => exact ⟨(hnamed _ _ h).1, fun h => by cases h⟩
    | tuple id items => exact ⟨(hnamed _ _ h).1, fun h => by cases h⟩
    | str _ | kind _ => exact ⟨(hnamed _ _ h).1, fun _ => (hnamed _ _ h).2⟩
    | _ => cases hv

theorem methodOrAttribute_of_nothing (hv : IsSequence v) (hname : key.text? = some name)
    (h : NamesNothing s v name) : methodOrAttribute v key s = .done .undefined s := by
  obtain ⟨t, hother⟩ := h.none_other
  have hnone := attribute?_of_hasAttribute hother
  obtain ⟨rfl, hmethod⟩ := attribute?_eq_none hv hnone
  unfold methodOrAttribute
  cases htext : v.text? with
  | some text =>
    unfold textMethod
    rw [hname]
    dsimp only
    rw [hmethod (by rw [htext]; rfl), if_neg (by decide), bind_of_done hother]
    rfl
  | none =>
    have hsequence : sequenceMethod? v key t = .done none t := by
      obtain ⟨k, u, hkey⟩ := keyOf_of_text hname t
      have hu : u = t := by
        cases key with
        | str _ | kind _ =>
          cases hkey
          rfl
        | _ => cases hname
      subst hu
      unfold sequenceMethod?
      rw [bind_of_done hkey, hname, Option.bind_some, h.method htext]
      rfl
    refine (bind_of_done hsequence).trans ?_
    dsimp only
    unfold attributeOf
    rw [hname]
    exact bind_of_done hnone

/-- What reading a property of a sequence under a text comes to. A forbidden key is refused at once.
Otherwise digits that make no number are an error about values, and anything else gives a value or
is refused; what denotes nothing is void. -/
structure Reads (s : Store) (v key : Value) (name : String) : Prop where
  forbidden : Forbidden s.denylist key →
    ∃ e, get v key s = .failed e s ∧ e.kind = .forbiddenAccess
  unreadable : ¬Forbidden s.denylist key → Unreadable name →
    ∃ e, get v key s = .failed e s ∧ e.kind = .value
  readable : ¬Forbidden s.denylist key → ¬Unreadable name →
    (∃ w t, get v key s = .done w t) ∨
      ∃ e t, get v key s = .failed e t ∧ e.kind = .forbiddenAccess
  nothing : ¬Forbidden s.denylist key → ¬Unreadable name → NamesNothing s v name →
    get v key s = .done .undefined s

/-- Reading a property of a list, a tuple or a text gives a value or is refused, and what denotes no
element, method or attribute is void, except that digits which make no number are an error. -/
theorem get_sequence_spec (hv : IsSequence v) (hname : key.text? = some name) (s : Store) :
    Reads s v key name := by
  refine ⟨get_forbidden, fun hkey hbad => ?_, fun hkey hgood => ?_, fun hkey hgood hnothing => ?_⟩
  · obtain ⟨e, hindex⟩ := index?_of_unreadable hname hbad
    exact ⟨_, get_of_error hv (guardKey_passes hkey) hindex, rfl⟩
  · by_cases hdigits : isDigits name = true
    · obtain ⟨items, -, hget⟩ := get_of_position hv (guardKey_passes hkey)
        (index?_of_digits hname hdigits hgood)
      exact .inl ⟨_, s, hget⟩
    · obtain ⟨n, hget⟩ := get_of_name hv (guardKey_passes hkey)
        (index?_of_not_digits hname hdigits)
      rw [hget]
      split
      · exact .inl ⟨_, s, rfl⟩
      · exact methodOrAttribute_ends hname s
  · by_cases hdigits : isDigits name = true
    · obtain ⟨items, hitems, hget⟩ := get_of_position hv (guardKey_passes hkey)
        (index?_of_digits hname hdigits hgood)
      obtain ⟨items', hitems', hle⟩ := hnothing.element hdigits
      obtain rfl : items = items' := Except.ok.inj (hitems.symm.trans hitems')
      rw [hget, List.getElem?_eq_none hle]
      rfl
    · obtain ⟨n, hget⟩ := get_of_name hv (guardKey_passes hkey)
        (index?_of_not_digits hname hdigits)
      have hlength : ¬isLength key = true := by
        unfold isLength
        rw [hname, beq_iff_eq, Option.some.injEq]
        exact hnothing.length
      rw [hget, if_neg hlength]
      exact methodOrAttribute_of_nothing hv hname hnothing

/-- In a list of two elements, a position past the end is void. -/
theorem get_sequence_spec_past :
    IsSequence (.list ⟨0⟩) ∧ (Value.str "٢").text? = some "٢" ∧
      ¬Forbidden pairStore.denylist (.str "٢") ∧ ¬Unreadable "٢" ∧
      NamesNothing pairStore (.list ⟨0⟩) "٢" ∧
      get (.list ⟨0⟩) (.str "٢") pairStore = .done .undefined pairStore := by
  have hkey : ¬Forbidden pairStore.denylist (.str "٢") := by
    rintro ⟨name, hname, hmem | hprefix⟩
    · cases hmem
    · cases hname
      revert hprefix
      decide
  have hgood : ¬Unreadable "٢" := by
    have hchars : "٢".toList = ['٢'] := rfl
    unfold Unreadable
    rw [hchars]
    rintro ⟨-, ⟨c, hc, hdecimal⟩ | hlong⟩
    · obtain rfl := List.mem_singleton.mp hc
      revert hdecimal
      decide
    · exact absurd hlong (by decide)
  have hnothing : NamesNothing pairStore (.list ⟨0⟩) "٢" :=
    ⟨fun _ => ⟨[.int 1, .int 2], rfl, by decide +kernel⟩, by decide, fun _ => rfl, _, rfl⟩
  have hv : IsSequence (.list ⟨0⟩) := trivial
  have hname : (Value.str "٢").text? = some "٢" := rfl
  exact ⟨hv, hname, hkey, hgood, hnothing,
    (get_sequence_spec hv hname pairStore).nothing hkey hgood hnothing⟩

/-- A superscript is a digit and no number, so that asking a list for it is an error about values,
although it denotes nothing. -/
theorem get_superscript :
    NamesNothing pairStore (.list ⟨0⟩) "²" ∧ ¬Forbidden pairStore.denylist (.str "²") ∧
      ∃ e, get (.list ⟨0⟩) (.str "²") pairStore = .failed e pairStore ∧ e.kind = .value := by
  refine ⟨⟨fun _ => ⟨[.int 1, .int 2], rfl, by decide +kernel⟩, by decide, fun _ => rfl, _, rfl⟩,
    ?_, _, rfl, rfl⟩
  rintro ⟨name, hname, hmem | hprefix⟩
  · cases hmem
  · cases hname
    revert hprefix
    decide

end Lisplet.Property
