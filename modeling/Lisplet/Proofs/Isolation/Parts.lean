import Lisplet.Store.Slots
import Mathlib.Tactic.Common

/-!
# Parts of values

A value that cannot change holds other values as its parts: the items of a tuple or a set, the
values inside a node, and the receiver of a method. `Value.Every` says that a value and all its
parts have a property. A value is confined below `n` if no part of it is the core scope, its
dictionary of variables, or a scope that does not come before scope number `n`.
-/

namespace Lisplet

mutual

/-- The value and all its parts have a property. -/
def Value.Every (p : Value → Prop) : Value → Prop
  | .tuple id items => p (.tuple id items) ∧ Value.EveryOf p items
  | .set id items => p (.set id items) ∧ Value.EveryOf p items
  | .node n => p (.node n) ∧ Node.Every p n
  | .method receiver m id => p (.method receiver m id) ∧ Value.Every p receiver
  | v => p v

/-- All values of a list and all their parts have a property. -/
def Value.EveryOf (p : Value → Prop) : List Value → Prop
  | [] => True
  | v :: rest => Value.Every p v ∧ Value.EveryOf p rest

/-- All parts of the values inside a node have a property. -/
def Node.Every (p : Value → Prop) : Node Value → Prop
  | .leaf _ _ _ => True
  | .group _ items _ => Node.EveryOf p items
  | .host value line _ => Value.Every p value ∧ Value.Every p line

/-- All parts of the values inside some nodes have a property. -/
def Node.EveryOf (p : Value → Prop) : List (Node Value) → Prop
  | [] => True
  | n :: rest => Node.Every p n ∧ Node.EveryOf p rest

end

theorem Value.everyOf_iff {p : Value → Prop} {items : List Value} :
    Value.EveryOf p items ↔ ∀ v ∈ items, v.Every p := by
  induction items with
  | nil => simp [Value.EveryOf]
  | cons v rest ih => simp [Value.EveryOf, ih]

theorem Node.everyOf_iff {p : Value → Prop} {items : List (Node Value)} :
    Node.EveryOf p items ↔ ∀ n ∈ items, n.Every p := by
  induction items with
  | nil => simp [Node.EveryOf]
  | cons n rest ih => simp [Node.EveryOf, ih]

mutual

/-- A weaker property holds of at least as many values. -/
theorem Value.Every.mono {p q : Value → Prop} (h : ∀ v, p v → q v) :
    ∀ v : Value, v.Every p → v.Every q
  | .tuple _ items, hv => ⟨h _ hv.1, Value.EveryOf.mono h items hv.2⟩
  | .set _ items, hv => ⟨h _ hv.1, Value.EveryOf.mono h items hv.2⟩
  | .node n, hv => ⟨h _ hv.1, Node.Every.mono h n hv.2⟩
  | .method receiver _ _, hv => ⟨h _ hv.1, Value.Every.mono h receiver hv.2⟩
  | .undefined, hv | .nil, hv | .bool _, hv | .int _, hv | .float _, hv | .str _, hv
  | .kind _, hv | .bytes _ _, hv | .list _, hv | .dict _, hv | .closure _, hv | .form _, hv
  | .function _, hv | .object _, hv | .iterator _, hv | .scope _, hv => h _ hv

theorem Value.EveryOf.mono {p q : Value → Prop} (h : ∀ v, p v → q v) :
    ∀ items : List Value, Value.EveryOf p items → Value.EveryOf q items
  | [], _ => trivial
  | v :: rest, hv => ⟨Value.Every.mono h v hv.1, Value.EveryOf.mono h rest hv.2⟩

theorem Node.Every.mono {p q : Value → Prop} (h : ∀ v, p v → q v) :
    ∀ n : Node Value, n.Every p → n.Every q
  | .leaf _ _ _, _ => trivial
  | .group _ items _, hn => Node.EveryOf.mono h items hn
  | .host value line _, hn => ⟨Value.Every.mono h value hn.1, Value.Every.mono h line hn.2⟩

theorem Node.EveryOf.mono {p q : Value → Prop} (h : ∀ v, p v → q v) :
    ∀ items : List (Node Value), Node.EveryOf p items → Node.EveryOf q items
  | [], _ => trivial
  | n :: rest, hn => ⟨Node.Every.mono h n hn.1, Node.EveryOf.mono h rest hn.2⟩

end

/-! ## Confined values -/

/-- The value is not the core scope, its dictionary of variables, or a scope that does not come
before scope number `n`. -/
def Value.Permitted (n : Nat) : Value → Prop
  | .scope r => r.index ≠ 0 ∧ r.index < n
  | .dict r => r.index ≠ 0
  | _ => True

/-- Every part of the value is permitted. -/
def Value.Confined (n : Nat) (v : Value) : Prop := v.Every (Value.Permitted n)

/-- Every part of every value inside a node is permitted. -/
def Node.Confined (n : Nat) (e : Node Value) : Prop := e.Every (Value.Permitted n)

/-- All values of a list are confined. -/
def AllConfined (n : Nat) (items : List Value) : Prop := ∀ v ∈ items, v.Confined n

/-- All keys and values of a dictionary are confined. -/
def Dict.Confined (n : Nat) (d : Dict) : Prop :=
  ∀ e ∈ d.entries, e.key.Confined n ∧ e.value.Confined n

/-- All attributes are confined, and none of them has the name of the slot for the scope around a
scope. -/
def Attributes.Confined (n : Nat) (attrs : Attributes) : Prop :=
  ∀ a ∈ attrs, a.1 ≠ "parent" ∧ a.2.Confined n

variable {n m : Nat}

theorem Value.Confined.mono {v : Value} (hv : v.Confined n) (h : n ≤ m) : v.Confined m := by
  refine Value.Every.mono (fun w hw => ?_) v hv
  cases w with
  | scope r => exact ⟨hw.1, Nat.lt_of_lt_of_le hw.2 h⟩
  | dict r => exact hw
  | _ => trivial

theorem AllConfined.mono {items : List Value} (hv : AllConfined n items) (h : n ≤ m) :
    AllConfined m items := fun v hmem => (hv v hmem).mono h

theorem Dict.Confined.mono {d : Dict} (hd : d.Confined n) (h : n ≤ m) : d.Confined m :=
  fun e he => ⟨(hd e he).1.mono h, (hd e he).2.mono h⟩

theorem Attributes.Confined.mono {attrs : Attributes} (ha : Attributes.Confined n attrs)
    (h : n ≤ m) : Attributes.Confined m attrs := fun a hmem => ⟨(ha a hmem).1, (ha a hmem).2.mono h⟩

/-! ### Values with parts -/

theorem Value.confined_tuple {id : Nat} {items : List Value} :
    (Value.tuple id items).Confined n ↔ AllConfined n items := by
  constructor
  · intro h
    exact Value.everyOf_iff.mp h.2
  · intro h
    exact ⟨trivial, Value.everyOf_iff.mpr h⟩

theorem Value.confined_set {id : Nat} {items : List Value} :
    (Value.set id items).Confined n ↔ AllConfined n items := by
  constructor
  · intro h
    exact Value.everyOf_iff.mp h.2
  · intro h
    exact ⟨trivial, Value.everyOf_iff.mpr h⟩

theorem Value.confined_node {e : Node Value} : (Value.node e).Confined n ↔ e.Confined n := by
  constructor
  · intro h
    exact h.2
  · intro h
    exact ⟨trivial, h⟩

theorem Value.confined_method {receiver : Value} {method : Method} {id : Nat} :
    (Value.method receiver method id).Confined n ↔ receiver.Confined n := by
  constructor
  · intro h
    exact h.2
  · intro h
    exact ⟨trivial, h⟩

theorem Node.confined_group {kind : GroupKind} {items : List (Node Value)} {mark : Mark} :
    (Node.group kind items mark).Confined n ↔ ∀ e ∈ items, e.Confined n := Node.everyOf_iff

/-! ### Lists of values -/

namespace AllConfined

theorem nil : AllConfined n [] := by
  intro v hmem
  cases hmem

theorem cons {v : Value} {items : List Value} (hv : v.Confined n) (hi : AllConfined n items) :
    AllConfined n (v :: items) := by
  intro w hmem
  rcases List.mem_cons.mp hmem with rfl | hmem
  · exact hv
  · exact hi w hmem

theorem append {xs ys : List Value} (hx : AllConfined n xs) (hy : AllConfined n ys) :
    AllConfined n (xs ++ ys) := by
  intro w hmem
  rcases List.mem_append.mp hmem with hmem | hmem
  · exact hx w hmem
  · exact hy w hmem

theorem of_subset {xs ys : List Value} (hy : AllConfined n ys) (h : xs ⊆ ys) : AllConfined n xs :=
  fun v hmem => hy v (h hmem)

theorem head {v : Value} {items : List Value} (h : AllConfined n (v :: items)) : v.Confined n :=
  h v List.mem_cons_self

theorem tail {v : Value} {items : List Value} (h : AllConfined n (v :: items)) :
    AllConfined n items := fun w hmem => h w (List.mem_cons_of_mem v hmem)

theorem drop {items : List Value} (h : AllConfined n items) (i : Nat) :
    AllConfined n (items.drop i) := h.of_subset (List.drop_subset i items)

theorem take {items : List Value} (h : AllConfined n items) (i : Nat) :
    AllConfined n (items.take i) := h.of_subset (List.take_subset i items)

theorem getElem? {items : List Value} (h : AllConfined n items) {i : Nat} {v : Value}
    (hv : items[i]? = some v) : v.Confined n := h v (List.mem_of_getElem? hv)

/-- The item at a place, or another confined value. -/
theorem getD {items : List Value} (h : AllConfined n items) (i : Nat) {v : Value}
    (hv : v.Confined n) : (items.getD i v).Confined n := by
  rw [List.getD_eq_getElem?_getD]
  cases hi : items[i]? with
  | none => exact hv
  | some w => exact h.getElem? hi

theorem map {α : Type} {f : α → Value} {xs : List α} (h : ∀ x ∈ xs, (f x).Confined n) :
    AllConfined n (xs.map f) := by
  intro v hmem
  obtain ⟨x, hx, rfl⟩ := List.mem_map.mp hmem
  exact h x hx

end AllConfined

/-- A value of an optional result, or another confined value. -/
theorem Value.Confined.getD {o : Option Value} {v : Value} (ho : ∀ w, o = some w → w.Confined n)
    (hv : v.Confined n) : (o.getD v).Confined n := by
  cases o with
  | none => exact hv
  | some w => exact ho w rfl

/-! ### Nodes -/

theorem itemsTuple_confined {items : List (Node Value)} (h : ∀ e ∈ items, e.Confined n) (id : Nat) :
    (itemsTuple items id).Confined n := by
  unfold itemsTuple
  split
  · exact Value.confined_tuple.mpr .nil
  · exact Value.confined_tuple.mpr (.map fun e he => Value.confined_node.mpr (h e he))

theorem contentOf_confined {e : Node Value} (h : e.Confined n) : (contentOf e).Confined n := by
  cases e with
  | leaf kind text mark => trivial
  | group kind items mark => exact itemsTuple_confined (Node.confined_group.mp h) _
  | host value line serial => exact h.1

theorem lineOf_confined {e : Node Value} (h : e.Confined n) : (lineOf e).Confined n := by
  cases e with
  | leaf kind text mark => trivial
  | group kind items mark => trivial
  | host value line serial => exact h.2

theorem nodeSlot?_confined {e : Node Value} {name : String} {v : Value} (h : e.Confined n)
    (hv : nodeSlot? e name = some v) : v.Confined n := by
  unfold nodeSlot? at hv
  split at hv <;> cases hv
  · trivial
  · exact contentOf_confined h
  · exact lineOf_confined h
  · trivial

/-- A value in the place of a node. -/
theorem confined_host {v line : Value} {serial : Nat} (hv : v.Confined n)
    (hl : line.Confined n) : (Value.node (.host v line serial)).Confined n :=
  Value.confined_node.mpr ⟨hv, hl⟩

/-! ### Dictionaries and attributes -/

namespace Dict

theorem Confined.get? {d : Dict} {key : Key} {v : Value} (hd : d.Confined n)
    (hv : d.get? key = some v) : v.Confined n := by
  unfold Dict.get? at hv
  obtain ⟨e, he, rfl⟩ := Option.map_eq_some_iff.mp hv
  exact (hd e (List.mem_of_find?_eq_some he)).2

theorem Confined.keys {d : Dict} (hd : d.Confined n) : AllConfined n d.keys :=
  .map fun e he => (hd e he).1

theorem confined_empty : Dict.empty.Confined n := by
  intro e he
  cases he

theorem insertEntry_mem {e f : Entry} {es : List Entry} (h : f ∈ insertEntry e es) :
    f = e ∨ f ∈ es ∨ ∃ g ∈ es, f = { g with value := e.value } := by
  induction es with
  | nil =>
    rcases List.mem_singleton.mp h with rfl
    exact .inl rfl
  | cons g es ih =>
    unfold insertEntry at h
    split at h
    · rcases List.mem_cons.mp h with rfl | h
      · exact .inr (.inr ⟨g, List.mem_cons_self, rfl⟩)
      · exact .inr (.inl (List.mem_cons_of_mem _ h))
    · rcases List.mem_cons.mp h with rfl | h
      · exact .inr (.inl List.mem_cons_self)
      · rcases ih h with h | h | ⟨k, hk, rfl⟩
        · exact .inl h
        · exact .inr (.inl (List.mem_cons_of_mem _ h))
        · exact .inr (.inr ⟨k, List.mem_cons_of_mem _ hk, rfl⟩)

theorem Confined.insert {d : Dict} {hash : Key} {key value : Value} (hd : d.Confined n)
    (hk : key.Confined n) (hv : value.Confined n) : (d.insert hash key value).Confined n := by
  intro e he
  rcases insertEntry_mem he with rfl | he | ⟨g, hg, rfl⟩
  · exact ⟨hk, hv⟩
  · exact hd e he
  · exact ⟨(hd g hg).1, hv⟩

theorem Confined.update {d other : Dict} (hd : d.Confined n) (ho : other.Confined n) :
    (d.update other).Confined n := by
  unfold Dict.update
  have hfold : ∀ (es : List Entry) (acc : Dict), acc.Confined n →
      (∀ e ∈ es, e.key.Confined n ∧ e.value.Confined n) →
      (es.foldl (fun acc e => acc.insert e.hash e.key e.value) acc).Confined n := by
    intro es
    induction es with
    | nil => exact fun acc hacc _ => hacc
    | cons e es ih =>
      intro acc hacc hes
      have he := hes e List.mem_cons_self
      exact ih _ (hacc.insert he.1 he.2) fun f hf => hes f (List.mem_cons_of_mem _ hf)
  exact hfold _ _ hd ho

theorem confined_ofTexts {items : List (String × Value)} (h : ∀ a ∈ items, a.2.Confined n) :
    (Dict.ofTexts items).Confined n := by
  unfold Dict.ofTexts
  have hfold : ∀ (xs : List (String × Value)) (acc : Dict), acc.Confined n →
      (∀ a ∈ xs, a.2.Confined n) →
      (xs.foldl (fun d item => d.insertText item.1 item.2) acc).Confined n := by
    intro xs
    induction xs with
    | nil => exact fun acc hacc _ => hacc
    | cons a xs ih =>
      intro acc hacc hxs
      have ha : (Value.str a.1).Confined n := trivial
      exact ih _ (hacc.insert ha (hxs a List.mem_cons_self)) fun b hb =>
        hxs b (List.mem_cons_of_mem _ hb)
  exact hfold _ _ confined_empty h

end Dict

namespace Attributes

theorem Confined.get? {attrs : Attributes} {name : String} {v : Value}
    (ha : Attributes.Confined n attrs) (hv : attrs.get? name = some v) : v.Confined n := by
  obtain ⟨before, after, hsplit, _⟩ := List.lookup_eq_some_iff.mp hv
  exact (ha (name, v) (by simp [hsplit])).2

theorem Confined.get?_parent {attrs : Attributes} (ha : Attributes.Confined n attrs) :
    attrs.get? "parent" = none := by
  cases hv : attrs.get? "parent" with
  | none => rfl
  | some v =>
    obtain ⟨before, after, hsplit, _⟩ := List.lookup_eq_some_iff.mp hv
    exact absurd rfl (ha ("parent", v) (by simp [hsplit])).1

theorem Confined.set {attrs : Attributes} {name : String} {v : Value}
    (ha : Attributes.Confined n attrs) (hname : name ≠ "parent") (hv : v.Confined n) :
    Attributes.Confined n (attrs.set name v) := by
  induction attrs with
  | nil =>
    intro a hmem
    rcases List.mem_singleton.mp hmem with rfl
    exact ⟨hname, hv⟩
  | cons b attrs ih =>
    obtain ⟨k, w⟩ := b
    have hb := ha (k, w) List.mem_cons_self
    have hrest : Attributes.Confined n attrs := fun a hmem => ha a (List.mem_cons_of_mem _ hmem)
    unfold Attributes.set
    split
    · intro a hmem
      rcases List.mem_cons.mp hmem with rfl | hmem
      · exact ⟨hb.1, hv⟩
      · exact hrest a hmem
    · intro a hmem
      rcases List.mem_cons.mp hmem with rfl | hmem
      · exact hb
      · exact ih hrest a hmem

end Attributes

end Lisplet
