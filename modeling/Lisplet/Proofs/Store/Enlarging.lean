import Lisplet.Property.Elements
import Lisplet.Proofs.Store.Extending
import Lisplet.Proofs.Store.Tables

/-!
# Actions that only add to the store

Many actions move along `Enlarged`: they make lists, dictionaries, closures and functions and use up
iterators, and all that was there before stays as it is.
-/

namespace Lisplet

/-- The second store has all that the first one has, as it was, apart from iterators, which may have
given up elements. New lists, dictionaries, closures and functions may have been made. -/
def Store.Enlarged (s t : Store) : Prop :=
  ∃ lists dicts closures functions, t =
    { s with
      lists := s.lists ++ lists, dicts := s.dicts ++ dicts, closures := s.closures ++ closures
      functions := s.functions ++ functions, iterators := t.iterators, nextId := t.nextId }

namespace Store.Enlarged

variable {s t : Store}

instance : IsPreorder Store Store.Enlarged where
  refl s := ⟨#[], #[], #[], #[], by simp⟩
  trans s t u := by
    rintro ⟨ls, ds, cs, fs, h⟩ ⟨ls', ds', cs', fs', h'⟩
    refine ⟨ls ++ ls', ds ++ ds', cs ++ cs', fs ++ fs', ?_⟩
    rw [h'] at *
    rw [h]
    simp only [Array.append_assoc]

theorem scope (h : Enlarged s t) (r : ScopeRef) : t.scope r = s.scope r := by
  obtain ⟨ls, ds, cs, fs, h⟩ := h
  rw [h]
  rfl

theorem dict (h : Enlarged s t) {d : DictRef} (hd : d.index < s.dicts.size) :
    d.index < t.dicts.size ∧ t.dict d = s.dict d := by
  obtain ⟨ls, ds, cs, fs, h⟩ := h
  have hdicts : t.dicts = s.dicts ++ ds := by rw [h]
  unfold Store.dict
  rw [hdicts, Array.size_append]
  refine ⟨by omega, ?_⟩
  simp only [Array.getD_eq_getD_getElem?, Array.getElem?_append_left hd]

theorem of_extended (h : Extended s t) : Enlarged s t := by
  obtain ⟨ds, fs, -, h⟩ := h
  refine ⟨#[], ds, #[], fs, ?_⟩
  rw [h]
  simp

end Store.Enlarged

namespace Action

/-! ## Membership -/

namespace Moves

variable {R : Store → Store → Prop} [IsPreorder Store R]

theorem anyEqual (value : Value) (items : List Value) : Moves R (anyEqual value items) := by
  induction items with
  | nil => exact ret _
  | cons v rest ih =>
    refine bind (within _) fun same => ?_
    split
    · exact ret _
    · exact ih

theorem anyTaken {r : IteratorRef} (h : ∀ s items, R s (s.setIterator r items)) (value : Value)
    (items : List Value) : Moves R (anyTaken r value items) := by
  induction items with
  | nil => exact ret _
  | cons v rest ih =>
    refine bind (update fun s => h s rest) fun _ => bind (within _) fun same => ?_
    split
    · exact ret _
    · exact ih

theorem keyAmong (value : Value) (items : List Value) : Moves R (keyAmong value items) :=
  (keyOf value).bind fun _ => ret _

theorem containsBytes (data : List UInt8) (value : Value) : Moves R (containsBytes data value) := by
  unfold Action.containsBytes
  split
  · exact ret _
  · split
    · exact ret _
    · exact raise _
  · exact raise _

theorem containsText (text : String) (part : Value) : Moves R (containsText text part) := by
  unfold Action.containsText
  split
  · exact ret _
  · exact raise _

/-- Whether a container contains a value is only read off, unless it is an iterator. -/
theorem contains {container : Value} (value : Value)
    (h : ∀ s r items, container = .iterator r → R s (s.setIterator r items)) :
    Moves R (contains container value) := by
  cases container with
  | list r => exact (gets _).bind fun _ => anyEqual value _
  | tuple _ items => exact anyEqual value items
  | dict r => exact (keyOf value).bind fun _ => (gets _).bind fun _ => ret _
  | set _ items => exact keyAmong value items
  | bytes _ data => exact containsBytes data value
  | iterator r => exact (gets _).bind fun _ => anyTaken (fun s items => h s r items rfl) value _
  | str text => exact containsText text value
  | kind k => exact containsText k.name value
  | _ => exact raise _

end Moves

/-! ## Enlarging the store -/

/-- The action only adds to the store. -/
abbrev Enlarges {α : Type} (a : Action α) : Prop := Moves Store.Enlarged a

namespace Enlarges

variable {α : Type}

theorem of_extends {a : Action α} (h : Extends a) : Enlarges a :=
  h.weaken fun _ _ => Store.Enlarged.of_extended

theorem addList (items : Array Value) : Enlarges (make (·.addList items)) :=
  Moves.make fun s => ⟨#[items], #[], #[], #[], by simp [Store.addList]⟩

theorem addClosure (c : Closure) : Enlarges (make (·.addClosure c)) :=
  Moves.make fun s => ⟨#[], #[], #[c], #[], by simp [Store.addClosure]⟩

theorem setIterator (r : IteratorRef) (items : List Value) :
    Enlarges (update (·.setIterator r items)) :=
  Moves.update fun s => ⟨#[], #[], #[], #[], by simp [Store.setIterator]⟩

@[grind ←]
theorem newList (items : Array Value) : Enlarges (newList items) :=
  (addList items).bind fun _ => .ret _

@[grind ←]
theorem newTuple (items : List Value) : Enlarges (newTuple items) :=
  of_extends (.newTuple items)

@[grind ←]
theorem newDict (d : Dict) : Enlarges (newDict d) :=
  of_extends ((Extends.addDict d).bind fun _ => .ret _)

@[grind ←]
theorem elements (v : Value) : Enlarges (elements v) := by
  unfold Action.elements
  refine Moves.bind (.compute _) fun items => ?_
  split
  · exact (setIterator _ _).bind fun _ => .ret _
  · exact .ret _

end Enlarges

end Action

end Lisplet
