import Lisplet.Proofs.Store.Moving

/-!
# Actions that extend the store

Most actions that read do not change the store in any way that a script could see: they make at most
new dictionaries and new functions, for the methods that they give, and numbers for new identities.
All that was there before is as it was, iterators included, and so are the attributes of every
value.
-/

namespace Lisplet

namespace Store

/-- The second store has all that the first one has, as it was, and besides it at most dictionaries
and functions without attributes, none of them the class of points. -/
def Extended (s t : Store) : Prop :=
  ∃ dicts functions, (∀ cell ∈ functions, cell.attributes = [] ∧ cell.code.isPoint = false) ∧
    t = { s with
      dicts := s.dicts ++ dicts, functions := s.functions ++ functions, nextId := t.nextId }

namespace Extended

variable {s t : Store}

instance : IsPreorder Store Extended where
  refl s := ⟨#[], #[], by simp, by simp⟩
  trans s t u := by
    rintro ⟨ds, fs, hfs, h⟩ ⟨ds', fs', hfs', h'⟩
    refine ⟨ds ++ ds', fs ++ fs', fun cell hcell => ?_, ?_⟩
    · rcases Array.mem_append.mp hcell with hcell | hcell
      · exact hfs cell hcell
      · exact hfs' cell hcell
    · rw [h'] at *
      rw [h]
      simp only [Array.append_assoc]

theorem ofNextId (n : Nat) : Extended s { s with nextId := n } := ⟨#[], #[], by simp, by simp⟩

theorem function? (h : Extended s t) {r : FunctionRef} {cell : FunctionCell}
    (ht : t.function? r = some cell) :
    s.function? r = some cell ∨ cell.attributes = [] := by
  obtain ⟨ds, fs, hfs, h⟩ := h
  rw [h] at ht
  have ht : (s.functions ++ fs)[r.index]? = some cell := ht
  rw [Array.getElem?_append] at ht
  split at ht
  · exact .inl ht
  · exact .inr (hfs cell (Array.mem_of_getElem? ht)).1

/-- The class of points has the attributes that it had. -/
theorem pointClass (h : Extended s t) : t.pointClass = s.pointClass := by
  obtain ⟨ds, fs, hfs, h⟩ := h
  have hnone : fs.find? (fun cell => cell.code.isPoint) = none := by
    rw [Array.find?_eq_none]
    intro cell hcell
    rw [(hfs cell hcell).2]
    exact Bool.false_ne_true
  unfold Store.pointClass
  rw [h, Array.find?_append, hnone, Option.or_none]

end Extended

end Store

namespace Action

/-- The action only extends the store. -/
abbrev Extends {α : Type} (a : Action α) : Prop := Moves Store.Extended a

namespace Extends

theorem newId : Extends newId := Moves.make fun s => .ofNextId (s.nextId + 1)

theorem addDict (d : Dict) : Extends (make (·.addDict d)) :=
  Moves.make fun s => ⟨#[d], #[], by simp, by simp [Store.addDict]⟩

theorem addFunction {code : FunctionCode} (h : code.isPoint = false) :
    Extends (make (·.addFunction code)) :=
  Moves.make fun s => ⟨#[], #[⟨code, []⟩], by simp [h], by simp [Store.addFunction]⟩

theorem uniqueFunction {code : FunctionCode} (h : code.isPoint = false) :
    Extends (make (·.uniqueFunction code)) := by
  refine Moves.make fun s => ?_
  unfold Store.uniqueFunction
  split
  · exact refl_of Store.Extended s
  · exact addFunction h s

theorem newTuple (items : List Value) : Extends (newTuple items) := by
  unfold Action.newTuple
  split
  · exact .ret _
  · exact newId.bind fun _ => .ret _

theorem newFunction {code : FunctionCode} (h : code.isPoint = false) :
    Extends (newFunction code) :=
  (addFunction h).bind fun _ => .ret _

theorem theFunction {code : FunctionCode} (h : code.isPoint = false) :
    Extends (theFunction code) :=
  (uniqueFunction h).bind fun _ => .ret _

theorem newMethod (receiver : Value) (m : Method) : Extends (newMethod receiver m) :=
  newId.bind fun _ => .ret _

end Extends

end Action

end Lisplet
