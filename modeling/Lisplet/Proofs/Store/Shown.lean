import Lisplet.Store.Shown
import Mathlib.Tactic.Common

/-!
# What the text of a value can be

A value that has no text fails to have one for a few reasons only: an integer with too many digits,
something without elements where elements are needed, or a slot that is missing. None of them has to
do with the denylist.
-/

namespace Lisplet

/-! ## Errors of a computation -/

/-- Every error that a computation can give is of one of these classes and has a wording of its
own, which an error that the host raises may lack. -/
def ErrorsAmong {α : Type} (kinds : List ErrorKind) (x : Except Fault α) : Prop :=
  ∀ fault, x = .error fault → fault.kind ∈ kinds ∧ fault.arguments = [.str fault.text]

namespace ErrorsAmong

variable {α β : Type} {kinds : List ErrorKind}

theorem ok (a : α) : ErrorsAmong kinds (.ok a) := by
  intro fault h
  cases h

theorem error {fault : Fault} (hkind : fault.kind ∈ kinds)
    (htext : fault.arguments = [.str fault.text]) :
    ErrorsAmong (α := α) kinds (.error fault) := by
  intro fault' h
  cases h
  exact ⟨hkind, htext⟩

/-- What follows a computation may add its own errors. -/
theorem bind {x : Except Fault α} {f : α → Except Fault β} (hx : ErrorsAmong kinds x)
    (hf : ∀ a, ErrorsAmong kinds (f a)) : ErrorsAmong kinds (x >>= f) := by
  intro fault h
  cases x with
  | ok a => exact hf a fault h
  | error e =>
    cases h
    exact hx _ rfl

theorem mapM {f : α → Except Fault β} {xs : List α} (hf : ∀ a, ErrorsAmong kinds (f a)) :
    ErrorsAmong kinds (xs.mapM f) := by
  induction xs with
  | nil => exact ok []
  | cons a xs ih =>
    rw [List.mapM_cons]
    exact (hf a).bind fun b => ih.bind fun bs => ok (b :: bs)

end ErrorsAmong

namespace Store

variable {s : Store}

/-- The classes of errors that a missing text can have. -/
def textErrors : List ErrorKind := [.value, .type, .missingAttribute]

theorem missingAttribute_kind (v : Value) (name : String) :
    (missingAttribute v name).kind = .missingAttribute := by
  unfold missingAttribute
  split <;> rfl

theorem missingAttribute_arguments (v : Value) (name : String) :
    (missingAttribute v name).arguments = [.str (missingAttribute v name).text] := by
  unfold missingAttribute
  split <;> rfl

theorem intText_errors (i : Int) : ErrorsAmong textErrors (intText i) := by
  unfold intText
  split
  · exact .ok _
  · exact .error (by decide) rfl

theorem sizeOf_errors (v : Value) : ErrorsAmong textErrors (s.sizeOf v) := by
  unfold sizeOf
  split <;> try exact .ok _
  split
  · exact .ok _
  · exact .error (by simp [Fault.kind, textErrors]) rfl

theorem elements_errors (v : Value) : ErrorsAmong textErrors (s.elements v) := by
  unfold elements
  split <;> try exact .ok _
  split
  · exact .ok _
  · exact .error (by simp [Fault.kind, textErrors]) rfl

theorem requiredSlot_errors (v : Value) (name : String) :
    ErrorsAmong textErrors (s.requiredSlot v name) := by
  unfold requiredSlot
  split
  · exact .ok _
  · exact .error (by simp [missingAttribute_kind, textErrors]) (missingAttribute_arguments _ _)

theorem itemsOf_errors (v : Value) : ErrorsAmong textErrors (s.itemsOf v) := by
  unfold itemsOf
  split
  · exact .ok _
  · exact .error (by simp [missingAttribute_kind, textErrors]) (missingAttribute_arguments _ _)

theorem scopeText_errors (r : ScopeRef) : ErrorsAmong textErrors (s.scopeText r) :=
  (sizeOf_errors _).bind fun _ => (sizeOf_errors _).bind fun _ => .ok _

/-- The errors of the three mutual functions at one depth. -/
structure TextErrorsAt (s : Store) (fuel : Nat) : Prop where
  shown : ∀ path v, ErrorsAmong textErrors (s.shownIn fuel path v)
  node : ∀ path n, ErrorsAmong textErrors (s.nodeShownIn fuel path n)
  plain : ∀ path v, ErrorsAmong textErrors (s.plainIn fuel path v)

/-- A closure is shown by the parameters it has now. -/
theorem closureShown_errors {fuel : Nat} (h : TextErrorsAt s fuel) (path : List Container)
    (r : ClosureRef) : ErrorsAmong textErrors (s.shownIn (fuel + 1) path (.closure r)) := by
  rw [shownIn]
  refine (requiredSlot_errors _ _).bind fun params => ?_
  refine (requiredSlot_errors _ _).bind fun value => (elements_errors _).bind fun items => ?_
  refine ErrorsAmong.bind (.mapM fun p => ?_) fun texts => .ok _
  refine (requiredSlot_errors _ _).bind fun kind => ?_
  exact (requiredSlot_errors _ _).bind fun value => (h.plain _ _).bind fun text => .ok _

theorem shownIn_errors {fuel : Nat} (h : TextErrorsAt s fuel) (path : List Container) (v : Value) :
    ErrorsAmong textErrors (s.shownIn (fuel + 1) path v) := by
  cases v with
  | int i =>
    rw [shownIn]
    exact intText_errors i
  | list r =>
    rw [shownIn]
    split
    · exact .ok _
    · exact (ErrorsAmong.mapM fun item => h.shown _ item).bind fun _ => .ok _
  | tuple id items =>
    rw [shownIn]
    split
    · exact .ok _
    · exact (ErrorsAmong.mapM fun item => h.shown _ item).bind fun _ => .ok _
  | dict r =>
    rw [shownIn]
    split
    · exact .ok _
    · refine ErrorsAmong.bind (.mapM fun e => ?_) fun _ => .ok _
      exact (h.shown _ _).bind fun _ => (h.shown _ _).bind fun _ => .ok _
  | node n =>
    rw [shownIn]
    exact h.node path n
  | set id items =>
    cases items with
    | nil =>
      rw [shownIn]
      exact .ok _
    | cons item items =>
      rw [shownIn]
      · exact (ErrorsAmong.mapM fun item => h.shown _ item).bind fun _ => .ok _
      · simp
  | closure r => exact closureShown_errors h path r
  | form f =>
    rw [shownIn]
    exact (h.plain _ _).bind fun _ => .ok _
  | function r =>
    obtain ⟨shape, i⟩ := r
    cases shape <;> simp only [shownIn] <;> exact .ok _
  | object r =>
    obtain ⟨cls, i⟩ := r
    cases cls <;> simp only [shownIn] <;> exact .ok _
  | scope r =>
    rw [shownIn]
    exact scopeText_errors r
  | _ =>
    simp only [shownIn]
    exact .ok _

theorem nodeShownIn_errors {fuel : Nat} (h : TextErrorsAt s fuel) (path : List Container)
    (n : Node Value) : ErrorsAmong textErrors (s.nodeShownIn (fuel + 1) path n) := by
  cases n with
  | leaf k text mark =>
    rw [nodeShownIn]
    exact .ok _
  | group k items mark =>
    rw [nodeShownIn]
    exact (ErrorsAmong.mapM fun item => h.node _ item).bind fun _ => .ok _
  | host value line serial =>
    rw [nodeShownIn]
    exact (h.shown _ _).bind fun _ => (h.plain _ _).bind fun _ => .ok _

theorem plainIn_errors {fuel : Nat} (h : TextErrorsAt s fuel) (path : List Container) (v : Value) :
    ErrorsAmong textErrors (s.plainIn (fuel + 1) path v) := by
  cases v with
  | scope r =>
    rw [plainIn]
    refine (itemsOf_errors _).bind fun items => ErrorsAmong.bind (.mapM fun e => ?_) fun _ => .ok _
    exact (h.plain _ _).bind fun _ => (h.shown _ _).bind fun _ => .ok _
  | str _ | kind _ =>
    rw [plainIn]
    exact .ok _
  | _ =>
    simp only [plainIn]
    exact h.shown path _

/-- At every depth the texts of values and nodes fail for the same few reasons. -/
theorem textErrorsAt (s : Store) (fuel : Nat) : TextErrorsAt s fuel := by
  induction fuel with
  | zero =>
    refine ⟨fun path v => ?_, fun path n => ?_, fun path v => ?_⟩
    · rw [shownIn]
      exact .ok _
    · rw [nodeShownIn]
      exact .ok _
    · rw [plainIn]
      exact .ok _
  | succ fuel ih => exact ⟨shownIn_errors ih, nodeShownIn_errors ih, plainIn_errors ih⟩

theorem shown_errors (s : Store) (v : Value) : ErrorsAmong textErrors (s.shown v) :=
  (textErrorsAt s shownDepth).shown [] v

theorem plain_errors (s : Store) (v : Value) : ErrorsAmong textErrors (s.plain v) :=
  (textErrorsAt s shownDepth).plain [] v

end Store

end Lisplet
