import Lisplet.Evaluation.Machine
import Lisplet.Proofs.Evaluation.Operands
import Lisplet.Proofs.Operator.Reading
import Lisplet.Proofs.Property.Methods

/-!
# Errors as they are raised

What reads and writes values, properties and scopes does not touch the errors that leave it: each of
them is as it was raised. A new error has no frames. The two exceptions are the error of a chain for
a step that names no function, which has the frame of the name, and the error that the host raises
again and again.
-/

namespace Lisplet

open Lisplet.Action

/-- The error is as it was raised. -/
inductive Failure.Raised : Failure → Prop where
  /-- A new error. -/
  | fresh (fault : Fault) : Raised (.fresh fault)
  /-- A step of a chain names no function. -/
  | badStep {node : Value} {frame : Frame} {s t : Store} (what : String)
    (hframe : Operand.frame node s = .done frame t) :
    Raised ((Failure.fresh (.notFunction what)).push frame)
  /-- The host raises it again and again. -/
  | shared {e : Failure} (h : e.shared = true) : Raised e

/-! ## The shared error -/

namespace Store

variable (s : Store)

@[grind =]
theorem setList_shared (r : ListRef) (items : Array Value) : (s.setList r items).shared = s.shared :=
  rfl

@[grind =]
theorem setIterator_shared (r : IteratorRef) (items : List Value) :
    (s.setIterator r items).shared = s.shared := rfl

@[grind =]
theorem uniqueFunction_shared (code : FunctionCode) :
    (s.uniqueFunction code).2.shared = s.shared := by
  unfold uniqueFunction
  split <;> rfl

end Store

/-! ## Actions -/

/-- The error that the host raises again and again, `shared`, is left alone, and an error is as it
was raised. -/
def Outcome.Candid {α : Type} (shared : Failure) : Outcome α → Prop
  | .done _ t => t.shared = shared
  | .failed e t =>
    t.shared = shared ∧ e.Raised ∧ (e.shared = true → e = { shared with shared := true })
  | .exhausted => True

namespace Action

variable {α β : Type}

/-- All errors that leave the action are as they were raised, also the one that the host raises
again and again. -/
def Candid (a : Action α) : Prop := ∀ s, (a s).Candid s.shared

/-- What only reads leaves the shared error alone and raises new errors. -/
@[grind ←]
theorem Reads.candid {a : Action α} (ha : Reads a) : Candid a := by
  intro s
  have hs := ha s
  cases hrun : a s with
  | done v t =>
    rw [hrun] at hs
    obtain rfl : t = s := hs
    rfl
  | failed e t =>
    rw [hrun] at hs
    obtain ⟨rfl, fault, rfl⟩ := hs
    exact ⟨rfl, .fresh fault, fun h => by cases h⟩
  | exhausted => trivial

namespace Candid

theorem raised {a : Action α} {s t : Store} {e : Failure} (ha : Candid a)
    (h : a s = .failed e t) : e.Raised := by
  have hs := ha s
  rw [h] at hs
  exact hs.2.1

@[grind ←]
theorem ret (v : α) : Candid (pure v) := (Reads.ret v).candid

@[grind ←]
theorem raise (fault : Fault) : Candid (Action.raise fault : Action α) := (Reads.raise fault).candid

@[grind ←]
theorem gets (f : Store → α) : Candid (Action.gets f) := (Reads.gets f).candid

@[grind ←]
theorem update {f : Store → Store} (h : ∀ s, (f s).shared = s.shared) : Candid (Action.update f) :=
  h

@[grind ←]
theorem make {f : Store → α × Store} (h : ∀ s, (f s).2.shared = s.shared) :
    Candid (Action.make f) := h

@[grind ←]
theorem compute (f : Store → Except Fault α) : Candid (Action.compute f) := (Reads.compute f).candid

@[grind ←]
theorem bind {a : Action α} {f : α → Action β} (ha : Candid a) (hf : ∀ v, Candid (f v)) :
    Candid (a >>= f) := by
  intro s
  have hs := ha s
  rw [bind_apply]
  cases hrun : a s with
  | done v t =>
    rw [hrun] at hs
    have ht := hf v t
    rwa [show t.shared = s.shared from hs] at ht
  | failed e t => rwa [hrun] at hs
  | exhausted => trivial

@[grind ←]
theorem map {a : Action α} (ha : Candid a) (f : α → β) : Candid (f <$> a) :=
  ha.bind fun v => ret (f v)

@[grind ←]
theorem discard {a : Action α} (ha : Candid a) : Candid (Functor.discard a) := ha.map _

@[grind ←]
theorem foldlM {f : β → α → Action β} (hf : ∀ acc v, Candid (f acc v)) (items : List α) (acc : β) :
    Candid (items.foldlM f acc) := by
  induction items generalizing acc with
  | nil => exact ret acc
  | cons v rest ih =>
    rw [List.foldlM_cons]
    exact (hf acc v).bind ih

@[grind ←]
theorem mapM {f : α → Action β} (hf : ∀ v, Candid (f v)) (items : List α) :
    Candid (items.mapM f) := by
  induction items with
  | nil => exact ret []
  | cons v rest ih =>
    rw [List.mapM_cons]
    exact (hf v).bind fun _ => ih.bind fun _ => ret _

/-! ## Values -/

@[grind ←]
theorem newId : Candid Action.newId := make fun _ => rfl

@[grind ←]
theorem newList (items : Array Value) : Candid (Action.newList items) :=
  (make fun _ => rfl).bind fun _ => ret _

@[grind ←]
theorem newTuple (items : List Value) : Candid (Action.newTuple items) := by
  unfold Action.newTuple
  split
  · exact ret _
  · exact newId.bind fun _ => ret _

@[grind ←]
theorem newBytes (data : List UInt8) : Candid (Action.newBytes data) := by
  unfold Action.newBytes
  split
  · exact ret _
  · exact newId.bind fun _ => ret _

@[grind ←]
theorem copiedBytes (data : List UInt8) : Candid (Action.copiedBytes data) := by
  unfold Action.copiedBytes
  split
  · exact ret _
  · exact newBytes data

@[grind ←]
theorem newSet (items : List Value) : Candid (Action.newSet items) := newId.bind fun _ => ret _

@[grind ←]
theorem newDict (d : Dict) : Candid (Action.newDict d) :=
  (make fun _ => rfl).bind fun _ => ret _

@[grind ←]
theorem newFunction (code : FunctionCode) : Candid (Action.newFunction code) :=
  (make fun _ => rfl).bind fun _ => ret _

@[grind ←]
theorem theFunction (code : FunctionCode) : Candid (Action.theFunction code) :=
  (make fun s => s.uniqueFunction_shared code).bind fun _ => ret _

@[grind ←]
theorem newMethod (receiver : Value) (m : Method) : Candid (Action.newMethod receiver m) :=
  newId.bind fun _ => ret _

@[grind ←]
theorem newFloat (d : Double) : Candid (Action.newFloat d) := by
  unfold Action.newFloat
  split
  · exact newId.bind fun _ => ret _
  · exact ret _

@[grind ←]
theorem write (text : String) : Candid (Action.write text) :=
  update fun _ => rfl

@[grind ←]
theorem elements (v : Value) : Candid (Action.elements v) := by
  refine (compute _).bind fun items => ?_
  split
  · exact (update fun _ => rfl).bind fun _ => ret items
  · exact ret items

@[grind ←]
theorem anyTaken (r : IteratorRef) (value : Value) (items : List Value) :
    Candid (Action.anyTaken r value items) := by
  induction items with
  | nil => exact ret false
  | cons v rest ih =>
    refine Candid.bind (update fun _ => rfl) fun _ => (Reads.within _).candid.bind fun same => ?_
    split
    · exact ret true
    · exact ih

@[grind ←]
theorem contains (container value : Value) : Candid (Action.contains container value) := by
  unfold Action.contains
  split
  · exact (gets _).bind fun _ => (Reads.anyEqual value _).candid
  · exact (Reads.anyEqual value _).candid
  · exact (Reads.keyOf value).candid.bind fun _ => (gets _).bind fun _ => ret _
  · exact (Reads.keyAmong value _).candid
  · exact (Reads.containsBytes _ value).candid
  · exact (gets _).bind fun _ => anyTaken _ value _
  · split
    · exact (Reads.containsText _ value).candid
    · exact raise _

end Candid

end Action

/-! ## Operators -/

namespace Numeric

@[grind ←]
theorem combine_candid (ints : Int → Int → Int) (doubles : Double → Double → Double)
    (x y : Numeric) : Candid (combine ints doubles x y) := by
  unfold combine
  split
  · exact .ret _
  · exact x.toDouble_reads.candid.bind fun _ => y.toDouble_reads.candid.bind fun _ => .newFloat _

@[grind ←]
theorem divide_candid (x y : Numeric) : Candid (divide x y) := by
  unfold divide
  split
  · split
    · exact .raise _
    · generalize Double.ofRatio _ _ _ = quotient
      cases quotient with
      | fin neg units => exact .ret _
      | inf neg => exact .raise _
      | nan tag => exact .raise _
  · refine x.toDouble_reads.candid.bind fun _ => y.toDouble_reads.candid.bind fun _ => ?_
    split
    · exact .raise _
    · exact .newFloat _

end Numeric

namespace Operator

@[grind ←]
theorem repeated_candid (sequence : Value) (count : Int) : Candid (repeated sequence count) := by
  unfold repeated
  grind

@[grind ←]
theorem sum_candid (a b : Value) : Candid (sum a b) := by
  unfold sum
  grind

@[grind ←]
theorem difference_candid (a b : Value) : Candid (difference a b) := by
  unfold difference
  grind

@[grind ←]
theorem product_candid (a b : Value) : Candid (product a b) := by
  unfold product
  grind

@[grind ←]
theorem quotient_candid (a b : Value) : Candid (quotient a b) := by
  unfold quotient
  grind

@[grind ←]
theorem apply_candid (op : Operator) (a b : Value) : Candid (op.apply a b) := by
  unfold apply
  grind

end Operator

/-! ## Properties -/

namespace Property

@[grind ←]
theorem method?_candid (v : Value) (name : String) : Candid (method? v name) := by
  intro s
  obtain ⟨a, hread, heq⟩ := method?_read v name s
  rw [heq]
  cases hread with
  | absent | shared _ | given _ _ _ _ _ => exact Candid.ret _ s
  | fresh m => exact (Candid.newMethod _ m).map some s
  | builtIn _ _ _ | unbound _ _ => exact (Candid.theFunction _).map some s

@[grind ←]
theorem attribute?_candid (v : Value) (name : String) : Candid (attribute? v name) := by
  refine Candid.bind (.gets _) fun slot => ?_
  cases slot with
  | some value => exact .ret _
  | none => exact method?_candid v name

@[grind ←]
theorem member_candid (v : Value) (name : String) : Candid (member v name) := by
  refine (attribute?_candid v name).bind fun value => ?_
  cases value with
  | some value => exact .ret value
  | none => exact .raise _

@[grind ←]
theorem hasAttribute_candid (v : Value) (name : String) : Candid (hasAttribute v name) := by
  unfold hasAttribute
  split
  · exact .ret true
  · exact (attribute?_candid v name).bind fun _ => .ret _

@[grind ←]
theorem textMethod_candid (text key : Value) : Candid (textMethod text key) := by
  unfold textMethod
  split
  · exact .ret _
  · split
    · exact member_candid text _
    · refine (hasAttribute_candid text _).bind fun known => ?_
      split
      · exact .raise _
      · exact .ret _

@[grind ←]
theorem sequenceMethod?_candid (sequence key : Value) :
    Candid (sequenceMethod? sequence key) := by
  refine (Reads.keyOf key).candid.bind fun _ => ?_
  split
  · exact (Candid.newTuple _).bind fun _ => (Candid.make fun _ => rfl).bind fun _ =>
      (Candid.newFunction _).map some
  · exact .ret _

@[grind ←]
theorem attributeOf_candid (v key : Value) : Candid (attributeOf v key) := by
  unfold attributeOf
  split
  · exact .ret _
  · exact (attribute?_candid v _).bind fun _ => .ret _

@[grind ←]
theorem ofSequence_candid (v : Value) (items : Array Value) (key : Value) :
    Candid (ofSequence v items key) := by
  refine (Reads.ofExcept _).candid.bind fun index => ?_
  cases index with
  | some i => exact .ret _
  | none =>
    dsimp only
    split
    · exact .ret _
    · refine (sequenceMethod?_candid v key).bind fun method => ?_
      cases method with
      | some method => exact .ret method
      | none => exact attributeOf_candid v key

@[grind ←]
theorem ofText_candid (v : Value) (text : String) (key : Value) :
    Candid (ofText v text key) := by
  refine (Reads.ofExcept _).candid.bind fun index => ?_
  cases index with
  | some i => exact .ret _
  | none =>
    dsimp only
    split
    · exact .ret _
    · exact textMethod_candid v key

@[grind ←]
theorem get_candid (v key : Value) : Candid (get v key) := by
  refine (guardKey_reads key).candid.bind fun _ => ?_
  split
  · exact Candid.bind (.compute _) fun _ => Candid.bind (.compute _) fun _ => .raise _
  · exact Candid.bind (.compute _) fun _ => Candid.bind (.compute _) fun _ => .raise _
  · exact (Reads.keyOf key).candid.bind fun _ => Candid.bind (.gets _) fun _ => .ret _
  · exact Candid.bind (.gets _) fun items => ofSequence_candid _ items key
  · exact ofSequence_candid _ _ key
  · exact ofText_candid _ _ key
  · exact ofText_candid _ _ key
  · exact attributeOf_candid _ key

@[grind ←]
theorem refusal_candid (v : Value) (name : String) : Candid (refusal v name) := by
  refine (hasAttribute_candid v name).bind fun known => ?_
  split <;> exact .raise _

@[grind ←]
theorem setClosureAttribute_candid (r : ClosureRef) (c : Closure) (name : String) (value : Value) :
    Candid (setClosureAttribute r c name value) := by
  unfold setClosureAttribute
  split
  case h_4 => exact refusal_candid _ _
  all_goals exact .update fun _ => rfl

@[grind ←]
theorem setScopeAttribute_candid (r : ScopeRef) (name : String) (value : Value) :
    Candid (setScopeAttribute r name value) := by
  refine (Candid.gets _).bind fun scope => ?_
  split
  case h_4 => exact refusal_candid _ _
  all_goals exact .update fun _ => rfl

@[grind ←]
theorem setKindAttribute_candid (k : NodeKind) (name : String) (value : Value) :
    Candid (setKindAttribute k name value) := by
  unfold setKindAttribute
  split
  · exact .raise _
  · exact .update fun _ => rfl

@[grind ←]
theorem setAttribute_candid (v : Value) (name : String) (value : Value) :
    Candid (setAttribute v name value) := by
  unfold setAttribute
  cases v with
  | object r => exact (Candid.gets _).bind fun _ => .update fun _ => rfl
  | function r =>
    dsimp only
    split
    · exact .raise _
    · exact .update fun _ => rfl
  | closure r =>
    refine (Candid.gets _).bind fun closure => ?_
    cases closure with
    | some c => exact setClosureAttribute_candid r c name value
    | none => exact refusal_candid _ name
  | form f =>
    dsimp only
    split
    · exact .update fun _ => rfl
    · exact .update fun _ => rfl
    · exact refusal_candid _ _
  | scope r => exact setScopeAttribute_candid r name value
  | node n => exact .raise _
  | kind k => exact setKindAttribute_candid k name value
  | method receiver m id => exact .raise _
  | _ => exact refusal_candid _ name

@[grind ←]
theorem setElement_candid (r : ListRef) (i : Int) (value : Value) :
    Candid (setElement r i value) := by
  refine (Candid.gets _).bind fun items => ?_
  dsimp only
  split
  · exact .update fun _ => rfl
  · split
    · exact .raise _
    · split
      · exact .update fun _ => rfl
      · exact .raise _

@[grind ←]
theorem setNamed_candid (v key value : Value) : Candid (setNamed v key value) :=
  (Candid.compute _).bind fun name => setAttribute_candid v name value

@[grind ←]
theorem set_candid (v key value : Value) : Candid (set v key value) := by
  refine (guardKey_reads key).candid.bind fun _ => ?_
  split
  · exact (Candid.compute _).bind fun _ => (Candid.compute _).bind fun _ => .raise _
  · exact (Candid.compute _).bind fun _ => (Candid.compute _).bind fun _ => .raise _
  · exact (Reads.keyOf key).candid.bind fun _ => (Candid.gets _).bind fun _ => .update fun _ => rfl
  · refine (Reads.ofExcept _).candid.bind fun index => ?_
    cases index with
    | some i => exact setElement_candid _ i value
    | none => exact setNamed_candid _ key value
  · exact setNamed_candid v key value

@[grind ←]
theorem getPath_candid (v : Value) (path : List Value) : Candid (getPath v path) :=
  .foldlM get_candid path v

@[grind ←]
theorem setPath_candid (v : Value) (path : List Value) (value : Value) :
    Candid (setPath v path value) := by
  unfold setPath
  split
  · exact .raise _
  · refine (Reads.forM guardKey_reads path).candid.bind fun _ => ?_
    exact (getPath_candid v _).bind fun owner => (set_candid owner _ value).bind fun _ => .ret value

@[grind ←]
theorem own_candid (v : Value) : Candid (own v) := by
  unfold own
  split
  case h_1 => exact .gets _
  all_goals first | exact .ret _ | exact Candid.bind (.gets _) fun _ => .ret _

end Property

/-! ## Scopes -/

@[grind ←]
theorem Value.varsOf_candid (v : Value) : Candid (v.varsOf) := by
  unfold Value.varsOf
  split
  · exact .gets _
  · exact Property.member_candid _ _

@[grind ←]
theorem Value.parentOf_candid (v : Value) : Candid (v.parentOf) := by
  unfold Value.parentOf
  split
  · exact .gets _
  · exact Property.member_candid _ _

@[grind ←]
theorem holderWithin_candid (name : Value) (fuel : Nat) (scope : Value) :
    Candid (holderWithin name fuel scope) := by
  induction fuel generalizing scope with
  | zero => exact Reads.exhausted.candid
  | succ fuel ih =>
    unfold holderWithin
    split
    · exact .ret none
    · refine (Value.varsOf_candid scope).bind fun vars => ?_
      refine (Candid.contains vars name).bind fun found => ?_
      split
      · exact .ret _
      · exact (Value.parentOf_candid scope).bind fun outer => ih outer

@[grind ←]
theorem holder?_candid (scope name : Value) : Candid (holder? scope name) :=
  (Candid.gets _).bind fun fuel => holderWithin_candid name fuel scope

namespace ScopeRef

@[grind ←]
theorem isDefined_candid (r : ScopeRef) (name : Value) : Candid (r.isDefined name) :=
  (holder?_candid _ name).bind fun _ => .ret _

@[grind ←]
theorem isReadOnly_candid (r : ScopeRef) (name : Value) : Candid (r.isReadOnly name) :=
  (Candid.gets _).bind fun names => .contains names name

@[grind ←]
theorem getVar_candid (r : ScopeRef) (name : Value) : Candid (r.getVar name) := by
  refine (Property.guardValue_reads name).candid.bind fun _ => ?_
  refine (holder?_candid _ name).bind fun holder => ?_
  cases holder with
  | some vars => exact (Reads.subscript vars name).candid
  | none => exact .ret _

@[grind ←]
theorem getAt_candid (r : ScopeRef) (base : Value) (path : List Value) :
    Candid (r.getAt base path) := by
  refine (Property.guardValue_reads base).candid.bind fun _ => ?_
  refine (isDefined_candid r base).bind fun known => ?_
  split
  · exact (getVar_candid r base).bind fun v => Property.getPath_candid v path
  · exact (Candid.compute _).bind fun _ => .raise _

@[grind ←]
theorem bind_candid (r : ScopeRef) (name value : Value) : Candid (r.bind name value) := by
  refine (Candid.gets _).bind fun vars => ?_
  split
  · exact (Reads.keyOf name).candid.bind fun _ => .update fun _ => rfl
  · exact .raise _
  · exact .raise _

@[grind ←]
theorem setAt_candid (r : ScopeRef) (base : Value) (path : List Value) (value : Value) :
    Candid (r.setAt base path value) := by
  refine (Property.guardValue_reads base).candid.bind fun _ => ?_
  split
  · exact (bind_candid r base value).bind fun _ => .ret value
  · exact (getVar_candid r base).bind fun v => Property.setPath_candid v path value

end ScopeRef

/-! ## Operands -/

namespace Operand

@[grind ←]
theorem kind_candid (operand : Value) : Candid (kind operand) := by
  unfold kind
  split
  · exact .ret _
  · exact Property.member_candid _ _

@[grind ←]
theorem content_candid (operand : Value) : Candid (content operand) := by
  unfold content
  split
  · exact .ret _
  · exact Property.member_candid _ _

@[grind ←]
theorem line_candid (operand : Value) : Candid (line operand) := by
  unfold line
  split
  · exact .ret _
  · exact Property.member_candid _ _

@[grind ←]
theorem isA_candid (k : NodeKind) (operand : Value) : Candid (isA k operand) :=
  (kind_candid operand).bind fun _ => .ret _

@[grind ←]
theorem kindText_candid (operand : Value) : Candid (kindText operand) :=
  (kind_candid operand).bind fun _ => (Property.member_candid _ _).bind fun _ => .compute _

@[grind ←]
theorem described_candid (operand : Value) : Candid (described operand) :=
  (kindText_candid operand).bind fun _ => (line_candid operand).bind fun _ =>
    (Candid.compute _).bind fun _ => .ret _

@[grind ←]
theorem frame_candid (operand : Value) : Candid (frame operand) :=
  (content_candid operand).bind fun _ => (line_candid operand).bind fun _ => .ret _

end Operand

end Lisplet
