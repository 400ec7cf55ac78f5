import Lisplet.Proofs.Isolation.Properties

/-!
# Names in sealed stores

From a confined scope a walk outwards passes older and older scopes and ends with the core scope.
What it finds are the variables of one of them, so that the value of a name is confined.
-/

namespace Lisplet

open Lisplet.Action

variable {n : Nat}

instance : Upward Value.Outer := ⟨fun h hle => h.imp id (·.mono hle)⟩

/-! ## Walking outwards -/

theorem Value.varsOf_secure {v : Value} (hv : v.Outer n) : Secure n v.varsOf Value.Held := by
  rcases hv with rfl | hv
  · refine .gets fun s hs _ => .inl ?_
    rw [hs.core]
    rfl
  · cases v with
    | scope r => exact .gets fun s hs hn => .inr (hs.scope (hv.mono hn)).1
    | _ => exact (Property.member_secure hv (.inl (by decide))).weaken fun _ _ => .inr

theorem Value.parentOf_secure {v : Value} (hv : v.Outer n) : Secure n v.parentOf Value.Outer := by
  rcases hv with rfl | hv
  · refine .gets fun s hs _ => .inr ?_
    rw [hs.core]
    trivial
  · cases v with
    | scope r =>
      refine .gets fun s hs hn => ?_
      exact Upward.mono (hs.scope (hv.mono hn)).2.2 (Nat.le_of_lt (hv.mono hn).2)
    | _ => exact (Property.member_secure hv (.inr (by simp))).weaken fun _ _ => .inr

theorem holderWithin_secure (name : Value) (fuel : Nat) {scope : Value} (h : scope.Outer n) :
    Secure n (holderWithin name fuel scope) OptionHeld := by
  induction fuel generalizing n scope with
  | zero => exact .exhausted
  | succ fuel ih =>
    unfold holderWithin
    split
    · refine .ret fun v hv => ?_
      cases hv
    · refine (Value.varsOf_secure h).bind fun m hle vars hvars => ?_
      refine (Secure.contains vars name).bind fun k hle' found _ => ?_
      split
      · refine .ret fun v hv => ?_
        cases hv
        exact Upward.mono hvars hle'
      · have hscope : scope.Outer k := Upward.mono h (Nat.le_trans hle hle')
        exact (Value.parentOf_secure hscope).bind fun _ _ outer houter => ih houter

theorem holder?_secure {scope : Value} (h : scope.Outer n) (name : Value) :
    Secure n (holder? scope name) OptionHeld :=
  (Secure.getAny _).bind fun _ hle fuel _ => holderWithin_secure name fuel (Upward.mono h hle)

namespace ScopeRef

variable {r : ScopeRef}

theorem isDefined_secure (hr : (Value.scope r).Confined n) (name : Value) :
    Secure n (r.isDefined name) Any := (holder?_secure (.inr hr) name).seq fun _ => .retAny _

theorem isReadOnly_secure (r : ScopeRef) (name : Value) : Secure n (r.isReadOnly name) Any :=
  (Secure.getAny _).seq fun _ => .contains _ _

theorem getVar_secure (hr : (Value.scope r).Confined n) (name : Value) :
    Secure n (r.getVar name) Value.Confined := by
  refine (Property.guardValue_reads name).secure.seq fun _ => ?_
  refine (holder?_secure (.inr hr) name).bind fun m _ found hfound => ?_
  split
  · exact .subscript name (hfound _ rfl)
  · exact .ret trivial

theorem getAt_secure (hr : (Value.scope r).Confined n) (base : Value) (path : List Value) :
    Secure n (r.getAt base path) Value.Confined := by
  refine (Property.guardValue_reads base).secure.seq fun _ => ?_
  refine (isDefined_secure hr base).seq fun found => ?_
  split
  · exact (getVar_secure hr base).bind fun m _ v hv => Property.getPath_secure hv path
  · exact (Secure.computeAny _).seq fun _ => .raise _

/-- A name is bound in the variables of a scope that is not the core scope. -/
theorem bind_secure {name value : Value} (hr : (Value.scope r).Confined n)
    (hname : name.Confined n) (hvalue : value.Confined n) : Secure n (r.bind name value) Any := by
  have hread : Secure n (Action.gets fun s => (s.scope r).vars) Value.Confined :=
    .gets fun s hs hn => (hs.scope (hr.mono hn)).1
  refine hread.bind fun m hle vars hvars => ?_
  split
  · refine (Reads.keyOf name).secure.seq fun key => .update (fun _ => rfl) fun s hs hn => ?_
    have hle' := Nat.le_trans hle hn
    exact hs.setDict hvars ((hs.dicts _).insert (hname.mono hle') (hvalue.mono hle'))
  · exact .raise _
  · exact .raise _

theorem setAt_secure {base value : Value} {path : List Value} (hr : (Value.scope r).Confined n)
    (hbase : base.Confined n) (hpath : AllConfined n path) (hvalue : value.Confined n) :
    Secure n (r.setAt base path value) Value.Confined := by
  refine (Property.guardValue_reads base).secure.seq fun _ => ?_
  split
  · exact (bind_secure hr hbase hvalue).seq fun _ => .ret hvalue
  · exact (getVar_secure hr base).bind fun m hle v hv =>
      Property.setPath_secure hv (hpath.mono hle) (hvalue.mono hle)

end ScopeRef

/-! ## Operands -/

namespace Operand

variable {v : Value}

theorem kind_secure (hv : v.Confined n) : Secure n (kind v) Value.Confined := by
  cases v with
  | node e => exact .ret trivial
  | _ => exact Property.member_secure hv (.inl (by decide))

theorem content_secure (hv : v.Confined n) : Secure n (content v) Value.Confined := by
  cases v with
  | node e => exact .ret (contentOf_confined (Value.confined_node.mp hv))
  | _ => exact Property.member_secure hv (.inl (by decide))

theorem line_secure (hv : v.Confined n) : Secure n (line v) Value.Confined := by
  cases v with
  | node e => exact .ret (lineOf_confined (Value.confined_node.mp hv))
  | _ => exact Property.member_secure hv (.inl (by decide))

theorem isA_secure (k : NodeKind) (hv : v.Confined n) : Secure n (isA k v) Any :=
  (kind_secure hv).seq fun _ => .retAny _

theorem kindText_secure (hv : v.Confined n) : Secure n (kindText v) Any :=
  (kind_secure hv).bind fun _ _ _ hkind =>
    (Property.member_secure hkind (.inl (by decide))).seq fun _ => .computeAny _

theorem described_secure (hv : v.Confined n) : Secure n (described v) Any :=
  (kindText_secure hv).seq fun _ => (line_secure hv).seq fun _ =>
    (Secure.computeAny _).seq fun _ => .retAny _

theorem frame_secure (hv : v.Confined n) : Secure n (frame v) Any :=
  (content_secure hv).seq fun _ => (line_secure hv).seq fun _ => .retAny _

end Operand

end Lisplet
