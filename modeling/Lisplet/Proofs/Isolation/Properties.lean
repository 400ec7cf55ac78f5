import Lisplet.Evaluation.Machine
import Lisplet.Proofs.Isolation.Values
import Lisplet.Proofs.Property.Guards
import Lisplet.Proofs.Store.Words

/-!
# Properties of confined values

A key that passes the guards does not name the slots that tell a scope what is around it and which
names are read-only in it. So what is read from a confined value along such keys is confined, and
what is written along them leaves these two slots of every scope alone. A key that is no text passes
all guards, but its text is no slot's name.
-/

namespace Lisplet

/-- The key is not the name of a slot that scripts must not get at. -/
def Value.Allowed (key : Value) : Prop :=
  ∀ name, key.text? = some name → name ≠ "parent" ∧ name ≠ "read_only"

/-- A condition on optional variables of a scope. -/
def OptionHeld (n : Nat) (o : Option Value) : Prop := ∀ v, o = some v → v.Held n

instance : Upward OptionHeld := ⟨fun h hle v hv => Upward.mono (h v hv) hle⟩

namespace Property

open Lisplet.Action

variable {n : Nat}

/-! ## Guards -/

/-- In a sealed store the guard lets only allowed keys pass. -/
theorem guardKey_secure (key : Value) : Secure n (guardKey key) fun _ _ => key.Allowed := by
  intro s hs _
  by_cases h : Forbidden s.denylist key
  · obtain ⟨e, he, _⟩ := guardKey_forbidden h
    rw [he]
    exact ⟨hs, .refl s⟩
  · rw [guardKey_passes h]
    refine ⟨hs, .refl s, fun name hname => ⟨?_, ?_⟩⟩
    · rintro rfl
      exact h ⟨_, hname, .inl hs.parent_denied⟩
    · rintro rfl
      exact h ⟨_, hname, .inl hs.readOnly_denied⟩

/-! ## Attributes -/

theorem ownerOf_confined {v : Value} (hv : v.Confined n) (m : Method) :
    (ownerOf v m).Confined n := by
  unfold ownerOf
  split
  · split <;> trivial
  · trivial
  · trivial
  · trivial
  · trivial
  · exact hv

theorem method?_secure {v : Value} (hv : v.Confined n) (name : String) :
    Secure n (method? v name) OptionConfined := by
  intro s hs hn
  obtain ⟨a, hread, heq⟩ := method?_read v name s
  rw [heq]
  cases hread with
  | absent => exact Secure.ret .none s hs hn
  | shared m =>
    have hmethod : (Value.method (ownerOf v m) m 0).Confined n :=
      Value.confined_method.mpr (ownerOf_confined hv m)
    exact Secure.ret (.some hmethod) s hs hn
  | fresh m =>
    exact (Secure.newMethod (ownerOf_confined hv m) m).map (fun _ _ => .some) s hs hn
  | given f body _ _ hbody =>
    have hconfined : body.Confined s.scopes.size := hs.formBodies f body hbody
    exact Secure.ret (.some hconfined) s hs (Nat.le_refl _)
  | builtIn f _ _ =>
    have hcode : (FunctionCode.formBody f).Confined n := trivial
    exact (Secure.theFunction hcode).map (fun _ _ => .some) s hs hn
  | unbound m _ =>
    have hcode : (FunctionCode.unbound m).Confined n := trivial
    exact (Secure.theFunction hcode).map (fun _ _ => .some) s hs hn

theorem attribute?_secure {v : Value} {name : String} (hv : v.Confined n)
    (hname : name ≠ "parent" ∨ ∀ r, v ≠ .scope r) : Secure n (attribute? v name) OptionConfined := by
  have hread : Secure n (Action.gets (·.slot? v name)) OptionConfined :=
    .gets fun s hs hn w hw => hs.slot? (hv.mono hn) hname hw
  refine hread.bind fun m hle slot hslot => ?_
  split
  · exact .ret hslot
  · exact method?_secure (hv.mono hle) name

theorem member_secure {v : Value} {name : String} (hv : v.Confined n)
    (hname : name ≠ "parent" ∨ ∀ r, v ≠ .scope r) : Secure n (member v name) Value.Confined := by
  refine (attribute?_secure hv hname).bind fun m _ found hfound => ?_
  split
  · exact .ret (hfound _ rfl)
  · exact .raise _

/-- Whether there is an attribute may be asked for every name. -/
theorem hasAttribute_secure {v : Value} (hv : v.Confined n) (name : String) :
    Secure n (hasAttribute v name) Any := by
  unfold hasAttribute
  split
  · exact .retAny _
  · refine Secure.seq (Q := Any) ?_ fun _ => .retAny _
    refine (Secure.getAny _).seq fun slot => ?_
    split
    · exact .retAny _
    · exact (method?_secure hv name).any

/-! ## Reading -/

theorem textMethod_secure {text key : Value} (ht : text.Confined n) (hkey : key.Allowed) :
    Secure n (textMethod text key) Value.Confined := by
  unfold textMethod
  split
  · exact .ret trivial
  · split
    · exact member_secure ht (.inl (hkey _ ‹_›).1)
    · refine (hasAttribute_secure ht _).seq fun found => ?_
      split
      · exact .raise _
      · exact .ret trivial

theorem sequenceMethod?_secure {sequence : Value} (hv : sequence.Confined n) (key : Value) :
    Secure n (sequenceMethod? sequence key) OptionConfined := by
  refine (Reads.keyOf key).secure.seq fun _ => ?_
  split
  · have hfirst : AllConfined n [sequence] := .cons hv .nil
    have hnamed : ∀ m, Secure m (Action.make (·.addDict .empty))
        fun _ (r : DictRef) => r.index ≠ 0 := fun m =>
      .make (fun _ => rfl) fun s hs _ => ⟨hs.addDict Dict.confined_empty, hs.addDict_ref _⟩
    refine (Secure.newTuple hfirst).bind fun m _ first hf => (hnamed m).bind fun k hle r hr => ?_
    exact Secure.map (.newFunction ⟨hf.mono hle, hr⟩) fun _ _ => .some
  · exact .ret .none

theorem attributeOf_secure {v key : Value} (hv : v.Confined n) (hkey : key.Allowed) :
    Secure n (attributeOf v key) Value.Confined := by
  unfold attributeOf
  split
  · exact .ret trivial
  · have hname := (hkey _ ‹_›).1
    exact (attribute?_secure hv (.inl hname)).bind fun m _ found hfound =>
      .ret (.getD hfound trivial)

theorem ofSequence_secure {v key : Value} {items : Array Value} (hv : v.Confined n)
    (hi : AllConfined n items.toList) (hkey : key.Allowed) :
    Secure n (ofSequence v items key) Value.Confined := by
  refine Secure.seq (Q := Any) (.ofExcept fun _ _ => trivial) fun index => ?_
  split
  · refine .ret (.getD (fun w hw => ?_) trivial)
    obtain ⟨i, _, hitem⟩ := Option.bind_eq_some_iff.mp hw
    exact hi w (Array.mem_toList_iff.mpr (Array.mem_of_getElem? hitem))
  · split
    · exact .ret trivial
    · refine (sequenceMethod?_secure hv key).bind fun m hle found hfound => ?_
      split
      · exact .ret (hfound _ rfl)
      · exact attributeOf_secure (hv.mono hle) hkey

theorem ofText_secure {v key : Value} (text : String) (hv : v.Confined n) (hkey : key.Allowed) :
    Secure n (ofText v text key) Value.Confined := by
  refine Secure.seq (Q := Any) (.ofExcept fun _ _ => trivial) fun index => ?_
  split
  · refine .ret ?_
    generalize Option.bind _ _ = found
    cases found <;> trivial
  · split
    · exact .ret trivial
    · exact textMethod_secure hv hkey

theorem get_secure {v : Value} (hv : v.Confined n) (key : Value) :
    Secure n (get v key) Value.Confined := by
  refine (guardKey_secure key).bind fun m hle _ hkey => ?_
  cases v with
  | undefined | nil =>
    exact (Secure.computeAny _).seq fun _ => (Secure.computeAny _).seq fun _ => .raise _
  | dict r =>
    exact (Reads.keyOf key).secure.seq fun hash => (Secure.getDict r).bind fun k _ d hd =>
      .ret (.getD (fun w hw => hd.get? hw) trivial)
  | list r =>
    exact (Secure.getList r).bind fun k _ items hi => ofSequence_secure trivial hi hkey
  | tuple id items => exact ofSequence_secure (hv.mono hle) ((Value.confined_tuple.mp hv).mono hle) hkey
  | str text => exact ofText_secure text trivial hkey
  | kind k => exact ofText_secure k.name trivial hkey
  | _ => exact attributeOf_secure (hv.mono hle) hkey

theorem getPath_secure {v : Value} (hv : v.Confined n) (path : List Value) :
    Secure n (getPath v path) Value.Confined := by
  induction path generalizing n v with
  | nil => exact .ret hv
  | cons key path ih =>
    rw [getPath_cons]
    exact (get_secure hv key).bind fun m _ w hw => ih hw

/-! ## Writing -/

theorem refusal_secure {v : Value} (hv : v.Confined n) (name : String) :
    Secure n (refusal v name) Any := by
  refine (hasAttribute_secure hv name).seq fun found => ?_
  split <;> exact .raise _

theorem setClosureAttribute_secure {c : Closure} {value : Value} (r : ClosureRef) (name : String)
    (hc : c.Confined n) (hvalue : value.Confined n) :
    Secure n (setClosureAttribute r c name value) Any := by
  have hwrite : ∀ c' : Closure, c'.Confined n → Secure n (Action.update (·.setClosure r c')) Any :=
    fun c' hc' => .update (fun _ => rfl) fun s hs hn =>
      hs.setClosure r ⟨hc'.1.mono hn, hc'.2.1.mono hn, hc'.2.2.mono hn⟩
  unfold setClosureAttribute
  split
  · exact hwrite _ ⟨hvalue, hc.2⟩
  · exact hwrite _ ⟨hc.1, hvalue, hc.2.2⟩
  · exact hwrite _ ⟨hc.1, hc.2.1, hvalue⟩
  · exact refusal_secure (v := .closure r) trivial _

/-- Of the slots of a scope only the variables can be written along allowed keys. -/
theorem setScopeAttribute_secure {r : ScopeRef} {name : String} {value : Value}
    (hr : (Value.scope r).Confined n) (hname : name ≠ "parent" ∧ name ≠ "read_only")
    (hvalue : value.Confined n) : Secure n (setScopeAttribute r name value) Any := by
  by_cases hvars : name = "vars"
  · subst hvars
    intro s hs hn
    exact ⟨hs.setVars hr.1 (hvalue.mono hn), Store.Sealed.extends_setVars s r value, trivial⟩
  · unfold setScopeAttribute
    refine (Secure.getAny _).seq fun scope => ?_
    split
    · contradiction
    · exact absurd rfl hname.2
    · exact absurd rfl hname.1
    · exact refusal_secure hr _

theorem setKindAttribute_secure {value : Value} (k : NodeKind) {name : String}
    (hname : name ≠ "parent") (hvalue : value.Confined n) :
    Secure n (setKindAttribute k name value) Any := by
  unfold setKindAttribute
  split
  · exact .raise _
  · exact .update (fun _ => rfl) fun s hs hn =>
      hs.setKindAttributes k ((hs.kinds k).set hname (hvalue.mono hn))

theorem setFormAttribute_secure {value : Value} (f : Form) (name : String)
    (hvalue : value.Confined n) : Secure n (setAttribute (.form f) name value) Any := by
  unfold setAttribute
  dsimp only
  split
  · exact .update (fun _ => rfl) fun s hs hn => hs.setFormName f (hvalue.mono hn)
  · exact .update (fun _ => rfl) fun s hs hn => hs.setFormBody f (hvalue.mono hn)
  · exact refusal_secure (v := .form f) trivial _

theorem setAttribute_secure {v value : Value} {name : String} (hv : v.Confined n)
    (hname : name ≠ "parent" ∧ name ≠ "read_only") (hvalue : value.Confined n) :
    Secure n (setAttribute v name value) Any := by
  cases v with
  | object r =>
    have hread : Secure n (Action.gets (·.object r)) Attributes.Confined :=
      .gets fun s hs _ => hs.objects r
    refine hread.bind fun m hle attrs hattrs => ?_
    exact .update (fun _ => rfl) fun s hs hm =>
      hs.setObject r ((hattrs.set hname.1 (hvalue.mono hle)).mono hm)
  | function r =>
    unfold setAttribute
    dsimp only
    split
    · exact .raise _
    · exact .update (fun _ => rfl) fun s hs hn =>
        hs.setFunctionAttribute r hname.1 (hvalue.mono hn)
  | closure r =>
    have hread : Secure n (Action.gets (·.closure? r)) fun m c => ∀ c', c = some c' →
        c'.Confined m := .gets fun s hs _ c hc => hs.closures r c hc
    refine hread.bind fun m hle c hc => ?_
    split
    · exact setClosureAttribute_secure r name (hc _ rfl) (hvalue.mono hle)
    · exact refusal_secure (v := .closure r) trivial _
  | form f => exact setFormAttribute_secure f name hvalue
  | scope r => exact setScopeAttribute_secure hv hname hvalue
  | node e => exact .raise _
  | kind k => exact setKindAttribute_secure k hname.1 hvalue
  | method receiver m id => exact .raise _
  | _ => exact refusal_secure hv name

theorem AllConfined.push {items : Array Value} {value : Value} (hi : AllConfined n items.toList)
    (hvalue : value.Confined n) : AllConfined n (items.push value).toList := by
  rw [Array.toList_push]
  exact hi.append (.cons hvalue .nil)

theorem AllConfined.setIfInBounds {items : Array Value} {value : Value}
    (hi : AllConfined n items.toList) (hvalue : value.Confined n) (i : Nat) :
    AllConfined n (items.setIfInBounds i value).toList := by
  rw [Array.toList_setIfInBounds]
  intro v hv
  rcases List.mem_or_eq_of_mem_set hv with hmem | rfl
  · exact hi v hmem
  · exact hvalue

theorem setElement_secure {value : Value} (r : ListRef) (i : Int) (hvalue : value.Confined n) :
    Secure n (setElement r i value) Any := by
  refine (Secure.getList r).bind fun m hle items hi => ?_
  dsimp only
  split
  · exact .setList r (AllConfined.push hi (hvalue.mono hle))
  · split
    · exact .raise _
    · split
      · exact .setList r (AllConfined.setIfInBounds hi (hvalue.mono hle) _)
      · exact .raise _

theorem setNamed_secure {v key value : Value} (hv : v.Confined n) (hkey : key.Allowed)
    (hvalue : value.Confined n) : Secure n (setNamed v key value) Any := by
  have hread : Secure n (Action.compute (·.plain key))
      fun _ name => name ≠ "parent" ∧ name ≠ "read_only" :=
    .compute fun s _ _ name hname => Store.plain_ne_slot hkey hname
  exact hread.bind fun m hle name hname =>
    setAttribute_secure (hv.mono hle) hname (hvalue.mono hle)

theorem set_secure {v value : Value} (hv : v.Confined n) {key : Value} (hkey : key.Confined n)
    (hvalue : value.Confined n) : Secure n (set v key value) Any := by
  refine (guardKey_secure key).bind fun m hle _ hallowed => ?_
  replace hv := hv.mono hle
  replace hvalue := hvalue.mono hle
  cases v with
  | undefined | nil =>
    exact (Secure.computeAny _).seq fun _ => (Secure.computeAny _).seq fun _ => .raise _
  | dict r =>
    refine (Reads.keyOf key).secure.seq fun hash => (Secure.getDict r).bind fun k hle' d hd => ?_
    refine .update (fun _ => rfl) fun s hs hn => hs.setDict hv ?_
    exact (hd.insert (hkey.mono (Nat.le_trans hle hle')) (hvalue.mono hle')).mono hn
  | list r =>
    refine Secure.seq (Q := Any) (.ofExcept fun _ _ => trivial) fun index => ?_
    split
    · exact setElement_secure r _ hvalue
    · exact setNamed_secure hv hallowed hvalue
  | _ => exact setNamed_secure hv hallowed hvalue

theorem setPath_secure {v value : Value} {path : List Value} (hv : v.Confined n)
    (hpath : AllConfined n path) (hvalue : value.Confined n) :
    Secure n (setPath v path value) Value.Confined := by
  unfold setPath
  split
  · exact .raise _
  · rename_i last hlast
    have hkey : last.Confined n := hpath last (List.mem_of_getLast? hlast)
    refine (Reads.forM guardKey_reads path).secure.seq fun _ => ?_
    refine (getPath_secure hv _).bind fun m hle owner howner => ?_
    refine (set_secure howner (hkey.mono hle) (hvalue.mono hle)).bind fun k hle' _ _ => ?_
    exact .ret ((hvalue.mono hle).mono hle')

/-! ## Own properties -/

theorem ofItems_confined {items : List Value} (hi : AllConfined n items) :
    (ofItems items).Confined n := by
  refine Dict.confined_ofTexts fun a ha => ?_
  obtain ⟨⟨v, i⟩, hmem, rfl⟩ := List.mem_map.mp ha
  exact hi v (List.fst_mem_of_mem_zipIdx hmem)

theorem ofAttributes_confined {attrs : Attributes} (h : Attributes.Confined n attrs) :
    (ofAttributes attrs).Confined n :=
  Dict.confined_ofTexts fun a ha => (h a (List.mem_filter.mp ha).1).2

theorem ownOfFunction_secure (r : FunctionRef) :
    Secure n (Action.gets (·.function? r)) fun m cell =>
      (ofAttributes ((cell.map (·.attributes)).getD [])).Confined m := by
  refine .gets fun s hs _ => ?_
  cases hcell : s.function? r with
  | none => exact Dict.confined_empty
  | some cell => exact ofAttributes_confined (hs.functions r cell hcell).1

theorem own_secure {v : Value} (hv : v.Confined n) : Secure n (own v) Dict.Confined := by
  cases v with
  | dict r => exact .getDict r
  | list r => exact (Secure.getList r).bind fun m _ items hi => .ret (ofItems_confined hi)
  | tuple id items => exact .ret (ofItems_confined (Value.confined_tuple.mp hv))
  | str text => exact .ret (ofItems_confined (.map fun _ _ => trivial))
  | kind k => exact .ret (ofItems_confined (.map fun _ _ => trivial))
  | node e =>
    have he := Value.confined_node.mp hv
    refine .ret (Dict.confined_ofTexts fun a ha => ?_)
    simp only [List.mem_cons, List.not_mem_nil, or_false] at ha
    rcases ha with rfl | rfl | rfl
    · trivial
    · exact contentOf_confined he
    · exact lineOf_confined he
  | object r =>
    have hread : Secure n (Action.gets (·.object r)) Attributes.Confined :=
      .gets fun s hs _ => hs.objects r
    exact hread.bind fun m _ attrs hattrs => .ret (ofAttributes_confined hattrs)
  | function r => exact (ownOfFunction_secure r).bind fun m _ cell hcell => .ret hcell
  | method receiver m id =>
    cases m with
    | function r => exact (ownOfFunction_secure r).bind fun m _ cell hcell => .ret hcell
    | _ => exact .ret Dict.confined_empty
  | _ => exact .ret Dict.confined_empty

end Property

end Lisplet
