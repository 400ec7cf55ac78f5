import Lisplet.Method.Set
import Lisplet.Proofs.Isolation.Scalars

/-!
# Methods of lists, tuples and sets

These methods move values around: what is in a collection afterwards was in it before, is among the
arguments or is an element of one of them. A sort that fails leaves the values in another order.
-/

namespace Lisplet

open Lisplet.Action Arguments

variable {n : Nat}

/-! ## Arguments by name -/

/-- What is given for the parameters and beyond them is confined. -/
def Arguments.Confined (n : Nat) (given : Arguments) : Prop :=
  (∀ o ∈ given.params, OptionConfined n o) ∧ AllConfined n given.others

instance : Upward Arguments.Confined :=
  ⟨fun h hle => ⟨fun o ho => Upward.mono (h.1 o ho) hle, h.2.mono hle⟩⟩

theorem Signature.assign_confined (sig : Signature) {named : List (String × Value)}
    {slots filled : List (String × Option Value)} (hnamed : ∀ a ∈ named, a.2.Confined n)
    (hslots : ∀ a ∈ slots, OptionConfined n a.2) (h : sig.assign slots named = .ok filled) :
    ∀ a ∈ filled, OptionConfined n a.2 := by
  induction named generalizing slots with
  | nil =>
    cases h
    exact hslots
  | cons pair rest ih =>
    obtain ⟨name, v⟩ := pair
    unfold Signature.assign at h
    split at h
    · cases h
    · cases h
    · refine ih (fun a ha => hnamed a (List.mem_cons_of_mem _ ha)) (fun a ha => ?_) h
      obtain ⟨slot, hslot, rfl⟩ := List.mem_map.mp ha
      split
      · exact .some (hnamed (name, v) List.mem_cons_self)
      · exact hslots slot hslot

theorem Signature.slots_confined (sig : Signature) {args : List Value} (hargs : AllConfined n args) :
    ∀ a ∈ sig.params.zipIdx.map fun (name, i) => (name, args[i]?), OptionConfined n a.2 := by
  intro a ha
  obtain ⟨⟨name, i⟩, _, rfl⟩ := List.mem_map.mp ha
  exact fun v hv => hargs.getElem? hv

theorem Signature.bind_confined (sig : Signature) {args : List Value}
    {named : List (String × Value)} {given : Arguments} (hargs : AllConfined n args)
    (hnamed : ∀ a ∈ named, a.2.Confined n) (h : sig.bind args named = .ok given) :
    given.Confined n := by
  have hslots := sig.slots_confined hargs
  unfold Signature.bind at h
  cases hfilled : sig.assign (sig.params.zipIdx.map fun (name, i) => (name, args[i]?)) named with
  | error fault =>
    rw [hfilled] at h
    cases h
  | ok filled =>
    rw [hfilled] at h
    change (if _ then _ else _) = Except.ok given at h
    split at h
    · cases h
    · split at h
      · cases h
      · cases h
        refine ⟨fun o ho => ?_, hargs.drop _⟩
        obtain ⟨slot, hslot, rfl⟩ := List.mem_map.mp ho
        exact sig.assign_confined hnamed hslots hfilled slot hslot

/-! ## Sorting -/

namespace Sorting

theorem onFailure_secure {α : Type} {Q : Nat → α → Prop} {a : Action α} {change : Store → Store}
    (ha : Secure n a Q) (hscopes : ∀ s, (change s).scopes = s.scopes)
    (hchange : ∀ s : Store, s.Sealed → n ≤ s.scopes.size → (change s).Sealed) :
    Secure n (onFailure change a) Q := by
  intro s hs hn
  have hend := ha s hs hn
  unfold onFailure
  cases hout : a s with
  | done v t =>
    rw [hout] at hend
    exact hend
  | failed e t =>
    rw [hout] at hend
    obtain ⟨ht, hext⟩ := hend
    refine ⟨hchange t ht (Nat.le_trans hn hext.size_le), ?_⟩
    exact hext.trans (.of_scopes_eq (hscopes t))
  | exhausted => trivial

theorem firstRun_secure {items : List Value} (h : AllConfined n items) :
    Secure n (firstRun items) fun m parts => AllConfined m parts.1 ∧ AllConfined m parts.2 := by
  have hup : Upward fun m (parts : List Value × List Value) =>
      AllConfined m parts.1 ∧ AllConfined m parts.2 :=
    ⟨fun hparts hle => ⟨hparts.1.mono hle, hparts.2.mono hle⟩⟩
  unfold firstRun
  split
  · refine (Comparison.holds_reads _ _ _).secure.seq fun descending => ?_
    refine (runLength_reads _ _ _).secure.seq fun length => .ret ⟨?_, h.drop _⟩
    split
    · exact (h.take _).of_subset (List.reverse_subset.mpr (List.Subset.refl _))
    · exact h.take _
  · exact .ret ⟨h, .nil⟩

theorem insertAll_secure (r : ListRef) {sorted : Array Value} {items : List Value}
    (hsorted : AllConfined n sorted.toList) (hi : AllConfined n items) :
    Secure n (insertAll r sorted items) fun m result => AllConfined m result.toList := by
  have hup : Upward fun m (result : Array Value) => AllConfined m result.toList :=
    ⟨fun h hle => h.mono hle⟩
  induction items generalizing n sorted with
  | nil => exact .ret hsorted
  | cons pivot rest ih =>
    have hall : AllConfined n (sorted ++ (pivot :: rest).toArray).toList := by
      simpa using hsorted.append hi
    have hplace : Secure n (onFailure (·.setList r (sorted ++ (pivot :: rest).toArray))
        (place pivot sorted sorted.size 0 sorted.size)) Any :=
      onFailure_secure (place_reads _ _ _ _ _).secure (fun _ => rfl) fun s hs hn =>
        hs.setList r (hall.mono hn)
    refine hplace.bind fun m hle i _ => ih ?_ (hi.tail.mono hle)
    exact ((hsorted.take i).append (.cons hi.head (hsorted.drop i))).mono hle

theorem sort_secure (r : ListRef) : Secure n (sort r) Any := by
  refine (Secure.getList r).bind fun m _ items hi => ?_
  refine (firstRun_secure hi).bind fun k _ parts hparts => ?_
  exact (insertAll_secure r hparts.1 hparts.2).bind fun _ _ sorted hsorted => .setList r hsorted

end Sorting

/-! ## Lists and tuples -/

theorem TupleMethod.call_secure (m : TupleMethod) (items args : List Value) :
    Secure n (m.call items args) Value.Confined := by
  cases m with
  | count =>
    refine (Arity.check_reads _ _).secure.seq fun _ => ?_
    split
    · exact (countIn_reads _ _).secure.seq fun _ => .ret trivial
    · exact .raise _
  | index =>
    refine (indexWithin_reads items args).secure.seq fun found => ?_
    split
    · exact .ret trivial
    · exact .raise _

namespace ListMethod

theorem become_secure (r : ListRef) {items : List Value} (h : AllConfined n items) :
    Secure n (become r items) Value.Confined := (Secure.setList r h).seq fun _ => .ret trivial

theorem without_confined {items : List Value} (h : AllConfined n items) (i : Nat) :
    AllConfined n (without items i) := (h.take i).append (h.drop (i + 1))

theorem popAt_secure (r : ListRef) {items : List Value} (h : AllConfined n items) (i : Int) :
    Secure n (popAt r items i) Value.Confined := by
  unfold popAt
  split
  · exact .raise _
  · split
    · exact (Secure.setList r (without_confined h _)).seq fun _ => .ret (h.getD _ trivial)
    · exact .raise _

theorem call_secure (m : ListMethod) (r : ListRef) {args : List Value} (hargs : AllConfined n args) :
    Secure n (m.call r args) Value.Confined := by
  refine (Arity.check_reads _ _).secure.seq fun _ => ?_
  refine (Secure.getList r).bind fun k hle items hi => ?_
  replace hargs := hargs.mono hle
  dsimp only
  split
  · exact become_secure r (hi.append (.cons hargs.head .nil))
  · exact become_secure r .nil
  · exact .newList hi
  · exact (countIn_reads _ _).secure.seq fun _ => .ret trivial
  · exact (Secure.elements hargs.head).bind fun _ hle' more hmore =>
      become_secure r ((hi.mono hle').append hmore)
  · refine (indexWithin_reads _ _).secure.seq fun found => ?_
    split
    · exact .ret trivial
    · exact (Secure.computeAny _).seq fun _ => .raise _
  · refine (size_reads _).secure.seq fun i => become_secure r ?_
    exact (hi.take _).append (.cons hargs.tail.head (hi.drop _))
  · exact popAt_secure r hi _
  · exact (size_reads _).secure.seq fun _ => popAt_secure r hi _
  · refine (indexFrom_reads _ _ _ _).secure.seq fun found => ?_
    split
    · exact become_secure r (without_confined hi _)
    · exact .raise _
  · exact become_secure r (hi.of_subset (List.reverse_subset.mpr (List.Subset.refl _)))
  · exact (Sorting.sort_secure r).seq fun _ => .ret trivial
  · exact .raise _
  · exact .raise _

end ListMethod

/-! ## Sets -/

namespace SetMethod

theorem inserted_secure {items more : List Value} (hi : AllConfined n items)
    (hm : AllConfined n more) : Secure n (inserted items more) AllConfined := by
  induction more generalizing items with
  | nil =>
    unfold inserted
    exact .ret hi
  | cons v rest ih =>
    unfold inserted
    refine (Reads.keyAmong _ _).secure.seq fun found => ?_
    split
    · exact ih hi hm.tail
    · exact ih (hi.append (.cons hm.head .nil)) hm.tail

theorem distinct_secure {v : Value} (hv : v.Confined n) : Secure n (distinct v) AllConfined :=
  (Secure.elements hv).bind fun _ _ _ hitems => inserted_secure .nil hitems

theorem common_secure (items : List Value) {others : List Value} (h : AllConfined n others) :
    Secure n (common items others) AllConfined := by
  induction others with
  | nil => exact .ret .nil
  | cons v rest ih =>
    refine (Reads.keyAmong _ _).secure.seq fun found => ?_
    split
    · exact (ih h.tail).bind fun _ hle _ hrest => .ret (.cons (h.head.mono hle) hrest)
    · exact ih h.tail

theorem allTaken_secure (source : Value) {test : Value → Action Bool} {items : List Value}
    (htest : ∀ v, Secure n (test v) Any) (h : AllConfined n items) :
    Secure n (allTaken source test items) Any := by
  induction items with
  | nil => exact .retAny _
  | cons v rest ih =>
    have hrest : Secure n (do if ← test v then allTaken source test rest else return false)
        Any := by
      refine (htest v).seq fun passed => ?_
      split
      · exact ih h.tail
      · exact .retAny _
    unfold allTaken
    dsimp only
    split
    · exact (Secure.setIterator _ h.tail).seq fun _ => hrest
    · exact hrest

theorem unionWith_secure {items args : List Value} (hi : AllConfined n items)
    (hargs : AllConfined n args) : Secure n (unionWith items args) AllConfined := by
  induction args generalizing n items with
  | nil =>
    unfold unionWith
    exact .ret hi
  | cons v rest ih =>
    unfold unionWith
    refine (Secure.elements hargs.head).bind fun m hle more hmore => ?_
    refine (inserted_secure (hi.mono hle) hmore).bind fun k hle' all hall => ?_
    exact ih hall (hargs.tail.mono (Nat.le_trans hle hle'))

theorem intersectionWith_secure {items args : List Value} (hi : AllConfined n items)
    (hargs : AllConfined n args) : Secure n (intersectionWith items args) AllConfined := by
  induction args generalizing n items with
  | nil =>
    unfold intersectionWith
    exact .ret hi
  | cons v rest ih =>
    unfold intersectionWith
    refine (distinct_secure hargs.head).bind fun m hle others hothers => ?_
    refine (common_secure items hothers).bind fun k hle' both hboth => ?_
    exact ih hboth (hargs.tail.mono (Nat.le_trans hle hle'))

theorem differenceWith_secure {items args : List Value} (hi : AllConfined n items)
    (hargs : AllConfined n args) : Secure n (differenceWith items args) AllConfined := by
  induction args generalizing n items with
  | nil =>
    unfold differenceWith
    exact .ret hi
  | cons v rest ih =>
    unfold differenceWith
    refine (distinct_secure hargs.head).bind fun m hle others _ => ?_
    exact ih ((hi.mono hle).of_subset (Operator.without_subset _ _)) (hargs.tail.mono hle)

theorem call_secure (m : SetMethod) {receiver : Value} {items args : List Value}
    (hr : receiver.Confined n) (hi : AllConfined n items) (hargs : AllConfined n args) :
    Secure n (m.call receiver items args) Value.Confined := by
  have hother : (args.getD 0 .nil).Confined n := hargs.getD 0 trivial
  have hread : Secure n (Action.compute (·.elements (args.getD 0 .nil))) AllConfined :=
    .compute fun s hs hn items hitems => hs.elements (hother.mono hn) hitems
  cases m with
  | copy => exact (Arity.check_reads _ _).secure.seq fun _ => .ret hr
  | isDisjoint =>
    refine (Arity.check_reads _ _).secure.seq fun _ => hread.bind fun k hle others hothers => ?_
    have htest : ∀ v, Secure k (do return !(← Action.keyAmong v items)) Any :=
      fun v => (Reads.keyAmong v items).secure.seq fun _ => .retAny _
    exact (allTaken_secure _ htest hothers).seq fun _ => .ret trivial
  | isSuperset =>
    refine (Arity.check_reads _ _).secure.seq fun _ => hread.bind fun k hle others hothers => ?_
    have htest : ∀ v, Secure k (Action.keyAmong v items) Any :=
      fun v => (Reads.keyAmong v items).secure
    exact (allTaken_secure _ htest hothers).seq fun _ => .ret trivial
  | isSubset =>
    exact (Arity.check_reads _ _).secure.seq fun _ =>
      (distinct_secure hother).seq fun _ => .ret trivial
  | symmetricDifference =>
    refine (Arity.check_reads _ _).secure.seq fun _ => ?_
    refine (distinct_secure hother).bind fun k hle others ho => ?_
    have hleft := (hi.mono hle).of_subset (Operator.without_subset items others)
    exact .newSet (hleft.append (ho.of_subset (Operator.without_subset others items)))
  | union => exact (unionWith_secure hi hargs).bind fun _ _ _ h => .newSet h
  | intersection => exact (intersectionWith_secure hi hargs).bind fun _ _ _ h => .newSet h
  | difference => exact (differenceWith_secure hi hargs).bind fun _ _ _ h => .newSet h

end SetMethod

end Lisplet
