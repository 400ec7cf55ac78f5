import Lisplet.Proofs.Isolation.Secure
import Lisplet.Proofs.Operator.Reading

/-!
# Values that are made and looked through

Making a value from confined ones, going through its elements and asking what it contains is secure.
What is found in a container is confined, also in the dictionary of the core scope, since that holds
nothing but forms.
-/

namespace Lisplet.Action

variable {α β : Type} {n : Nat}

namespace Secure

/-- What comes second does not depend on what the first part gives. -/
theorem seq {Q : Nat → α → Prop} {R : Nat → β → Prop} {a : Action α} {f : α → Action β}
    (ha : Secure n a Q) (hf : ∀ v, Secure n (f v) R) : Secure n (a >>= f) R :=
  ha.bind fun _ hle v _ => (hf v).mono hle

/-- The same is done with all items of a list. -/
theorem mapM {Q : Nat → β → Prop} [Upward Q] {f : α → Action β} (hf : ∀ a, Secure n (f a) Q)
    (items : List α) : Secure n (items.mapM f) fun m results => ∀ b ∈ results, Q m b := by
  have hup : Upward fun m (results : List β) => ∀ b ∈ results, Q m b :=
    ⟨fun h hle b hb => Upward.mono (h b hb) hle⟩
  induction items with
  | nil =>
    rw [List.mapM_nil]
    exact .ret fun b hb => by cases hb
  | cons a items ih =>
    rw [List.mapM_cons]
    refine (hf a).bind fun m hle b hb => (ih.mono hle).bind fun k hle' rest hrest => .ret ?_
    exact List.forall_mem_cons.mpr ⟨Upward.mono hb hle', hrest⟩

theorem retAny (a : α) : Secure n (pure a) Any := ret trivial

theorem discard {Q : Nat → α → Prop} {a : Action α} (ha : Secure n a Q) :
    Secure n (discard a) Any := ha.seq fun _ => retAny _

/-! ## Making values -/

theorem newId : Secure n Action.newId Any :=
  .make (fun _ => rfl) fun _ hs _ => ⟨{ hs with }, trivial⟩

theorem newList {items : Array Value} (h : AllConfined n items.toList) :
    Secure n (Action.newList items) Value.Confined := by
  refine Secure.seq (Q := Any) (.make (fun _ => rfl) fun s hs hn => ?_) fun _ => .ret trivial
  exact ⟨hs.addList (h.mono hn), trivial⟩

theorem newTuple {items : List Value} (h : AllConfined n items) :
    Secure n (Action.newTuple items) Value.Confined := by
  unfold Action.newTuple
  split
  · exact .ret (Value.confined_tuple.mpr .nil)
  · exact newId.seq fun _ => .ret (Value.confined_tuple.mpr h)

theorem newBytes (data : List UInt8) : Secure n (Action.newBytes data) Value.Confined := by
  unfold Action.newBytes
  split
  · exact .ret trivial
  · exact newId.seq fun _ => .ret trivial

theorem copiedBytes (data : List UInt8) : Secure n (Action.copiedBytes data) Value.Confined := by
  unfold Action.copiedBytes
  split
  · exact .ret trivial
  · exact .newBytes data

theorem newSet {items : List Value} (h : AllConfined n items) :
    Secure n (Action.newSet items) Value.Confined := by
  have horder : Value.setOrder items ⊆ items := by
    unfold Value.setOrder
    split
    · exact List.Subset.refl _
    · intro v hv
      obtain ⟨pair, hpair, rfl⟩ := List.mem_map.mp hv
      exact (List.of_mem_zip (List.mem_mergeSort.mp hpair)).2
  exact newId.seq fun _ => .ret (Value.confined_set.mpr (h.of_subset horder))

theorem newDict {d : Dict} (h : d.Confined n) : Secure n (Action.newDict d) Value.Confined := by
  refine Secure.bind (Q := fun _ (r : DictRef) => r.index ≠ 0) (.make (fun _ => rfl) fun s hs hn => ?_)
    fun _ _ _ hr => .ret hr
  exact ⟨hs.addDict (h.mono hn), hs.addDict_ref d⟩

theorem newFunction {code : FunctionCode} (h : code.Confined n) :
    Secure n (Action.newFunction code) Value.Confined := by
  refine Secure.seq (Q := Any) (.make (fun _ => rfl) fun s hs hn => ?_) fun _ => .ret trivial
  exact ⟨hs.addFunction (h.mono hn), trivial⟩

theorem theFunction {code : FunctionCode} (h : code.Confined n) :
    Secure n (Action.theFunction code) Value.Confined := by
  refine Secure.seq (Q := Any) (.make (fun s => ?_) fun s hs hn => ?_) fun _ => .ret trivial
  · unfold Store.uniqueFunction
    split <;> rfl
  · exact ⟨hs.uniqueFunction (h.mono hn), trivial⟩

theorem newMethod {receiver : Value} (h : receiver.Confined n) (m : Method) :
    Secure n (Action.newMethod receiver m) Value.Confined :=
  newId.seq fun _ => .ret (Value.confined_method.mpr h)

theorem newFloat (d : Double) : Secure n (Action.newFloat d) Value.Confined := by
  unfold Action.newFloat
  split
  · exact newId.seq fun _ => .ret trivial
  · exact .ret trivial

theorem write (text : String) : Secure n (Action.write text) Any :=
  .update (fun _ => rfl) fun _ hs _ => { hs with }

theorem getAny (f : Store → α) : Secure n (Action.gets f) Any := .gets fun _ _ _ => trivial

theorem computeAny (f : Store → Except Fault α) : Secure n (Action.compute f) Any :=
  .compute fun _ _ _ _ _ => trivial

/-! ## Containers -/

theorem getList (r : ListRef) :
    Secure n (Action.gets (·.list r)) fun m items => AllConfined m items.toList :=
  .gets fun _ hs _ => hs.lists r

theorem getDict (r : DictRef) : Secure n (Action.gets (·.dict r)) Dict.Confined :=
  .gets fun _ hs _ => hs.dicts r

theorem getIterator (r : IteratorRef) : Secure n (Action.gets (·.iterator r)) AllConfined :=
  .gets fun _ hs _ => hs.iterators r

theorem setList {items : Array Value} (r : ListRef) (h : AllConfined n items.toList) :
    Secure n (Action.update (·.setList r items)) Any :=
  .update (fun _ => rfl) fun _ hs hn => hs.setList r (h.mono hn)

theorem setIterator {items : List Value} (r : IteratorRef) (h : AllConfined n items) :
    Secure n (Action.update (·.setIterator r items)) Any :=
  .update (fun _ => rfl) fun _ hs hn => hs.setIterator r (h.mono hn)

theorem elements {v : Value} (hv : v.Confined n) : Secure n (Action.elements v) AllConfined := by
  have hread : Secure n (Action.compute (·.elements v)) AllConfined :=
    .compute fun s hs hn items hi => hs.elements (hv.mono hn) hi
  refine hread.bind fun m _ items hi => ?_
  dsimp only
  split
  · exact (Secure.setIterator _ .nil).seq fun _ => .ret hi
  · exact .ret hi

theorem anyTaken (r : IteratorRef) (value : Value) {items : List Value} (h : AllConfined n items) :
    Secure n (Action.anyTaken r value items) Any := by
  induction items with
  | nil => exact retAny _
  | cons v rest ih =>
    refine (Secure.setIterator r h.tail).seq fun _ => (Reads.within _).secure.seq fun found => ?_
    split
    · exact retAny _
    · exact ih h.tail

/-- Whatever the container is, asking what it contains changes at most an iterator. -/
theorem contains (container value : Value) : Secure n (Action.contains container value) Any := by
  unfold Action.contains
  split
  · exact (getList _).seq fun _ => (Reads.anyEqual _ _).secure
  · exact (Reads.anyEqual _ _).secure
  · exact (Reads.keyOf value).secure.seq fun _ => (getDict _).seq fun _ => retAny _
  · exact (Reads.keyAmong _ _).secure
  · exact (Reads.containsBytes _ _).secure
  · exact (getIterator _).bind fun _ _ _ hi => anyTaken _ _ hi
  · split
    · exact (Reads.containsText _ _).secure
    · exact raise _

theorem atPosition {name complaint : String} {items : List Value} (key : Value)
    (h : AllConfined n items) :
    Secure n (Action.atPosition name complaint items key) Value.Confined := by
  unfold Action.atPosition
  split
  · exact raise _
  · dsimp only
    split
    · exact raise _
    · split
      · rename_i item hitem
        obtain ⟨i, _, hi⟩ := Option.bind_eq_some_iff.mp hitem
        exact .ret (h.getElem? hi)
      · exact raise _

theorem noPositions (v : Value) {Q : Nat → α → Prop} : Secure n (Action.noPositions v) Q := by
  unfold Action.noPositions
  split <;> exact raise _

end Secure

end Lisplet.Action

namespace Lisplet

/-- What may hold the variables of a scope: the dictionary of the core scope, or a confined value. -/
def Value.Held (n : Nat) (v : Value) : Prop := v = .dict ⟨0⟩ ∨ v.Confined n

instance : Upward Value.Held := ⟨fun h hle => h.imp id (·.mono hle)⟩

namespace Action.Secure

variable {n : Nat}

theorem subscript {container : Value} (key : Value) (h : container.Held n) :
    Secure n (Action.subscript container key) Value.Confined := by
  unfold Action.subscript
  dsimp only
  split
  · exact (getList _).bind fun _ _ _ hi => atPosition _ hi
  · rcases h with h | h
    · cases h
    · exact atPosition _ (Value.confined_tuple.mp h)
  · exact atPosition _ (.map fun _ _ => trivial)
  · refine (getDict _).bind fun m _ d hd => (Reads.keyOf key).secure.bind fun k hle hash _ => ?_
    split
    · exact .ret ((hd.get? ‹_›).mono hle)
    · exact raise _
  · split
    · exact atPosition _ (.map fun _ _ => trivial)
    · exact noPositions _

end Action.Secure

/-! ## Operators -/

open Lisplet.Action

namespace Numeric

variable {n : Nat}

theorem combine_secure (ints : Int → Int → Int) (doubles : Double → Double → Double)
    (x y : Numeric) : Secure n (combine ints doubles x y) Value.Confined := by
  unfold combine
  split
  · exact .ret trivial
  · exact (toDouble_reads _).secure.seq fun _ => (toDouble_reads _).secure.seq fun _ => .newFloat _

theorem divide_secure (x y : Numeric) : Secure n (divide x y) Value.Confined := by
  unfold divide
  split
  · split
    · exact .raise _
    · generalize Double.ofRatio _ _ _ = quotient
      cases quotient with
      | fin neg units => exact .ret trivial
      | inf neg => exact .raise _
      | nan tag => exact .raise _
  · refine (toDouble_reads _).secure.seq fun _ => (toDouble_reads _).secure.seq fun _ => ?_
    split
    · exact .raise _
    · exact .newFloat _

end Numeric

namespace Operator

variable {n : Nat}

theorem AllConfined.repeated {items : List Value} (h : AllConfined n items) (k : Nat) :
    AllConfined n (List.replicate k items).flatten := by
  intro v hv
  obtain ⟨xs, hxs, hmem⟩ := List.mem_flatten.mp hv
  rw [List.eq_of_mem_replicate hxs] at hmem
  exact h v hmem

theorem repeated_secure {sequence : Value} (count : Int) (h : sequence.Confined n) :
    Secure n (repeated sequence count) Value.Confined := by
  unfold repeated
  split
  · refine (Secure.getList _).bind fun m _ items hi => ?_
    refine (repetitions_reads _ _).secure.seq fun k => ?_
    exact .newList (by simpa using AllConfined.repeated hi k)
  · split
    · exact .ret h
    · refine (repetitions_reads _ _).secure.seq fun k => .newTuple ?_
      exact AllConfined.repeated (Value.confined_tuple.mp h) k
  · refine (repetitions_reads _ _).secure.seq fun k => ?_
    split
    · exact .ret h
    · exact Secure.newId.seq fun _ => .ret trivial
  · split
    · exact (repetitions_reads _ _).secure.seq fun k => .ret trivial
    · exact .ret trivial

theorem sum_secure {a b : Value} (ha : a.Confined n) (hb : b.Confined n) :
    Secure n (sum a b) Value.Confined := by
  unfold sum
  split
  · exact Numeric.combine_secure _ _ _ _
  · split
    · refine (Secure.getList _).bind fun m _ xs hx => (Secure.getList _).bind fun k hle ys hy => ?_
      exact .newList (by simpa using (hx.mono hle).append hy)
    · exact .raise _
    · split
      · exact .ret hb
      · split
        · exact .ret ha
        · exact .newTuple ((Value.confined_tuple.mp ha).append (Value.confined_tuple.mp hb))
    · exact .raise _
    · split
      · exact .ret hb
      · split
        · exact .ret ha
        · exact .newBytes _
    · exact .raise _
    · split
      · exact .ret trivial
      · exact .raise _
      · exact .raise _

theorem without_subset (items others : List Value) : without items others ⊆ items :=
  fun _ hv => (List.mem_filter.mp hv).1

theorem difference_secure {a b : Value} (ha : a.Confined n) :
    Secure n (difference a b) Value.Confined := by
  unfold difference
  split
  · exact Numeric.combine_secure _ _ _ _
  · split
    · exact .newSet ((Value.confined_set.mp ha).of_subset (without_subset _ _))
    · exact .raise _

theorem product_secure {a b : Value} (ha : a.Confined n) (hb : b.Confined n) :
    Secure n (product a b) Value.Confined := by
  unfold product
  split
  · exact Numeric.combine_secure _ _ _ _
  · split
    · split
      · exact repeated_secure _ ha
      · exact .raise _
    · split
      · split
        · exact repeated_secure _ hb
        · exact .raise _
      · exact .raise _

theorem quotient_secure (a b : Value) : Secure n (quotient a b) Value.Confined := by
  unfold quotient
  split
  · exact Numeric.divide_secure _ _
  · exact .raise _

theorem apply_secure (op : Operator) {a b : Value} (ha : a.Confined n) (hb : b.Confined n) :
    Secure n (op.apply a b) Value.Confined := by
  cases op with
  | add => exact sum_secure ha hb
  | sub => exact difference_secure ha
  | mul => exact product_secure ha hb
  | div => exact quotient_secure a b
  | equal | notEqual => exact .ret trivial
  | less | greater | atMost | atLeast =>
    exact (Comparison.holds_reads _ a b).secure.seq fun _ => .ret trivial
  | both =>
    refine (Reads.truthy a).secure.seq fun truth => ?_
    split
    · exact .ret hb
    · exact .ret ha
  | either =>
    refine (Reads.truthy a).secure.seq fun truth => ?_
    split
    · exact .ret ha
    · exact .ret hb
  | coalesce =>
    refine .ret ?_
    split
    · exact hb
    · exact ha

end Operator

end Lisplet
