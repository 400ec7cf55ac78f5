import Lisplet.Proofs.Evaluation.Steps

/-!
# Operators and the numbers of objects

New tuples, bytes, sets and NaNs are given numbers that tell them apart from others of the same
content. Operators do not look at these numbers in what arithmetic has collected, nor at the scopes
that there are, so that they end alike in a store and in the same store with further scopes in it
(`apply_agrees`), and so do folds of them (`foldlM_agrees`).
-/

namespace Lisplet

open Lisplet.Action

/-! ## Values and stores -/

/-- The values are the same, but for the number that tells the object from others of the same
content. -/
inductive Value.Alike : Value → Value → Prop where
  | refl (v : Value) : Alike v v
  | nan (i j : Nat) : Alike (.float (.nan i)) (.float (.nan j))
  | bytes (i j : Nat) (data : List UInt8) : Alike (.bytes i data) (.bytes j data)
  | tuple (i j : Nat) (items : List Value) : Alike (.tuple i items) (.tuple j items)
  | set (i j : Nat) (items : List Value) : Alike (.set i items) (.set j items)

/-- Elements that are not there count like those that do not count. -/
theorem countP_of_getD {α : Type} {p : α → Bool} {d : α} (hd : p d = false) :
    ∀ xs ys : List α, (∀ i, xs.getD i d = ys.getD i d) → xs.countP p = ys.countP p
  | [], [], _ => rfl
  | [], y :: ys, h => by
    have hy : d = y := h 0
    rw [List.countP_cons_of_neg (by simp [← hy, hd])]
    exact countP_of_getD hd [] ys fun i => h (i + 1)
  | x :: xs, [], h => by
    have hx : x = d := h 0
    rw [List.countP_cons_of_neg (by simp [hx, hd])]
    exact countP_of_getD hd xs [] fun i => h (i + 1)
  | x :: xs, y :: ys, h => by
    have hxy : x = y := h 0
    rw [List.countP_cons, List.countP_cons, hxy, countP_of_getD hd xs ys fun i => h (i + 1)]

/-- The second store is the first one with further scopes in it, which have no variables, and has
given out other numbers. -/
structure Store.MoreScopes (s t : Store) : Prop where
  rest : { s with scopes := t.scopes, dicts := t.dicts, nextId := t.nextId } = t
  scopes : s.scopes.toList <+: t.scopes.toList
  dict : ∀ r, s.dict r = t.dict r

namespace Store.MoreScopes

variable {s t : Store}

theorem refl (s : Store) : s.MoreScopes s := ⟨rfl, List.prefix_rfl, fun _ => rfl⟩

theorem lists (h : s.MoreScopes t) : s.lists = t.lists := by
  rw [← h.rest]

theorem list (h : s.MoreScopes t) (r : ListRef) : s.list r = t.list r := by
  unfold Store.list
  rw [h.lists]

theorem formBodies (h : s.MoreScopes t) : s.formBodies = t.formBodies := by
  rw [← h.rest]

theorem addList (h : s.MoreScopes t) (items : Array Value) :
    (s.addList items).1 = (t.addList items).1 ∧
      (s.addList items).2.MoreScopes (t.addList items).2 := by
  refine ⟨?_, ?_, h.scopes, h.dict⟩
  · exact congrArg (fun lists : Array (Array Value) => ListRef.mk lists.size) h.lists
  · exact congrArg (fun u : Store => { u with lists := u.lists.push items }) h.rest

theorem number (h : s.MoreScopes t) :
    { s with nextId := s.nextId + 1 : Store }.MoreScopes { t with nextId := t.nextId + 1 } :=
  ⟨congrArg (fun u : Store => { u with nextId := t.nextId + 1 }) h.rest, h.scopes, h.dict⟩

/-- An empty scope is one more scope. -/
theorem addScope (h : s.MoreScopes t) (parent : Value) :
    s.MoreScopes (t.addScope [] parent).2 where
  rest := congrArg (fun u : Store =>
    { u with
      scopes := (t.addScope [] parent).2.scopes
      dicts := (t.addScope [] parent).2.dicts
      nextId := t.nextId + 1 }) h.rest
  scopes := by
    refine h.scopes.trans ?_
    show t.scopes.toList <+: (t.scopes.push _).toList
    rw [Array.toList_push]
    exact List.prefix_append _ _
  dict r := by
    rw [h.dict r]
    show t.dicts.getD r.index .empty = (t.dicts.push .empty).getD r.index .empty
    rw [Array.getD_eq_getD_getElem?, Array.getD_eq_getD_getElem?, Array.getElem?_push]
    split
    · next heq => rw [heq, Array.getElem?_size]; rfl
    · rfl

theorem truthy (h : s.MoreScopes t) (v : Value) : s.truthy v = t.truthy v := by
  cases v with
  | list r => exact congrArg (fun items : Array Value => !items.isEmpty) (h.list r)
  | dict r => exact congrArg (fun d : Dict => d.size != 0) (h.dict r)
  | _ => rfl

theorem equalFollowing (h : s.MoreScopes t) (follow : Value → Value → Option Bool) :
    s.equalFollowing follow = t.equalFollowing follow := by
  have hlists : s.equalLists follow = t.equalLists follow := by
    funext x y
    unfold Store.equalLists
    rw [h.list, h.list]
  have hdicts : s.equalDicts follow = t.equalDicts follow := by
    funext x y
    unfold Store.equalDicts
    rw [h.dict, h.dict]
  unfold Store.equalFollowing
  rw [hlists, hdicts]

theorem equalWithin (h : s.MoreScopes t) (fuel : Nat) : s.equalWithin fuel = t.equalWithin fuel := by
  induction fuel with
  | zero => rfl
  | succ fuel ih =>
    funext a b
    show s.equalFollowing (s.equalWithin fuel) a b = t.equalFollowing (t.equalWithin fuel) a b
    rw [ih, h.equalFollowing]

theorem filled (h : s.MoreScopes t) : s.filled = t.filled := by
  have hdicts : s.dicts.countP (·.size != 0) = t.dicts.countP (·.size != 0) := by
    rw [← Array.countP_toList, ← Array.countP_toList]
    refine countP_of_getD (d := .empty) rfl _ _ fun i => ?_
    simpa [Store.dict] using h.dict ⟨i⟩
  unfold Store.filled
  rw [h.lists, hdicts]

theorem equal (h : s.MoreScopes t) (a b : Value) : s.equal a b = t.equal a b := by
  unfold Store.equal
  rw [h.filled, h.equalWithin, h.equalFollowing]

end Store.MoreScopes

/-! ## Outcomes and actions -/

/-- The first outcome is a value to which the second one is related, or they are the same error but
for the calls that it has left, or there is neither; and the second store is the first one with
further scopes. -/
def Outcome.Agrees {α : Type} (V : α → α → Prop) : Outcome α → Outcome α → Prop
  | .done v s, .done w t => V v w ∧ s.MoreScopes t
  | .failed e s, .failed f t => e.untraced = f.untraced ∧ s.MoreScopes t
  | .exhausted, .exhausted => True
  | _, _ => False

theorem Outcome.Agrees.mono {α : Type} {V W : α → α → Prop} {o o' : Outcome α}
    (h : o.Agrees V o') (hVW : ∀ v w, V v w → W v w) : o.Agrees W o' := by
  cases o <;> cases o' <;> first
  | exact ⟨hVW _ _ h.1, h.2⟩
  | exact h

/-- What follows two actions that agree, from the stores that they leave behind. -/
theorem Outcome.Agrees.bind {α β : Type} {V : α → α → Prop} {W : β → β → Prop} {a b : Action α}
    {f g : α → Action β} {s t : Store} (h : (a s).Agrees V (b t))
    (hfg : ∀ v w s' t', a s = .done v s' → V v w → s'.MoreScopes t' →
      (f v s').Agrees W (g w t')) :
    ((a >>= f) s).Agrees W ((b >>= g) t) := by
  rw [bind_apply, bind_apply]
  cases ha : a s <;> cases hb : b t <;> rw [ha, hb] at h <;> first
  | exact hfg _ _ _ _ ha h.1 h.2
  | exact False.elim h
  | exact h

/-- The actions agree in any store and the same store with further scopes. -/
def Action.Agree {α : Type} (V : α → α → Prop) (a b : Action α) : Prop :=
  ∀ s t, s.MoreScopes t → (a s).Agrees V (b t)

namespace Action.Agree

variable {α β : Type} {V : α → α → Prop} {W : β → β → Prop} {a b : Action α}

theorem ret {v w : α} (h : V v w) : Agree V (pure v) (pure w) := fun _ _ hst => ⟨h, hst⟩

theorem exhausted : Agree V exhausted exhausted := fun _ _ _ => trivial

theorem raise (fault : Fault) : Agree V (Action.raise fault) (Action.raise fault) :=
  fun _ _ hst => ⟨rfl, hst⟩

theorem gets {f : Store → α} (h : ∀ s t, s.MoreScopes t → V (f s) (f t)) :
    Agree V (gets f) (gets f) :=
  fun s t hst => ⟨h s t hst, hst⟩

theorem within {f : Store → Option α} (h : ∀ s t : Store, s.MoreScopes t → f s = f t) :
    Agree Eq (within f) (within f) := by
  intro s t hst
  unfold Action.within
  rw [h s t hst]
  cases f t with
  | some v => exact ⟨rfl, hst⟩
  | none => trivial

theorem bind {f g : α → Action β} (h : Agree V a b) (hfg : ∀ v w, V v w → Agree W (f v) (g w)) :
    Agree W (a >>= f) (b >>= g) :=
  fun s t hst => (h s t hst).bind fun v w s' t' _ hvw hst' => hfg v w hvw s' t' hst'

/-- What follows a result that is the same on both sides. -/
theorem bind_eq {f g : α → Action β} (h : Agree Eq a b) (hfg : ∀ v, Agree W (f v) (g v)) :
    Agree W (a >>= f) (b >>= g) :=
  h.bind fun v _ heq => heq ▸ hfg v

/-! ### Values -/

theorem list (r : ListRef) : Agree Eq (Action.gets (·.list r)) (Action.gets (·.list r)) :=
  gets fun _ _ h => h.list r

theorem truthy (v : Value) : Agree Eq (Action.truthy v) (Action.truthy v) :=
  gets fun _ _ h => h.truthy v

theorem newId : Agree (fun _ _ => True) Action.newId Action.newId :=
  fun _ _ hst => ⟨trivial, hst.number⟩

theorem newList (items : Array Value) :
    Agree Value.Alike (Action.newList items) (Action.newList items) := by
  intro s t hst
  obtain ⟨href, hstores⟩ := hst.addList items
  exact ⟨congrArg Value.list href ▸ .refl _, hstores⟩

theorem newTuple (items : List Value) :
    Agree Value.Alike (Action.newTuple items) (Action.newTuple items) := by
  unfold Action.newTuple
  split
  · exact ret (.refl _)
  · exact newId.bind fun i j _ => ret (.tuple i j items)

theorem newBytes (data : List UInt8) :
    Agree Value.Alike (Action.newBytes data) (Action.newBytes data) := by
  unfold Action.newBytes
  split
  · exact ret (.refl _)
  · exact newId.bind fun i j _ => ret (.bytes i j data)

theorem newSet (items : List Value) :
    Agree Value.Alike (Action.newSet items) (Action.newSet items) :=
  newId.bind fun i j _ => ret (.set i j _)

theorem newFloat (d : Double) : Agree Value.Alike (Action.newFloat d) (Action.newFloat d) := by
  unfold Action.newFloat
  split
  · exact newId.bind fun i j _ => ret (.nan i j)
  · exact ret (.refl _)

/-- Of a NaN there is always a new one. -/
theorem newFloat_nan (i j : Nat) :
    Agree Value.Alike (Action.newFloat (.nan i)) (Action.newFloat (.nan j)) :=
  newId.bind fun i j _ => ret (.nan i j)

end Action.Agree

/-! ## Comparisons -/

namespace Comparison

theorem ofSequences_agree (c : Comparison) {rel : Value → Value → Action Bool}
    (h : ∀ a b, Agree Eq (rel a b) (rel a b)) (xs ys : List Value) :
    Agree Eq (c.ofSequences rel xs ys) (c.ofSequences rel xs ys) := by
  induction xs generalizing ys with
  | nil => exact .ret rfl
  | cons x xs ih =>
    cases ys with
    | nil => exact .ret rfl
    | cons y ys =>
      refine Agree.bind_eq (.within fun s t hst => hst.equal x y) fun equal => ?_
      cases equal with
      | true => exact ih ys
      | false => exact h x y

theorem holdsWithin_agree (c : Comparison) (fuel : Nat) (a b : Value) :
    Agree Eq (c.holdsWithin fuel a b) (c.holdsWithin fuel a b) := by
  induction fuel generalizing a b with
  | zero => exact .exhausted
  | succ fuel ih =>
    unfold holdsWithin
    split
    · split <;> exact .ret rfl
    · split
      · exact (Agree.list _).bind_eq fun _ => (Agree.list _).bind_eq fun _ =>
          c.ofSequences_agree ih _ _
      · exact c.ofSequences_agree ih _ _
      · exact .ret rfl
      · exact .ret rfl
      · split
        · exact .ret rfl
        · exact .raise _

end Comparison

/-! ## Arithmetic -/

namespace Numeric

/-- What becomes of an integer is kept opaque here, since the kernel would work it out. -/
theorem cases_double {P : Numeric → Action Double → Prop} (x : Numeric)
    {ofInt : Int → Action Double} (hfloat : ∀ d, P (.float d) (pure d))
    (hint : ∀ i, P (.int i) (ofInt i)) :
    P x (match x with
      | .float d => pure d
      | .int i => ofInt i) := by
  cases x with
  | float d => exact hfloat d
  | int i => exact hint i

theorem toDouble_of_float {x : Numeric} {d : Double} (h : x = .float d) : x.toDouble = pure d := by
  refine cases_double (P := fun x a => x = .float d → a = pure d) x (fun e he => ?_)
    (fun i hi => ?_) h
  · cases he
    rfl
  · cases hi

theorem toDouble_eq (x : Numeric) :
    (∃ d, x.toDouble = pure d) ∨ x.toDouble = .raise .tooLargeForFloat := by
  refine cases_double (P := fun _ a => (∃ d, a = pure d) ∨ a = .raise .tooLargeForFloat) x
    (fun d => .inl ⟨d, rfl⟩) fun i => ?_
  generalize Double.ofInt? i = d
  cases d with
  | some d => exact .inl ⟨d, rfl⟩
  | none => exact .inr rfl

theorem combine_nan (ints : Int → Int → Int) {doubles : Double → Double → Double}
    (hnan : ∀ i d, doubles (.nan i) d = .nan i) (i : Nat) (y : Numeric) :
    combine ints doubles (.float (.nan i)) y =
      y.toDouble >>= fun _ => Action.newFloat (.nan i) := by
  have hcombine : combine ints doubles (.float (.nan i)) y =
      (float (.nan i)).toDouble >>= fun d => y.toDouble >>= fun d' =>
        Action.newFloat (doubles d d') := by
    simp only [combine]
  rw [hcombine, toDouble_of_float rfl, pure_bind]
  exact bind_congr fun d => by rw [hnan]

theorem divide_nan (i : Nat) (y : Numeric) :
    divide (.float (.nan i)) y = y.toDouble >>= fun d =>
      if d.isZero then .raise .floatDivisionByZero else Action.newFloat (.nan i) := by
  simp only [divide, toDouble_of_float rfl, pure_bind, Double.div]

theorem toDouble_agree (x : Numeric) : Agree Eq x.toDouble x.toDouble := by
  rcases x.toDouble_eq with ⟨d, hdouble⟩ | hfault
  · rw [hdouble]
    exact .ret rfl
  · rw [hfault]
    exact .raise _

theorem combine_agree (ints : Int → Int → Int) (doubles : Double → Double → Double)
    (x y : Numeric) : Agree Value.Alike (combine ints doubles x y) (combine ints doubles x y) := by
  unfold combine
  split
  · exact .ret (.refl _)
  · exact x.toDouble_agree.bind_eq fun _ => y.toDouble_agree.bind_eq fun _ => .newFloat _

theorem combine_nan_agree (ints : Int → Int → Int) {doubles : Double → Double → Double}
    (hnan : ∀ i d, doubles (.nan i) d = .nan i) (i j : Nat) (y : Numeric) :
    Agree Value.Alike (combine ints doubles (.float (.nan i)) y)
      (combine ints doubles (.float (.nan j)) y) := by
  rw [combine_nan _ hnan, combine_nan _ hnan]
  exact y.toDouble_agree.bind_eq fun _ => .newFloat_nan i j

theorem divide_agree (x y : Numeric) : Agree Value.Alike (divide x y) (divide x y) := by
  unfold divide
  split
  · split
    · exact .raise _
    · generalize Double.ofRatio _ _ _ = quotient
      cases quotient with
      | fin neg units => exact .ret (.refl _)
      | inf neg => exact .raise _
      | nan tag => exact .raise _
  · refine x.toDouble_agree.bind_eq fun _ => y.toDouble_agree.bind_eq fun _ => ?_
    split
    · exact .raise _
    · exact .newFloat _

theorem divide_nan_agree (i j : Nat) (y : Numeric) :
    Agree Value.Alike (divide (.float (.nan i)) y) (divide (.float (.nan j)) y) := by
  rw [divide_nan, divide_nan]
  refine y.toDouble_agree.bind_eq fun d => ?_
  split
  · exact .raise _
  · exact .newFloat_nan i j

end Numeric

namespace Operator

variable {a a' : Value}

theorem repetitions_eq (length : Nat) (count : Int) :
    (∃ n, repetitions length count = pure n) ∨
      ∃ fault, repetitions length count = .raise fault := by
  unfold repetitions
  dsimp only
  split
  · split
    · exact .inl ⟨_, rfl⟩
    · exact .inr ⟨_, rfl⟩
  · split
    · exact .inr ⟨_, rfl⟩
    · split
      · exact .inr ⟨_, rfl⟩
      · exact .inl ⟨_, rfl⟩

theorem repetitions_agree (length : Nat) (count : Int) :
    Agree Eq (repetitions length count) (repetitions length count) := by
  rcases repetitions_eq length count with ⟨n, hn⟩ | ⟨fault, hfault⟩
  · rw [hn]
    exact .ret rfl
  · rw [hfault]
    exact .raise _

theorem repeated_tuple_agree (i j : Nat) (items : List Value) (count : Int) :
    Agree Value.Alike (repeated (.tuple i items) count) (repeated (.tuple j items) count) := by
  simp only [repeated]
  split
  · exact .ret (.tuple i j items)
  · exact (repetitions_agree _ _).bind_eq fun n => .newTuple _

theorem repeated_bytes_agree (i j : Nat) (data : List UInt8) (count : Int) :
    Agree Value.Alike (repeated (.bytes i data) count) (repeated (.bytes j data) count) := by
  simp only [repeated]
  refine (repetitions_agree _ _).bind_eq fun n => ?_
  split
  · exact .ret (.bytes i j data)
  · exact Agree.newId.bind fun i j _ => .ret (.bytes i j _)

theorem repeated_agree (h : a.Alike a') (count : Int) :
    Agree Value.Alike (repeated a count) (repeated a' count) := by
  cases h with
  | refl =>
    cases a with
    | tuple i items => exact repeated_tuple_agree i i items count
    | bytes i data => exact repeated_bytes_agree i i data count
    | list r =>
      exact (Agree.list r).bind_eq fun items => (repetitions_agree _ _).bind_eq fun n => .newList _
    | str text => exact (repetitions_agree _ _).bind_eq fun n => .ret (.refl _)
    | kind k => exact (repetitions_agree _ _).bind_eq fun n => .ret (.refl _)
    | _ => exact .ret (.refl _)
  | nan i j => exact .ret (.refl _)
  | bytes i j data => exact repeated_bytes_agree i j data count
  | tuple i j items => exact repeated_tuple_agree i j items count
  | set i j items => exact .ret (.refl _)

theorem sum_agree (h : a.Alike a') (b : Value) : Agree Value.Alike (sum a b) (sum a' b) := by
  cases h with
  | refl =>
    unfold sum
    split
    · exact Numeric.combine_agree _ _ _ _
    · split
      · exact (Agree.list _).bind_eq fun _ => (Agree.list _).bind_eq fun _ => .newList _
      · exact .raise _
      · split
        · exact .ret (.refl _)
        · split
          · exact .ret (.refl _)
          · exact .newTuple _
      · exact .raise _
      · split
        · exact .ret (.refl _)
        · split
          · exact .ret (.refl _)
          · exact .newBytes _
      · exact .raise _
      · split
        · exact .ret (.refl _)
        · exact .raise _
        · exact .raise _
  | nan i j =>
    cases b with
    | bool _ | int _ | float _ => exact Numeric.combine_nan_agree (· + ·) (fun _ _ => rfl) i j _
    | _ => exact .raise _
  | bytes i j data =>
    cases b with
    | bytes k ys =>
      simp only [sum, Value.numeric?]
      split
      · exact .ret (.refl _)
      · split
        · exact .ret (.bytes i j data)
        · exact .newBytes _
    | _ => exact .raise _
  | tuple i j items =>
    cases b with
    | tuple k ys =>
      simp only [sum, Value.numeric?]
      split
      · exact .ret (.refl _)
      · split
        · exact .ret (.tuple i j items)
        · exact .newTuple _
    | _ => exact .raise _
  | set i j items => exact .raise _

theorem difference_agree (h : a.Alike a') (b : Value) :
    Agree Value.Alike (difference a b) (difference a' b) := by
  cases h with
  | refl =>
    unfold difference
    split
    · exact Numeric.combine_agree _ _ _ _
    · split
      · exact .newSet _
      · exact .raise _
  | nan i j =>
    cases b with
    | bool _ | int _ | float _ => exact Numeric.combine_nan_agree (· - ·) (fun _ _ => rfl) i j _
    | _ => exact .raise _
  | set i j items =>
    cases b with
    | set k ys => exact .newSet _
    | _ => exact .raise _
  | _ => exact .raise _

theorem product_agree (h : a.Alike a') (b : Value) :
    Agree Value.Alike (product a b) (product a' b) := by
  cases h with
  | refl =>
    unfold product
    split
    · exact Numeric.combine_agree _ _ _ _
    · split
      · split
        · exact repeated_agree (.refl a) _
        · exact .raise _
      · split
        · split
          · exact repeated_agree (.refl b) _
          · exact .raise _
        · exact .raise _
  | nan i j =>
    cases b with
    | bool _ | int _ | float _ => exact Numeric.combine_nan_agree (· * ·) (fun _ _ => rfl) i j _
    | _ => exact .raise _
  | bytes i j data =>
    simp only [product, Value.numeric?, isSequence, if_true]
    split
    · exact repeated_agree (.bytes i j data) _
    · exact .raise _
  | tuple i j items =>
    simp only [product, Value.numeric?, isSequence, if_true]
    split
    · exact repeated_agree (.tuple i j items) _
    · exact .raise _
  | set i j items => cases b <;> exact .raise _

theorem quotient_agree (h : a.Alike a') (b : Value) :
    Agree Value.Alike (quotient a b) (quotient a' b) := by
  cases h with
  | refl =>
    unfold quotient
    split
    · exact Numeric.divide_agree _ _
    · exact .raise _
  | nan i j =>
    cases b with
    | bool _ | int _ | float _ => exact Numeric.divide_nan_agree i j _
    | _ => exact .raise _
  | _ => exact .raise _

/-! ## Operators -/

/-- The operator computes with numbers and joins and repeats sequences. -/
def isArithmetic : Operator → Bool
  | .add | .sub | .mul | .div => true
  | _ => false

/-- What the operator has collected is the same, where arithmetic may give objects other numbers. -/
def Same (op : Operator) (v w : Value) : Prop := v = w ∨ op.isArithmetic = true ∧ v.Alike w

theorem Same.alike {op : Operator} {v w : Value} (h : op.Same v w) : v.Alike w := by
  rcases h with rfl | ⟨_, h⟩
  · exact .refl _
  · exact h

/-- One step of an operator, from what has been collected and the next operand. -/
theorem apply_agree {op : Operator} (h : op.Same a a') (b : Value) :
    Agree op.Same (op.apply a b) (op.apply a' b) := by
  have harithmetic : ∀ {f g : Action Value}, op.isArithmetic = true → Agree Value.Alike f g →
      Agree op.Same f g :=
    fun hop hfg s t hst => (hfg s t hst).mono fun v w hvw => .inr ⟨hop, hvw⟩
  -- Only arithmetic makes new objects. What the others have collected is the very same value on
  -- both sides, so that they may look at its number, as equality does.
  by_cases hop : op.isArithmetic = true
  · refine harithmetic hop ?_
    have halike := h.alike
    cases op with
    | add => exact sum_agree halike b
    | sub => exact difference_agree halike b
    | mul => exact product_agree halike b
    | div => exact quotient_agree halike b
    | _ => cases hop
  · obtain rfl : a = a' := h.resolve_right fun h => hop h.1
    have hcompare : ∀ c : Comparison, Agree op.Same (do return .bool (← c.holds a b))
        (do return .bool (← c.holds a b)) :=
      fun c => (c.holdsWithin_agree _ a b).bind_eq fun _ => .ret (.inl rfl)
    cases op with
    | add | sub | mul | div => exact absurd rfl hop
    | equal | notEqual | coalesce => exact .ret (.inl rfl)
    | less => exact hcompare .less
    | greater => exact hcompare .greater
    | atMost => exact hcompare .atMost
    | atLeast => exact hcompare .atLeast
    | both | either =>
      refine (Agree.truthy a).bind_eq fun truth => ?_
      cases truth <;> exact .ret (.inl rfl)

end Operator

end Lisplet
