import Lisplet.Operator
import Mathlib.Algebra.Order.Field.Rat
import Mathlib.Order.WithBot
import Mathlib.Tactic.NormNum

/-!
# Equality as an equivalence

The equality of scripts compares truth values with truth values only, numbers by their places on the
number line, texts by their characters and all else by identity. So every value has one aspect that
it is compared by (`Value.aspect?`), apart from NaN, which has none, and values are equal if they
have the same aspect. From that follow the laws of an equivalence. Integers and doubles are given
their exact places, so that they are equal if they denote the same rational number.

Main statement: `strictEquals_spec`.
-/

namespace Lisplet

open Extent (unitsPerOne)

/-! ## Places -/

/-- The line of rational numbers with its two ends. -/
abbrev RationalLine := WithBot (WithTop ℚ)

/-- A rational number as a point of the line. -/
def RationalLine.at (q : ℚ) : RationalLine := ((q : WithTop ℚ) : WithBot (WithTop ℚ))

theorem RationalLine.at_inj {p q : ℚ} : RationalLine.at p = .at q ↔ p = q := by
  unfold RationalLine.at
  rw [WithBot.coe_inj, WithTop.coe_inj]

namespace Extent

theorem unitsPerOne_pos : 0 < unitsPerOne := by
  unfold unitsPerOne
  generalize 1074 = n
  exact Nat.pow_pos Nat.two_pos

theorem unitsPerOne_ne_zero : (unitsPerOne : ℚ) ≠ 0 :=
  Nat.cast_ne_zero.mpr unitsPerOne_pos.ne'

theorem ofInt_inj {i j : Int} : ofInt i = ofInt j ↔ i = j := by
  have hunits : (unitsPerOne : Int) ≠ 0 := Int.natCast_ne_zero.mpr unitsPerOne_pos.ne'
  unfold ofInt
  rw [Extent.at.injEq, Int.mul_eq_mul_right_iff hunits]

/-- The point of the line at a place. -/
def point : Extent → RationalLine
  | .minusInf => ⊥
  | .at units => .at (units / unitsPerOne)
  | .plusInf => ⊤

theorem point_injective : Function.Injective point
  | .minusInf, .minusInf, _ => rfl
  | .at a, .at b, h => by
    rw [point, point, RationalLine.at_inj, div_left_inj' unitsPerOne_ne_zero, Int.cast_inj] at h
    rw [h]
  | .plusInf, .plusInf, _ => rfl

theorem point_ofInt (i : Int) : (ofInt i).point = .at i := by
  rw [ofInt, point, Int.cast_mul, Int.cast_natCast, mul_div_cancel_right₀ _ unitsPerOne_ne_zero]

end Extent

/-! ## Aspects -/

namespace Value

/-- What identity tells about a value: its type, and what stands for the object. -/
def outline : Value → Value
  | .tuple id _ => .tuple id []
  | .set id _ => .set id []
  | .node n => .node (.host .undefined .undefined n.serial)
  | .method _ _ id => .method .undefined .wrap id
  | v => v

/-- What a value is compared by. -/
inductive Aspect where
  | truth (b : Bool)
  | number (place : Extent)
  | text (t : String)
  | identity (outline : Value)

/-- What the equality of scripts compares a value by. There is nothing that NaN is equal to. -/
def aspect? : Value → Option Aspect
  | .bool b => some (.truth b)
  | .int i => some (.number (Extent.ofInt i))
  | .float d => d.extent?.map .number
  | .str t => some (.text t)
  | .kind k => some (.text k.name)
  | v => some (.identity v.outline)

variable {v w : Value}

theorem aspect?_eq_none_iff : v.aspect? = none ↔ ∃ tag, v = .float (.nan tag) := by
  cases v with
  | float d =>
    cases d with
    | nan tag => simp [aspect?, Double.extent?]
    | inf neg => cases neg <;> simp [aspect?, Double.extent?]
    | fin neg units => cases neg <;> simp [aspect?, Double.extent?]
  | _ => simp [aspect?]

/-- Values are equal if there is something to compare them by and it is the same. -/
theorem strictEquals_iff :
    v.strictEquals w = true ↔ v.aspect? ≠ none ∧ v.aspect? = w.aspect? := by
  have hnumber : Function.Injective (Option.map Aspect.number) :=
    Option.map_injective fun _ _ => Aspect.number.inj
  have hint : ∀ i, (Value.int i).aspect? = (some (Extent.ofInt i)).map .number := fun _ => rfl
  have hfloat : ∀ d, (Value.float d).aspect? = d.extent?.map .number := fun _ => rfl
  -- two numbers are compared by their places, and all other pairs part by part
  cases v with
  | int i =>
    cases w with
    | int j => simp [strictEquals, aspect?, Extent.ofInt_inj]
    | float d =>
      rw [strictEquals, beq_iff_eq, hint, hfloat, hnumber.eq_iff]
      exact ⟨fun h => ⟨nofun, h.symm⟩, fun h => h.2.symm⟩
    | _ => simp [strictEquals, aspect?, text?, same, outline]
  | float d =>
    cases w with
    | int i =>
      rw [strictEquals, beq_iff_eq, hfloat, hint, hnumber.eq_iff]
      exact ⟨fun h => ⟨by simp [h], h⟩, And.right⟩
    | float e => simp [strictEquals, hfloat, hnumber.eq_iff, Option.isSome_iff_ne_none]
    | _ => simp [strictEquals, aspect?, text?, same, outline]
  | _ => cases w <;> simp [strictEquals, aspect?, text?, same, outline]

/-! ## Laws -/

theorem strictEquals_comm (v w : Value) : v.strictEquals w = w.strictEquals v := by
  rw [Bool.eq_iff_iff, strictEquals_iff, strictEquals_iff]
  constructor
  · rintro ⟨hv, heq⟩
    exact ⟨heq ▸ hv, heq.symm⟩
  · rintro ⟨hw, heq⟩
    exact ⟨heq ▸ hw, heq.symm⟩

theorem strictEquals_trans {u : Value} (huv : u.strictEquals v = true)
    (hvw : v.strictEquals w = true) : u.strictEquals w = true := by
  rw [strictEquals_iff] at huv hvw ⊢
  exact ⟨huv.1, huv.2.trans hvw.2⟩

/-- Only NaN is not equal to itself. -/
theorem strictEquals_self_iff : v.strictEquals v = true ↔ ∀ tag, v ≠ .float (.nan tag) := by
  rw [strictEquals_iff, Ne, aspect?_eq_none_iff]
  simp

/-! ## Numbers -/

/-- The point of the line that a number denotes. -/
def quantity? : Value → Option RationalLine
  | .int i => some (.at i)
  | .float (.fin neg units) => some (.at ((if neg then -(units : ℚ) else units) / unitsPerOne))
  | .float (.inf neg) => some (if neg then ⊥ else ⊤)
  | _ => none

/-- A number is compared by the place at the point that it denotes. -/
theorem aspect?_of_quantity? {q : RationalLine} (h : v.quantity? = some q) :
    ∃ e, v.aspect? = some (.number e) ∧ e.point = q := by
  cases v with
  | int i => exact ⟨_, rfl, (Extent.point_ofInt i).trans (Option.some.inj h)⟩
  | float d =>
    cases d with
    | nan tag => cases h
    | inf neg => cases neg <;> exact ⟨_, rfl, Option.some.inj h⟩
    | fin neg units =>
      have hq := Option.some.inj h
      cases neg with
      | false => exact ⟨_, rfl, by rw [← hq, Extent.point, Int.cast_natCast]; rfl⟩
      | true => exact ⟨_, rfl, by rw [← hq, Extent.point, Int.cast_neg, Int.cast_natCast]; rfl⟩
  | _ => cases h

theorem strictEquals_iff_quantity {p q : RationalLine} (hv : v.quantity? = some p)
    (hw : w.quantity? = some q) : v.strictEquals w = true ↔ p = q := by
  obtain ⟨d, hd, rfl⟩ := aspect?_of_quantity? hv
  obtain ⟨e, he, rfl⟩ := aspect?_of_quantity? hw
  rw [strictEquals_iff, hd, he, Extent.point_injective.eq_iff]
  simp

/-- The equality of scripts is symmetric and transitive, and everything but NaN is equal to itself.
No truth value is equal to a number, and numbers are equal if they denote the same point of the line
of rational numbers. -/
theorem strictEquals_spec :
    (∀ v w : Value, v.strictEquals w = w.strictEquals v) ∧
    (∀ u v w : Value, u.strictEquals v = true → v.strictEquals w = true →
      u.strictEquals w = true) ∧
    (∀ v : Value, v.strictEquals v = true ↔ ∀ tag, v ≠ .float (.nan tag)) ∧
    (∀ (b : Bool) (i : Int) (d : Double),
      (bool b).strictEquals (.int i) = false ∧ (bool b).strictEquals (.float d) = false) ∧
    ∀ (v w : Value) (p q : RationalLine), v.quantity? = some p → w.quantity? = some q →
      (v.strictEquals w = true ↔ p = q) :=
  ⟨strictEquals_comm, fun _ _ _ => strictEquals_trans, fun _ => strictEquals_self_iff,
    fun _ _ _ => ⟨rfl, rfl⟩, fun _ _ _ _ => strictEquals_iff_quantity⟩

/-- The double `2 ^ 53`. There is none for the next integer. -/
def largeDouble : Double := .fin false (2 ^ 53 * unitsPerOne)

/-- The two zeros are equal, since both are equal to the integer. A large double is equal to the
integer that it denotes and not to the next one, though that is rounded to the same double. -/
theorem strictEquals_spec_rounding :
    ((float (.fin true 0)).strictEquals (int 0) = true ∧
      (int 0).strictEquals (float (.fin false 0)) = true ∧
      (float (.fin true 0)).strictEquals (float (.fin false 0)) = true) ∧
    (float largeDouble).strictEquals (int (2 ^ 53)) = true ∧
      (float largeDouble).strictEquals (int (2 ^ 53 + 1)) = false := by
  obtain ⟨-, htrans, -, -, hnumbers⟩ := strictEquals_spec
  have hdouble : ∀ neg, (float (.fin neg 0)).quantity? = some (.at 0) := by
    rintro (_ | _)
    · show some (RationalLine.at ((0 : ℕ) / unitsPerOne)) = _
      rw [Nat.cast_zero, zero_div]
    · show some (RationalLine.at (-(0 : ℕ) / unitsPerOne)) = _
      rw [Nat.cast_zero, neg_zero, zero_div]
  have hint : (int 0).quantity? = some (.at 0) := congrArg (some ∘ RationalLine.at) Int.cast_zero
  have hlarge : (float largeDouble).quantity? = some (.at (2 ^ 53)) := by
    show some (RationalLine.at ((2 ^ 53 * unitsPerOne : ℕ) / unitsPerOne)) = _
    rw [Nat.cast_mul, mul_div_cancel_right₀ _ Extent.unitsPerOne_ne_zero, Nat.cast_pow, Nat.cast_two]
  have hleft := (hnumbers _ _ _ _ (hdouble true) hint).mpr rfl
  have hright := (hnumbers _ _ _ _ hint (hdouble false)).mpr rfl
  refine ⟨⟨hleft, hright, htrans _ _ _ hleft hright⟩, ?_, ?_⟩
  · rw [hnumbers _ _ _ _ hlarge rfl, RationalLine.at_inj]
    norm_num
  · rw [Bool.eq_false_iff, Ne, hnumbers _ _ _ _ hlarge rfl, RationalLine.at_inj]
    norm_num

end Value

end Lisplet
