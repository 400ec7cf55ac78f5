import Lisplet.Syntax.Token
import Mathlib.Algebra.Ring.Int.Defs
import Mathlib.Tactic.Common
import Mathlib.Data.List.Infix

/-!
# Nested words

A word of lexemes is nested if every bracket in it has its partner. `Nested` is the grammar of such
words; it knows nothing of a stack. `Closes` and `ClosedBy` say that one closer or one opener of a
word has its partner, and the height of a word counts how many brackets it leaves open.
-/

namespace Lisplet

/-- The lexemes of tokens. -/
def Token.word (ts : List Token) : List Lexeme := ts.map (·.lexeme)

/-- The brackets of a word are well nested: leaves stand anywhere, and an opener is followed by a
nested word, its closer and another nested word. -/
inductive Nested : List Lexeme → Prop where
  | nil : Nested []
  | leaf {w : List Lexeme} (kind : LeafKind) (text : String) (hw : Nested w) :
      Nested (.leaf kind text :: w)
  | group {v w : List Lexeme} (b : Bracket) (hv : Nested v) (hw : Nested w) :
      Nested (.opener b :: (v ++ .closer b :: w))

/-- After the word `w` a closer of `b` matches the innermost bracket that is still open. -/
def Closes (b : Bracket) (w : List Lexeme) : Prop := ∃ u v, w = u ++ .opener b :: v ∧ Nested v

/-- An opener of `b` before the word `w` has its closer in `w`. -/
def ClosedBy (b : Bracket) (w : List Lexeme) : Prop := ∃ u v, w = u ++ .closer b :: v ∧ Nested u

/-- Every closer of a word matches the innermost bracket that is open before it. -/
def ClosersMatch (w : List Lexeme) : Prop := ∀ u b v, w = u ++ .closer b :: v → Closes b u

/-- The closer at a place of the source matches the innermost bracket that is open before it. -/
theorem ClosersMatch.closes {us vs : List Token} {t : Token} {b : Bracket}
    (h : ClosersMatch (Token.word (us ++ t :: vs))) (ht : t.lexeme = .closer b) :
    Closes b (Token.word us) :=
  h _ _ (Token.word vs) (by simp [Token.word, ht])

/-! ## Heights -/

/-- What a lexeme adds to the number of open brackets. -/
def Lexeme.rise : Lexeme → Int
  | .opener _ => 1
  | .closer _ => -1
  | .leaf _ _ => 0

/-- How many brackets a word opens more than it closes. -/
def height (w : List Lexeme) : Int := (w.map Lexeme.rise).sum

@[simp] theorem height_nil : height [] = 0 := rfl

@[simp] theorem height_cons (x : Lexeme) (w : List Lexeme) : height (x :: w) = x.rise + height w :=
  rfl

@[simp] theorem height_append (v w : List Lexeme) : height (v ++ w) = height v + height w := by
  simp [height]

/-- No beginning of the word closes more brackets than it opens. -/
def NeverBelow (w : List Lexeme) : Prop := ∀ u v, w = u ++ v → 0 ≤ height u

theorem NeverBelow.append {v w : List Lexeme} (hv : NeverBelow v) (hw : NeverBelow w) :
    NeverBelow (v ++ w) := by
  intro x y h
  rcases List.append_eq_append_iff.mp h with ⟨z, rfl, hz⟩ | ⟨z, hz, rfl⟩
  · have hv0 : 0 ≤ height v := hv v [] (by simp)
    have hz0 : 0 ≤ height z := hw z y hz
    rw [height_append]
    omega
  · exact hv x z hz

theorem NeverBelow.opener {w : List Lexeme} (b : Bracket) (hw : NeverBelow w) :
    NeverBelow (.opener b :: w) := by
  intro u v h
  cases u with
  | nil => simp
  | cons x u =>
    obtain ⟨rfl, hu⟩ := List.cons.injEq .. |>.mp h
    have hu0 : 0 ≤ height u := hw u v hu
    simp only [height_cons, Lexeme.rise]
    omega

namespace Nested

theorem append {v w : List Lexeme} (hv : Nested v) (hw : Nested w) : Nested (v ++ w) := by
  induction hv with
  | nil => exact hw
  | leaf kind text _ ih => exact .leaf kind text ih
  | group b hu _ _ ih =>
    rw [List.cons_append, List.append_assoc, List.cons_append]
    exact .group b hu ih

theorem height_eq_zero {w : List Lexeme} (h : Nested w) : height w = 0 := by
  induction h with
  | nil => rfl
  | leaf kind text _ ih => simp [Lexeme.rise, ih]
  | group b _ _ ihv ihw => simp [Lexeme.rise, ihv, ihw]

theorem neverBelow {w : List Lexeme} (h : Nested w) : NeverBelow w := by
  induction h with
  | nil =>
    intro u v h
    obtain ⟨rfl, -⟩ := List.append_eq_nil_iff.mp h.symm
    simp
  | leaf kind text _ ih =>
    intro u v h
    cases u with
    | nil => simp
    | cons x u =>
      obtain ⟨rfl, hu⟩ := List.cons.injEq .. |>.mp h
      simpa [Lexeme.rise] using ih u v hu
  | @group x y b hx _ ihx ihy =>
    intro u v h
    cases u with
    | nil => simp
    | cons z u =>
      obtain ⟨rfl, hu⟩ := List.cons.injEq .. |>.mp h
      rcases List.append_eq_append_iff.mp hu with ⟨s, rfl, hs⟩ | ⟨s, hs, rfl⟩
      · -- the beginning reaches past `x`, so that it may hold the closer
        cases s with
        | nil => simp [Lexeme.rise, hx.height_eq_zero]
        | cons z s =>
          obtain ⟨rfl, hs'⟩ := List.cons.injEq .. |>.mp hs
          have hs0 : 0 ≤ height s := ihy s v hs'
          simp only [height_cons, height_append, Lexeme.rise, hx.height_eq_zero]
          omega
      · have hu0 : 0 ≤ height u := ihx u s hs
        simp only [height_cons, Lexeme.rise]
        omega

/-- Every opener of a nested word has its closer in it. -/
theorem closedBy {w : List Lexeme} (h : Nested w) :
    ∀ {u v : List Lexeme} {b : Bracket}, w = u ++ .opener b :: v → ClosedBy b v := by
  induction h with
  | nil => intro u v b h; simp at h
  | leaf kind text _ ih =>
    intro u v b h
    cases u with
    | nil => simp at h
    | cons x u =>
      obtain ⟨-, hu⟩ := List.cons.injEq .. |>.mp h
      exact ih hu
  | @group x y b₀ hx _ ihx ihy =>
    intro u v b h
    cases u with
    | nil =>
      simp only [List.nil_append, List.cons.injEq, Lexeme.opener.injEq] at h
      obtain ⟨rfl, rfl⟩ := h
      exact ⟨x, y, rfl, hx⟩
    | cons z u =>
      obtain ⟨-, hu⟩ := List.cons.injEq .. |>.mp h
      rcases List.append_eq_append_iff.mp hu with ⟨s, rfl, hs⟩ | ⟨s, hs, hs'⟩
      · cases s with
        | nil => simp at hs
        | cons z s =>
          obtain ⟨-, hs'⟩ := List.cons.injEq .. |>.mp hs
          exact ihy hs'
      · cases s with
        | nil => simp at hs'
        | cons z s =>
          obtain ⟨rfl, rfl⟩ := List.cons.injEq .. |>.mp hs'
          obtain ⟨p, q, rfl, hp⟩ := ihx hs
          exact ⟨p, q ++ .closer b₀ :: y, by simp, hp⟩

end Nested

/-- A word that never goes below its start closes no bracket that was open before it. -/
theorem NeverBelow.not_closedBy {w : List Lexeme} (hw : NeverBelow w) (b : Bracket) :
    ¬ ClosedBy b w := by
  rintro ⟨u, v, rfl, hu⟩
  have hbelow := hw (u ++ [.closer b]) v (by simp)
  rw [height_append, hu.height_eq_zero] at hbelow
  simp [Lexeme.rise] at hbelow

/-- An opener keeps its closer when the word goes on. -/
theorem ClosedBy.append {b : Bracket} {v : List Lexeme} (h : ClosedBy b v) (w : List Lexeme) :
    ClosedBy b (v ++ w) := by
  obtain ⟨p, q, rfl, hp⟩ := h
  exact ⟨p, q ++ w, by simp, hp⟩

end Lisplet
