import Lisplet.Numeral
import Lisplet.Proofs.Syntax.Tokens
import Mathlib.Data.Nat.Digits.Defs

/-!
# Digits

The number that digits of any numeral system denote, and how digits are read. Reading first turns
every digit into an ASCII digit of the same value, so that what is neither a letter from `a` to `f`
nor a decimal digit is no digit afterwards, although some further characters count as digits by
name. A run of digits is read as the number that it denotes.
-/

namespace Lisplet

namespace Text

theorem zero_of_digitValue? {c : Char} {v : Nat} (h : digitValue? c = some v) :
    ∃ z ∈ decimalZeros, c.toNat = z + v ∧ v < 10 := by
  unfold digitValue? at h
  obtain ⟨z, hz, hv⟩ := Option.map_eq_some_iff.mp h
  have hrange := List.find?_some hz
  simp only [Bool.and_eq_true, decide_eq_true_eq] at hrange
  exact ⟨z, List.mem_of_find?_eq_some hz, by omega, by omega⟩

theorem digitValue?_lt {c : Char} {v : Nat} (h : digitValue? c = some v) : v < 10 := by
  obtain ⟨_, _, _, hv⟩ := zero_of_digitValue? h
  exact hv

theorem exists_digitValue? {c : Char} (h : isDecimal c = true) : ∃ v, digitValue? c = some v :=
  Option.isSome_iff_exists.mp h

/-- The decimal digits of ASCII are those from `0` to `9`. -/
theorem digitValue?_ascii {c : Char} {v : Nat} (h : digitValue? c = some v) (hc : c.toNat < 128) :
    c.toNat = 48 + v := by
  obtain ⟨z, hz, hcode, hv⟩ := zero_of_digitValue? h
  have hzeros : ∀ z ∈ decimalZeros, z = 48 ∨ 128 ≤ z := by decide
  rcases hzeros z hz with rfl | hle
  · exact hcode
  · omega

end Text

namespace Numeral

open Text

/-! ## Plain characters -/

theorem plainChar_of_ascii {c : Char} (h : c.toNat < 128) : plainChar c = c := if_pos h

theorem toNat_ofNat_digit {v : Nat} (h : v < 10) : (Char.ofNat (48 + v)).toNat = 48 + v := by
  have hall : ∀ v < 10, (Char.ofNat (48 + v)).toNat = 48 + v := by decide
  exact hall v h

/-- Every decimal digit becomes the ASCII digit of its value. -/
theorem toNat_plainChar_digit {c : Char} {v : Nat} (h : digitValue? c = some v) :
    (plainChar c).toNat = 48 + v := by
  by_cases hc : c.toNat < 128
  · rw [plainChar_of_ascii hc]
    exact digitValue?_ascii h hc
  · unfold plainChar
    rw [if_neg hc, h]
    exact toNat_ofNat_digit (digitValue?_lt h)

/-- A character beyond ASCII that is neither a decimal digit nor a blank stays. -/
theorem plainChar_of_none {c : Char} (h : digitValue? c = none) (hb : isBlank c = false) :
    plainChar c = c := by
  unfold plainChar
  split
  · rfl
  · rw [h]
    simp only [hb, Bool.false_eq_true, if_false]

/-- What a digit counts: its value in its numeral system, or ten and more for a letter. -/
def digitOf (c : Char) : Nat :=
  match digitValue? c with
  | some v => v
  | none => 10 + (c.toNat - if 'a' ≤ c then 'a'.toNat else 'A'.toNat)

theorem digitOf_of_some {c : Char} {v : Nat} (h : digitValue? c = some v) : digitOf c = v := by
  unfold digitOf
  rw [h]

theorem digitOf_lt_ten {c : Char} (h : isDecimal c = true) : digitOf c < 10 := by
  obtain ⟨v, hv⟩ := exists_digitValue? h
  rw [digitOf_of_some hv]
  exact digitValue?_lt hv

theorem isHexDigit_of_isDecimal {c : Char} (h : isDecimal c = true) :
    Token.isHexDigit c = true := by
  simp only [Token.isHexDigit, h, Bool.true_or]

/-- The letters that are digits of base sixteen. -/
def hexLetters : List Char := ['a', 'b', 'c', 'd', 'e', 'f', 'A', 'B', 'C', 'D', 'E', 'F']

/-- A digit of base sixteen is a decimal digit or one of the letters. -/
theorem hexDigit_cases {c : Char} (h : Token.isHexDigit c = true) :
    isDecimal c = true ∨ c ∈ hexLetters := by
  by_cases hd : isDecimal c = true
  · exact .inl hd
  · have hall : ∀ n ∈ List.range' 97 6 ++ List.range' 65 6, Char.ofNat n ∈ hexLetters := by decide
    have hcode : c.toNat ∈ List.range' 97 6 ++ List.range' 65 6 := by
      simp only [Token.isHexDigit, hd, Bool.false_or, Bool.or_eq_true, Bool.and_eq_true,
        decide_eq_true_eq] at h
      rw [List.mem_append, List.mem_range'_1, List.mem_range'_1]
      omega
    have hmem := hall c.toNat hcode
    rw [Char.ofNat_toNat] at hmem
    exact .inr hmem

/-- A digit of base sixteen is read as what it counts. -/
theorem plainDigit?_plainChar {c : Char} (h : Token.isHexDigit c = true) :
    plainDigit? (plainChar c) = some (digitOf c) := by
  rcases hexDigit_cases h with hd | hletter
  · obtain ⟨v, hv⟩ := exists_digitValue? hd
    have hlt := digitValue?_lt hv
    unfold plainDigit?
    rw [toNat_plainChar_digit hv, digitOf_of_some hv]
    simp only [show 48 ≤ 48 + v by omega, show 48 + v ≤ 57 by omega, decide_true, Bool.and_self,
      if_true, Nat.add_sub_cancel_left]
  · have hall : hexLetters.all (fun c => plainDigit? (plainChar c) == some (digitOf c)) = true := by
      decide
    exact eq_of_beq (List.all_eq_true.mp hall c hletter)

theorem digitOf_lt_sixteen {c : Char} (h : Token.isHexDigit c = true) : digitOf c < 16 := by
  rcases hexDigit_cases h with hd | hletter
  · exact Nat.lt_trans (digitOf_lt_ten hd) (by omega)
  · have hall : hexLetters.all (fun c => digitOf c < 16) = true := by decide
    exact of_decide_eq_true (List.all_eq_true.mp hall c hletter)

/-- The digit is one of a base: a decimal digit in base ten, and in base sixteen also a letter. -/
def IsDigitIn (base : Nat) (c : Char) : Prop := Token.isHexDigit c = true ∧ digitOf c < base

theorem isDigitIn_ten {c : Char} (h : isDecimal c = true) : IsDigitIn 10 c :=
  ⟨isHexDigit_of_isDecimal h, digitOf_lt_ten h⟩

theorem isDigitIn_sixteen {c : Char} (h : Token.isHexDigit c = true) : IsDigitIn 16 c :=
  ⟨h, digitOf_lt_sixteen h⟩

theorem isPlainDigit_plainChar {base : Nat} {c : Char} (h : IsDigitIn base c) :
    isPlainDigit base (plainChar c) = true := by
  unfold isPlainDigit
  rw [plainDigit?_plainChar h.1]
  simpa using h.2

/-! ## What is no digit -/

/-- A further digit, such as a superscript, is no digit once the text is in plain characters. -/
theorem plainDigit?_of_not_isDecimal {c : Char} (hdigit : isDigit c = true)
    (hdecimal : isDecimal c = false) : plainChar c = c ∧ plainDigit? c = none ∧
      isPlainBlank c = false ∧ c ≠ '_' ∧ c ≠ '+' ∧ c ≠ '-' := by
  have hspan : inSpans otherDigitSpans c = true := by
    simpa [isDigit, hdecimal] using hdigit
  have hcode := mem_codes_of_inSpans hspan
  have hall : ∀ n ∈ otherDigitSpans.flatMap fun s => List.range' s.1 (s.2 + 1 - s.1),
      128 ≤ n ∧ isBlank (Char.ofNat n) = false := by decide +kernel
  obtain ⟨hle, hblank⟩ := hall _ hcode
  rw [Char.ofNat_toNat] at hblank
  have hne : ∀ d : Char, d.toNat < 128 → c ≠ d := by
    rintro d hd rfl
    omega
  refine ⟨plainChar_of_none (by simpa [isDecimal] using hdecimal) hblank, ?_, ?_, hne _ (by decide),
    hne _ (by decide), hne _ (by decide)⟩
  · unfold plainDigit?
    simp only [Bool.and_eq_true, decide_eq_true_eq]
    rw [if_neg (by omega), if_neg (by omega), if_neg (by omega)]
  · have hspace := hne ' ' (by decide)
    simp only [isPlainBlank, Bool.or_eq_false_iff, beq_eq_false_iff_ne, Bool.and_eq_false_imp,
      decide_eq_true_eq, decide_eq_false_iff_not]
    exact ⟨hspace, fun _ => by omega⟩

/-! ## Runs of digits -/

/-- The number that digits denote in a base; the digit of the ones comes last. -/
def denoted (base : Nat) (cs : List Char) : Nat := Nat.ofDigits base (cs.reverse.map digitOf)

theorem denoted_concat (base : Nat) (cs : List Char) (c : Char) :
    denoted base (cs ++ [c]) = denoted base cs * base + digitOf c := by
  unfold denoted
  rw [List.reverse_concat, List.map_cons, Nat.ofDigits_cons]
  ring

theorem digitsValue_concat (base : Nat) (cs : List Char) (c : Char) :
    digitsValue base (cs ++ [c]) = digitsValue base cs * base + (plainDigit? c).getD 0 := by
  unfold digitsValue
  rw [List.foldl_append, List.foldl_cons, List.foldl_nil]

theorem digitsValue_map_plainChar {base : Nat} {cs : List Char}
    (h : ∀ c ∈ cs, Token.isHexDigit c = true) :
    digitsValue base (cs.map plainChar) = denoted base cs := by
  induction cs using List.reverseRecOn with
  | nil => rfl
  | append_singleton cs c ih =>
    have hcs := ih fun d hd => h d (List.mem_append_left _ hd)
    have hc := plainDigit?_plainChar (h c (List.mem_append_right _ (List.mem_singleton_self c)))
    rw [List.map_append, List.map_singleton, digitsValue_concat, denoted_concat, hcs, hc,
      Option.getD_some]

/-- Without underscores there are no separators to remove. -/
theorem dropSeparators_of_not_mem {base : Nat} {cs : List Char} (h : '_' ∉ cs) :
    dropSeparators base cs = some cs := by
  fun_induction dropSeparators base cs with
  | case1 a b rest => simp at h
  | case2 a b rest => simp at h
  | case3 rest => simp at h
  | case4 c rest _ _ ih =>
    rw [ih fun hmem => h (List.mem_cons_of_mem c hmem)]
    rfl
  | case5 => rfl

/-- In plain characters this is no blank, no separator and no sign. -/
structure Solid (c : Char) : Prop where
  not_blank : isPlainBlank (plainChar c) = false
  ne_separator : plainChar c ≠ '_'
  ne_plus : plainChar c ≠ '+'
  ne_minus : plainChar c ≠ '-'

theorem solid_of_isHexDigit {c : Char} (h : Token.isHexDigit c = true) : Solid c := by
  have hdigit := plainDigit?_plainChar h
  have hne : ∀ d, plainDigit? d = none → plainChar c ≠ d := by
    rintro d hd rfl
    rw [hdigit] at hd
    cases hd
  refine ⟨?_, hne _ (by decide), hne _ (by decide), hne _ (by decide)⟩
  by_contra hblank
  rw [Bool.not_eq_false] at hblank
  have hcode : plainDigit? (plainChar c) = none := by
    simp only [isPlainBlank, Bool.or_eq_true, beq_iff_eq, Bool.and_eq_true,
      decide_eq_true_eq] at hblank
    rcases hblank with hspace | hrange
    · rw [hspace]
      decide
    · unfold plainDigit?
      simp only [Bool.and_eq_true, decide_eq_true_eq]
      rw [if_neg (by omega), if_neg (by omega), if_neg (by omega)]
  rw [hdigit] at hcode
  cases hcode

theorem solid_of_isDigit {c : Char} (h : isDigit c = true) : Solid c := by
  by_cases hd : isDecimal c = true
  · exact solid_of_isHexDigit (isHexDigit_of_isDecimal hd)
  · obtain ⟨hplain, -, hblank, hrest⟩ := plainDigit?_of_not_isDecimal h (by simpa using hd)
    refine ⟨?_, ?_, ?_, ?_⟩ <;> rw [hplain]
    · exact hblank
    · exact hrest.1
    · exact hrest.2.1
    · exact hrest.2.2

/-- No blanks are trimmed from a text without blanks. -/
theorem plain_of_not_blank (text : String)
    (h : ∀ c ∈ text.toList, isPlainBlank (plainChar c) = false) :
    plain text = text.toList.map plainChar := by
  have hkeep : ∀ cs : List Char, (∀ c ∈ cs, isPlainBlank c = false) →
      cs.dropWhile isPlainBlank = cs := by
    intro cs hcs
    cases cs with
    | nil => rfl
    | cons c cs =>
      have hc := hcs c List.mem_cons_self
      rw [List.dropWhile_cons_of_neg (by simp [hc])]
  have hmap : ∀ c ∈ text.toList.map plainChar, isPlainBlank c = false := by
    simpa using h
  unfold plain
  rw [hkeep _ hmap]
  dsimp only
  rw [hkeep _ (by simpa using h), List.reverse_reverse]

theorem splitSign_of_ne {cs : List Char} (hplus : cs.head? ≠ some '+')
    (hminus : cs.head? ≠ some '-') : splitSign cs = (false, cs) := by
  unfold splitSign
  split
  · exact absurd rfl hminus
  · exact absurd rfl hplus
  · rfl

/-- Digits of a base are read as the number that they denote. -/
theorem digits?_map_plainChar {base : Nat} {cs : List Char} (h : ∀ c ∈ cs, IsDigitIn base c)
    (hne : cs ≠ []) : digits? base (cs.map plainChar) = some (denoted base cs, cs.length) := by
  have hsep : '_' ∉ cs.map plainChar := by
    intro hmem
    obtain ⟨c, hc, heq⟩ := List.mem_map.mp hmem
    exact (solid_of_isHexDigit (h c hc).1).ne_separator heq
  have hall : (cs.map plainChar).all (isPlainDigit base) = true := by
    rw [List.all_eq_true]
    intro d hd
    obtain ⟨c, hc, rfl⟩ := List.mem_map.mp hd
    exact isPlainDigit_plainChar (h c hc)
  unfold digits?
  rw [dropSeparators_of_not_mem hsep]
  dsimp only
  rw [hall, digitsValue_map_plainChar fun c hc => (h c hc).1, List.length_map]
  simp [hne]

/-- What holds a further digit, such as a superscript, is no number. -/
theorem digits?_of_not_isDecimal {base : Nat} {cs : List Char} (h : ∀ c ∈ cs, isDigit c = true)
    (hbad : ∃ c ∈ cs, isDecimal c = false) : digits? base (cs.map plainChar) = none := by
  have hsep : '_' ∉ cs.map plainChar := by
    intro hmem
    obtain ⟨c, hc, heq⟩ := List.mem_map.mp hmem
    exact (solid_of_isDigit (h c hc)).ne_separator heq
  obtain ⟨c, hc, hdecimal⟩ := hbad
  obtain ⟨hplain, hnone, -⟩ := plainDigit?_of_not_isDecimal (h c hc) hdecimal
  have hall : ¬(cs.map plainChar).all (isPlainDigit base) = true := by
    rw [List.all_eq_true]
    intro hall
    have hdigit := hall (plainChar c) (List.mem_map_of_mem hc)
    rw [hplain, isPlainDigit, hnone] at hdigit
    cases hdigit
  unfold digits?
  rw [dropSeparators_of_not_mem hsep]
  dsimp only
  rw [if_neg]
  rw [Bool.and_eq_true]
  exact fun hboth => hall hboth.2

/-! ## Digits of numbers -/

theorem digitValue?_digitChar {d : Nat} (h : d < 10) : digitValue? (Nat.digitChar d) = some d := by
  have hall : ∀ d < 10, digitValue? (Nat.digitChar d) = some d := by decide
  exact hall d h

/-- The digits of a number are decimal digits, and they denote it. -/
theorem toDigits_spec (n : Nat) :
    (∀ c ∈ Nat.toDigits 10 n, isDecimal c = true) ∧ denoted 10 (Nat.toDigits 10 n) = n := by
  induction n using Nat.strongRecOn with
  | ind n ih =>
    by_cases h : n < 10
    · rw [Nat.toDigits_of_lt_base h]
      have hvalue := digitValue?_digitChar h
      refine ⟨fun c hc => ?_, ?_⟩
      · rw [List.mem_singleton.mp hc]
        unfold isDecimal
        rw [hvalue]
        rfl
      · show Nat.ofDigits 10 [digitOf (Nat.digitChar n)] = n
        rw [digitOf_of_some hvalue, Nat.ofDigits_singleton]
    · have hlast := digitValue?_digitChar (d := n % 10) (by omega)
      obtain ⟨hdecimal, hdenoted⟩ := ih (n / 10) (by omega)
      rw [Nat.toDigits_of_base_le (by decide) (Nat.le_of_not_lt h)]
      refine ⟨fun c hc => ?_, ?_⟩
      · rcases List.mem_append.mp hc with hc | hc
        · exact hdecimal c hc
        · rw [List.mem_singleton.mp hc]
          unfold isDecimal
          rw [hlast]
          rfl
      · rw [denoted_concat, hdenoted, digitOf_of_some hlast]
        omega

end Numeral

end Lisplet
