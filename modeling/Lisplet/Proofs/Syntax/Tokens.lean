import Lisplet.Syntax.Render
import Lisplet.Proofs.Syntax.Nesting
import Mathlib.Data.List.TakeWhile

/-!
# Token rules

What each rule for leaves takes off the start of a text. The rules overlap, so that the statements
come in pairs: how much a rule takes of a text that is followed by a boundary, which no rule reaches
across, and what a rule leaves in its leaf when it applies to an arbitrary text.
-/

namespace Lisplet

/-! ## Characters -/

namespace Text

/-- A character of a set of ranges has one of the code points of these ranges. -/
theorem mem_codes_of_inSpans {spans : List (Nat × Nat)} {c : Char} (h : inSpans spans c = true) :
    c.toNat ∈ spans.flatMap fun s => List.range' s.1 (s.2 + 1 - s.1) := by
  obtain ⟨span, hspan, hc⟩ := List.any_eq_true.mp h
  simp only [Bool.and_eq_true, decide_eq_true_eq] at hc
  rw [List.mem_flatMap]
  refine ⟨span, hspan, ?_⟩
  rw [List.mem_range'_1]
  omega

end Text

namespace Token

theorem not_isIdentChar_of_isBlank {c : Char} (h : Text.isBlank c = true) :
    isIdentChar c = false := by
  have hall : ∀ n ∈ Text.blankSpans.flatMap fun s => List.range' s.1 (s.2 + 1 - s.1),
      isIdentChar (Char.ofNat n) = false := by decide +kernel
  have hc := hall _ (Text.mem_codes_of_inSpans h)
  rwa [Char.ofNat_toNat] at hc

theorem isIdentChar_of_isWord {c : Char} (h : Text.isWord c = true) : isIdentChar c = true := by
  simp [isIdentChar, h]

theorem isWord_of_isDecimal {c : Char} (h : Text.isDecimal c = true) : Text.isWord c = true := by
  simp [Text.isWord, Text.isLetterOrNumeral, Text.isNumeral, h]

theorem isIdentChar_of_isDecimal {c : Char} (h : Text.isDecimal c = true) :
    isIdentChar c = true :=
  isIdentChar_of_isWord (isWord_of_isDecimal h)

theorem isIdentChar_of_isHexDigit {c : Char} (h : isHexDigit c = true) : isIdentChar c = true := by
  simp only [isHexDigit, Bool.or_eq_true, Bool.and_eq_true, decide_eq_true_eq] at h
  rcases h with (h | h) | h
  · exact isIdentChar_of_isDecimal h
  · have hall : ∀ n ∈ List.range' 97 6, isIdentChar (Char.ofNat n) = true := by decide
    have hc := hall c.toNat (by rw [List.mem_range'_1]; omega)
    rwa [Char.ofNat_toNat] at hc
  · have hall : ∀ n ∈ List.range' 65 6, isIdentChar (Char.ofNat n) = true := by decide
    have hc := hall c.toNat (by rw [List.mem_range'_1]; omega)
    rwa [Char.ofNat_toNat] at hc

/-- The characters that brackets, layout and the marks of keys and rests begin with are not part of
identifiers, and neither is the backslash. -/
theorem ne_of_isIdentChar {c d : Char} (hc : isIdentChar c = true)
    (hd : d ∈ ['(', ')', '[', ']', '\x7b', '\x7d', ';', ':', '&', '\\', '\n']) : c ≠ d := by
  have hall : ['(', ')', '[', ']', '\x7b', '\x7d', ';', ':', '&', '\\', '\n'].all
      (fun d => !isIdentChar d) = true := by decide
  rintro rfl
  have hnot := List.all_eq_true.mp hall c hd
  rw [hc] at hnot
  cases hnot

/-! ## Boundaries -/

/-- The text begins with no identifier character, so that no leaf but a string reaches into it. -/
def Boundary (rest : List Char) : Prop := ∀ c, rest.head? = some c → isIdentChar c = false

theorem boundary_nil : Boundary [] := by
  intro c h
  simp at h

theorem Boundary.ne {c d : Char} {cs : List Char} (hr : Boundary (c :: cs))
    (hd : isIdentChar d = true) : c ≠ d := by
  rintro rfl
  rw [hr c rfl] at hd
  cases hd

theorem boundary_dropWhile (cs : List Char) : Boundary (cs.dropWhile isIdentChar) := by
  intro c hc
  have hnot := List.head?_dropWhile_not isIdentChar cs
  rw [hc] at hnot
  simpa using hnot

section Runs

variable {p : Char → Bool} {xs rest : List Char}

theorem runLength_le (p : Char → Bool) (cs : List Char) : runLength p cs ≤ cs.length :=
  (List.takeWhile_prefix p).length_le

theorem runLength_cons (p : Char → Bool) (c : Char) (cs : List Char) :
    runLength p (c :: cs) = if p c = true then runLength p cs + 1 else 0 := by
  unfold runLength
  rw [List.takeWhile_cons]
  split <;> simp

theorem runLength_ne_zero_iff {c : Char} {cs : List Char} :
    runLength p (c :: cs) ≠ 0 ↔ p c = true := by
  rw [runLength_cons]
  split <;> simp_all

/-- A run of identifier characters of some sort ends at a boundary. -/
theorem runLength_append (hp : ∀ c, p c = true → isIdentChar c = true) (hr : Boundary rest) :
    runLength p (xs ++ rest) = runLength p xs := by
  induction xs with
  | nil =>
    cases rest with
    | nil => rfl
    | cons c cs =>
      have hc : p c = false := by
        by_contra hne
        have := hp c (by simpa using hne)
        rw [hr c rfl] at this
        cases this
      simp [runLength, hc]
  | cons x xs ih => rw [List.cons_append, runLength_cons, runLength_cons, ih]

theorem runLength_eq_length (h : ∀ c ∈ xs, p c = true) : runLength p xs = xs.length := by
  rw [runLength, List.takeWhile_eq_self_iff.mpr h]

/-- Cutting a text at least as far out as its run keeps the run. -/
theorem runLength_take {n : Nat} {cs : List Char} (hn : runLength p cs ≤ n) :
    runLength p (cs.take n) = runLength p cs := by
  induction cs generalizing n with
  | nil => simp
  | cons c cs ih =>
    rw [runLength_cons] at hn
    cases n with
    | zero =>
      split at hn
      · omega
      · next hc => simp [runLength, hc]
    | succ n =>
      rw [List.take_succ_cons, runLength_cons, runLength_cons]
      split
      · next hc =>
        rw [if_pos hc] at hn
        rw [ih (by omega)]
      · rfl

theorem take_runLength (p : Char → Bool) (cs : List Char) :
    cs.take (runLength p cs) = cs.takeWhile p := by
  have hprefix : cs.takeWhile p <+: cs := List.takeWhile_prefix p
  exact (List.prefix_iff_eq_take.mp hprefix).symm

theorem drop_runLength (p : Char → Bool) (cs : List Char) :
    cs.drop (runLength p cs) = cs.dropWhile p := by
  induction cs with
  | nil => rfl
  | cons c cs ih =>
    rw [runLength_cons, List.dropWhile_cons]
    split
    · exact ih
    · rfl

/-- The run at the start holds only characters that pass the test. -/
theorem forall_mem_take_runLength {n : Nat} {cs : List Char} (hn : n ≤ runLength p cs) :
    ∀ c ∈ cs.take n, p c = true := by
  intro c hc
  have hmem : c ∈ cs.take (runLength p cs) := List.take_subset_take_left cs hn hc
  rw [take_runLength] at hmem
  exact List.mem_takeWhile_imp hmem

theorem take_runLength_ne_nil {cs : List Char} (h : runLength p cs ≠ 0) :
    cs.take (runLength p cs) ≠ [] := by
  intro hnil
  rw [take_runLength] at hnil
  exact h (by rw [runLength, hnil, List.length_nil])

end Runs

/-! ## Numbers -/

section Numbers

variable {xs rest : List Char}

theorem runLength_isDecimal_append (hr : Boundary rest) (xs : List Char) :
    runLength Text.isDecimal (xs ++ rest) = runLength Text.isDecimal xs :=
  runLength_append (fun _ => isIdentChar_of_isDecimal) hr

theorem exponentLength_append (hr : Boundary rest) (xs : List Char) :
    exponentLength (xs ++ rest) = exponentLength xs := by
  have hrun := runLength_isDecimal_append hr
  rcases xs with _ | ⟨x, _ | ⟨y, ys⟩⟩
  · cases rest with
    | nil => rfl
    | cons c cs =>
      have he : c ≠ 'e' := hr.ne (by decide)
      have hE : c ≠ 'E' := hr.ne (by decide)
      simp [exponentLength, he, hE]
  · cases rest with
    | nil => rfl
    | cons c cs =>
      have hplus : c ≠ '+' := hr.ne (by decide)
      have hminus : c ≠ '-' := hr.ne (by decide)
      have hrun0 : runLength Text.isDecimal (c :: cs) = 0 := hrun []
      have hnone : runLength Text.isDecimal [] = 0 := rfl
      simp [exponentLength, hplus, hminus, hrun0, hnone]
  · -- the sign is decided by `y`, and the digits by what is left after it
    have hsigned := hrun ys
    have hbare := hrun (y :: ys)
    simp only [List.cons_append] at hbare ⊢
    unfold exponentLength
    by_cases hplus : y = '+'
    · simp [hplus, hsigned]
    · by_cases hminus : y = '-'
      · simp [hminus, hsigned]
      · simp [hplus, hminus, hbare]

theorem significandLength_append (hr : Boundary rest) (xs : List Char) :
    significandLength (xs ++ rest) = significandLength xs := by
  have hrun := runLength_isDecimal_append hr
  have hdrop : (xs ++ rest).drop (runLength Text.isDecimal xs) =
      xs.drop (runLength Text.isDecimal xs) ++ rest :=
    List.drop_append_of_le_length (runLength_le _ _)
  unfold significandLength
  simp only [hrun, hdrop]
  cases xs.drop (runLength Text.isDecimal xs) with
  | nil =>
    cases rest with
    | nil => rfl
    | cons c cs =>
      have hdot : c ≠ '.' := hr.ne (by decide)
      simp [hdot]
  | cons x ys =>
    by_cases hdot : x = '.'
    · simp [hdot, hrun]
    · simp [hdot]

theorem significandLength_le (cs : List Char) : significandLength cs ≤ cs.length := by
  have hlead := runLength_le Text.isDecimal cs
  have hlength : (cs.drop (runLength Text.isDecimal cs)).length =
      cs.length - runLength Text.isDecimal cs := List.length_drop
  unfold significandLength
  simp only
  split
  · next more hmore =>
    have hfraction := runLength_le Text.isDecimal more
    rw [hmore, List.length_cons] at hlength
    split <;> omega
  · exact hlead

/-- The digits after the mark of base sixteen, if there are any. -/
def hexLength : List Char → Nat
  | '0' :: 'x' :: more => runLength isHexDigit more
  | _ => 0

theorem numberLength_eq (cs : List Char) :
    numberLength cs =
      if hexLength cs ≠ 0 then 2 + hexLength cs
      else if significandLength cs = 0 then 0
      else significandLength cs + exponentLength (cs.drop (significandLength cs)) := by
  show (if hexLength cs != 0 then 2 + hexLength cs
    else if significandLength cs == 0 then 0
    else significandLength cs + exponentLength (cs.drop (significandLength cs))) = _
  simp only [bne_iff_ne, beq_iff_eq]

theorem hexLength_append (hr : Boundary rest) (xs : List Char) :
    hexLength (xs ++ rest) = hexLength xs := by
  rcases xs with _ | ⟨x, _ | ⟨y, ys⟩⟩
  · cases rest with
    | nil => rfl
    | cons c cs =>
      have hzero : c ≠ '0' := hr.ne (by decide)
      simp [hexLength, hzero]
  · cases rest with
    | nil => rfl
    | cons c cs =>
      have hx : c ≠ 'x' := hr.ne (by decide)
      simp [hexLength, hx]
  · by_cases h : x = '0' ∧ y = 'x'
    · obtain ⟨rfl, rfl⟩ := h
      exact runLength_append (fun _ => isIdentChar_of_isHexDigit) hr
    · simp only [List.cons_append]
      unfold hexLength
      split
      · next heq => simp_all
      · split
        · next heq => simp_all
        · rfl

/-- The number rule takes as much of a text before a boundary as of the text alone. -/
theorem numberLength_append (hr : Boundary rest) (xs : List Char) :
    numberLength (xs ++ rest) = numberLength xs := by
  have hdrop : (xs ++ rest).drop (significandLength xs) = xs.drop (significandLength xs) ++ rest :=
    List.drop_append_of_le_length (significandLength_le _)
  rw [numberLength_eq, numberLength_eq, hexLength_append hr, significandLength_append hr, hdrop,
    exponentLength_append hr]

/-! A number is also a number on its own: cutting the text off after it does not change how the rule
reads it. -/

theorem significandLength_take {n : Nat} {cs : List Char} (hn : significandLength cs ≤ n) :
    significandLength (cs.take n) = significandLength cs := by
  have hle : runLength Text.isDecimal cs ≤ n := by
    refine le_trans ?_ hn
    unfold significandLength
    simp only
    split
    · split <;> omega
    · exact le_rfl
  unfold significandLength at hn ⊢
  simp only [runLength_take hle, List.drop_take] at hn ⊢
  cases hmore : cs.drop (runLength Text.isDecimal cs) with
  | nil => simp
  | cons x more =>
    rw [hmore] at hn
    cases hk : n - runLength Text.isDecimal cs with
    | zero =>
      -- nothing is left after the digits, so that there is no fraction either
      by_cases hdot : x = '.'
      · subst hdot
        simp only at hn
        split at hn
        · next hf => simp [hf]
        · omega
      · simp [hdot]
    | succ k =>
      rw [List.take_succ_cons]
      by_cases hdot : x = '.'
      · subst hdot
        have hf : runLength Text.isDecimal more ≤ k := by
          simp only at hn
          split at hn
          · next hf => simp at hf; omega
          · omega
        simp [runLength_take hf]
      · simp [hdot]

/-- The length of the sign of an exponent. -/
def signLength : List Char → Nat
  | '+' :: _ | '-' :: _ => 1
  | _ => 0

theorem exponentLength_cons (c : Char) (cs : List Char) :
    exponentLength (c :: cs) =
      if c = 'e' ∨ c = 'E' then
        if runLength Text.isDecimal (cs.drop (signLength cs)) = 0 then 0
        else 1 + signLength cs + runLength Text.isDecimal (cs.drop (signLength cs))
      else 0 := by
  show (if c == 'e' || c == 'E' then
      if runLength Text.isDecimal (cs.drop (signLength cs)) == 0 then 0
      else 1 + signLength cs + runLength Text.isDecimal (cs.drop (signLength cs))
    else 0) = _
  simp only [Bool.or_eq_true, beq_iff_eq]

theorem signLength_take_succ (n : Nat) (cs : List Char) :
    signLength (cs.take (n + 1)) = signLength cs := by
  cases cs with
  | nil => rfl
  | cons c cs =>
    rw [List.take_succ_cons]
    unfold signLength
    split <;> simp_all

theorem exponentLength_take {n : Nat} {cs : List Char} (hn : exponentLength cs ≤ n) :
    exponentLength (cs.take n) = exponentLength cs := by
  rcases cs with _ | ⟨c, cs⟩
  · simp
  rcases n with _ | n
  · have hzero : exponentLength (c :: cs) = 0 := Nat.le_zero.mp hn
    rw [hzero]
    rfl
  rw [exponentLength_cons] at hn
  rw [List.take_succ_cons, exponentLength_cons, exponentLength_cons]
  split
  · next he =>
    rw [if_pos he] at hn
    rcases n with _ | n
    · -- a text of one character has no exponent, and by `hn` neither has the longer one
      have hzero : runLength Text.isDecimal (cs.drop (signLength cs)) = 0 := by
        split at hn <;> omega
      have hnil : runLength Text.isDecimal (([] : List Char).drop (signLength [])) = 0 := rfl
      rw [List.take_zero, if_pos hnil, if_pos hzero]
    · have hdigits : runLength Text.isDecimal (cs.drop (signLength cs)) ≤
          n + 1 - signLength cs := by
        split at hn <;> omega
      rw [signLength_take_succ, List.drop_take, runLength_take hdigits]
  · rfl

theorem hexLength_take {n : Nat} {cs : List Char} (hn : hexLength cs ≠ 0 → 2 + hexLength cs ≤ n) :
    hexLength (cs.take n) = hexLength cs := by
  by_cases h : ∃ more, cs = '0' :: 'x' :: more
  · obtain ⟨more, rfl⟩ := h
    have hmore : hexLength ('0' :: 'x' :: more) = runLength isHexDigit more := rfl
    rw [hmore] at hn ⊢
    have hzero : n < 2 → runLength isHexDigit more = 0 := by
      intro hlt
      by_contra hne
      have := hn hne
      omega
    rcases n with _ | _ | n
    · rw [hzero (by omega)]
      rfl
    · rw [hzero (by omega)]
      rfl
    · have htake : hexLength (('0' :: 'x' :: more).take (n + 2)) =
          runLength isHexDigit (more.take n) := rfl
      rw [htake]
      refine runLength_take ?_
      by_cases hne : runLength isHexDigit more = 0
      · omega
      · have := hn hne
        omega
  · have hnone : ∀ ds : List Char, ds <+: cs → hexLength ds = 0 := by
      rintro ds ⟨tail, rfl⟩
      unfold hexLength
      split
      · next more => exact absurd ⟨more ++ tail, rfl⟩ h
      · rfl
    rw [hnone _ (List.take_prefix n cs), hnone cs (List.prefix_refl cs)]

/-- The number rule reads no further than its number. -/
theorem numberLength_take {n : Nat} {cs : List Char} (hn : numberLength cs ≤ n) :
    numberLength (cs.take n) = numberLength cs := by
  have hlength := numberLength_eq cs
  by_cases hhex : hexLength cs = 0
  · have hhexTake : hexLength (cs.take n) = 0 := by
      rw [hexLength_take (fun h => absurd hhex h), hhex]
    rw [if_neg (not_not_intro hhex)] at hlength
    by_cases hsig : significandLength cs = 0
    · have hsigTake : significandLength (cs.take n) = 0 := by
        rw [significandLength_take (by omega), hsig]
      rw [if_pos hsig] at hlength
      rw [numberLength_eq, if_neg (not_not_intro hhexTake), if_pos hsigTake, hlength]
    · rw [if_neg hsig] at hlength
      have hsigTake : significandLength (cs.take n) = significandLength cs :=
        significandLength_take (by omega)
      rw [numberLength_eq, if_neg (not_not_intro hhexTake), hsigTake, if_neg hsig, List.drop_take,
        exponentLength_take (by omega), hlength]
  · rw [if_pos hhex] at hlength
    have hhexTake : hexLength (cs.take n) = hexLength cs := hexLength_take fun _ => by omega
    rw [numberLength_eq, hhexTake, if_pos hhex, hlength]

theorem numberLength_le (cs : List Char) : numberLength cs ≤ cs.length := by
  have htake : (cs.take (numberLength cs)).length ≤ cs.length := by
    rw [List.length_take]
    omega
  have hsig := significandLength_le cs
  have hexp : ∀ ds : List Char, exponentLength ds ≤ ds.length := by
    intro ds
    cases ds with
    | nil => exact le_rfl
    | cons c ds =>
      have hdigits := runLength_le Text.isDecimal (ds.drop (signLength ds))
      rw [List.length_drop] at hdigits
      rw [exponentLength_cons, List.length_cons]
      split
      · split <;> omega
      · omega
  have hhex : hexLength cs ≠ 0 → 2 + hexLength cs ≤ cs.length := by
    intro hne
    unfold hexLength at hne ⊢
    split at hne
    · next more =>
      have := runLength_le isHexDigit more
      simp only [List.length_cons]
      omega
    · exact absurd rfl hne
  have hrest := hexp (cs.drop (significandLength cs))
  rw [List.length_drop] at hrest
  rw [numberLength_eq]
  split
  · next hne => exact hhex hne
  · split <;> omega

/-- A number is made of identifier characters: a character that is none is a boundary, and the rule
does not reach across. -/
theorem forall_mem_take_numberLength (cs : List Char) :
    ∀ c ∈ cs.take (numberLength cs), isIdentChar c = true := by
  intro c hc
  by_contra hne
  obtain ⟨xs, ys, hxy⟩ := List.append_of_mem hc
  have hr : Boundary (c :: (ys ++ cs.drop (numberLength cs))) := by
    intro d hd
    obtain rfl := Option.some.inj hd
    simpa using hne
  have hcs : cs = xs ++ c :: (ys ++ cs.drop (numberLength cs)) := by
    rw [← List.cons_append, ← List.append_assoc, ← hxy, List.take_append_drop]
  have hlength := congrArg List.length hxy
  have hle := numberLength_le cs
  have hxs := numberLength_le xs
  have hsame : numberLength cs = numberLength xs := by
    conv_lhs => rw [hcs]
    exact numberLength_append hr xs
  rw [List.length_take, List.length_append, List.length_cons] at hlength
  omega

/-- The text begins with a digit, or with a point and a digit. -/
def startsNumber : List Char → Bool
  | '.' :: d :: _ => Text.isDecimal d
  | c :: _ => Text.isDecimal c
  | [] => false

theorem significandLength_eq_zero_iff (cs : List Char) :
    significandLength cs = 0 ↔ startsNumber cs = false := by
  cases cs with
  | nil => simp [significandLength, startsNumber, runLength]
  | cons c cs =>
    by_cases hc : Text.isDecimal c = true
    · have hdot : c ≠ '.' := by
        rintro rfl
        exact absurd hc (by decide)
      have hlead : runLength Text.isDecimal (c :: cs) ≠ 0 := runLength_ne_zero_iff.mpr hc
      have hstart : startsNumber (c :: cs) = true := by
        unfold startsNumber
        split <;> simp_all
      have hle : runLength Text.isDecimal (c :: cs) ≤ significandLength (c :: cs) := by
        unfold significandLength
        simp only
        split
        · split <;> omega
        · exact le_rfl
      rw [hstart]
      simp only [Bool.true_eq_false, iff_false]
      omega
    · have hlead : runLength Text.isDecimal (c :: cs) = 0 := by simp [runLength, hc]
      by_cases hdot : c = '.'
      · subst hdot
        cases cs with
        | nil => decide
        | cons d ds =>
          have hd : runLength Text.isDecimal (d :: ds) = 0 ↔ Text.isDecimal d = false := by
            have hne : runLength Text.isDecimal (d :: ds) ≠ 0 ↔ Text.isDecimal d = true :=
              runLength_ne_zero_iff
            rw [← Bool.not_eq_true, ← hne]
            exact not_not.symm
          have hsig : significandLength ('.' :: d :: ds) = 0 ↔
              runLength Text.isDecimal (d :: ds) = 0 := by
            simp only [significandLength, hlead, List.drop_zero, beq_iff_eq]
            split <;> omega
          rw [hsig, hd]
          rfl
      · have hstart : startsNumber (c :: cs) = false := by
          unfold startsNumber
          split <;> simp_all
        simp [significandLength, hlead, hdot, hstart]

/-- The number rule applies exactly to the texts that begin like a number. -/
theorem numberLength_eq_zero_iff (cs : List Char) :
    numberLength cs = 0 ↔ startsNumber cs = false := by
  have hhex : hexLength cs ≠ 0 → significandLength cs ≠ 0 := by
    intro hne hsig
    unfold hexLength at hne
    split at hne
    · next more =>
      rw [significandLength_eq_zero_iff] at hsig
      exact absurd hsig (by simp [startsNumber, show Text.isDecimal '0' = true by decide])
    · exact hne rfl
  rw [← significandLength_eq_zero_iff, numberLength_eq]
  split
  · next hne =>
    have := hhex hne
    omega
  · split <;> omega

end Numbers

/-! ## Keywords -/

theorem forall_isIdentChar_of_mem_keywords {w : String} (hw : w ∈ keywords) :
    ∀ c ∈ w.toList, isIdentChar c = true := by
  have hall : keywords.all (fun w => w.toList.all isIdentChar) = true := by decide
  exact List.all_eq_true.mp (List.all_eq_true.mp hall w hw)

theorem takeWhile_append_of_boundary {xs rest : List Char}
    (hxs : ∀ c ∈ xs, isIdentChar c = true) (hr : Boundary rest) :
    (xs ++ rest).takeWhile isIdentChar = xs := by
  rw [← take_runLength, runLength_append (fun _ => id) hr, runLength_eq_length hxs,
    List.take_append_of_le_length le_rfl, List.take_length]

/-- The keyword rule takes all identifier characters at the start, provided that they are a
keyword. -/
theorem keywordLength_eq (cs : List Char) :
    keywordLength cs =
      if String.ofList (cs.takeWhile isIdentChar) ∈ keywords then identLength cs else 0 := by
  have hfits : ∀ w ∈ keywords,
      (w.toList.isPrefixOf cs && !(cs.drop w.length).head?.any isIdentChar) = true ↔
        w = String.ofList (cs.takeWhile isIdentChar) := by
    intro w hw
    have hboundary : ∀ rest : List Char, (!rest.head?.any isIdentChar) = true ↔ Boundary rest := by
      intro rest
      cases rest <;> simp [Boundary]
    rw [Bool.and_eq_true, List.isPrefixOf_iff_prefix, hboundary]
    constructor
    · rintro ⟨⟨rest, rfl⟩, hr⟩
      rw [← String.length_toList, List.drop_left] at hr
      rw [takeWhile_append_of_boundary (forall_isIdentChar_of_mem_keywords hw) hr,
        String.ofList_toList]
    · intro hw'
      have hword : w.toList = cs.takeWhile isIdentChar := by rw [hw', String.toList_ofList]
      have hrest : cs.drop w.length = cs.dropWhile isIdentChar := by
        rw [← String.length_toList, hword]
        exact drop_runLength isIdentChar cs
      rw [hword, hrest]
      exact ⟨List.takeWhile_prefix _, boundary_dropWhile cs⟩
  unfold keywordLength
  split
  · next w hw =>
    have hmem := List.mem_of_find?_eq_some hw
    have hfit := List.find?_some hw
    have hword := (hfits w hmem).mp hfit
    rw [← hword, if_pos hmem, ← String.length_toList, hword, String.toList_ofList]
    rfl
  · next hnone =>
    rw [if_neg]
    intro hmem
    exact List.find?_eq_none.mp hnone _ hmem ((hfits _ hmem).mpr rfl)

/-! ## Marks -/

section Marks

variable {mark : Char} {p : Char → Bool} {xs rest : List Char}

theorem markedLength_of_ne {c : Char} {cs : List Char} (h : c ≠ mark) :
    markedLength mark p (c :: cs) = 0 := by
  simp [markedLength, h]

/-- A mark and what belongs to it are taken up to the boundary. -/
theorem markedLength_append (hp : ∀ c, p c = true → isIdentChar c = true)
    (hxs : ∀ c ∈ xs, p c = true) (hne : xs ≠ []) (hr : Boundary rest) :
    markedLength mark p (mark :: (xs ++ rest)) = xs.length + 1 := by
  have hrun : runLength p (xs ++ rest) = xs.length := by
    rw [runLength_append hp hr, runLength_eq_length hxs]
  have hlength : xs.length ≠ 0 := by simpa using hne
  simp only [markedLength, hrun, beq_self_eq_true, Bool.true_and, bne_iff_ne, if_pos hlength]
  omega

/-- What a marked leaf keeps of the source. -/
theorem drop_take_markedLength {cs : List Char} (h : markedLength mark p cs ≠ 0) :
    ∃ ds, cs = mark :: ds ∧ markedLength mark p cs = runLength p ds + 1 ∧ runLength p ds ≠ 0 := by
  cases cs with
  | nil => exact absurd rfl h
  | cons c cs =>
    by_cases hc : c = mark
    · subst hc
      by_cases hrun : runLength p cs = 0
      · simp [markedLength, hrun] at h
      · exact ⟨cs, rfl, by simp [markedLength, hrun, Nat.add_comm], hrun⟩
    · exact absurd (markedLength_of_ne hc) h

end Marks

end Token

end Lisplet
