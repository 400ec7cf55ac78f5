import Lisplet.Proofs.Numeral.Digits

/-!
# Reading numbers

What the numbers of a source denote is said by a grammar: digits of base sixteen after the mark
`0x`, or decimal digits with a fraction and an exponent that may be missing. It describes the same
texts as the token rule for numbers, which looks for the longest number at the start of a text, and
reading one of them, which looks for marks anywhere in it, gives what it denotes. Only a whole
number in base ten can be too long to be read.

Main statements: `denotes_of_numberLength` and `read_of_denotes`.
-/

namespace Lisplet.Numeral

open Text Token

/-! ## Whole numbers -/

theorem plain_of_solid (text : String) (h : ∀ c ∈ text.toList, Solid c) :
    plain text = text.toList.map plainChar :=
  plain_of_not_blank text fun c hc => (h c hc).not_blank

theorem splitSign_of_solid {cs : List Char} (h : ∀ c ∈ cs, Solid c) :
    splitSign (cs.map plainChar) = (false, cs.map plainChar) := by
  cases cs with
  | nil => rfl
  | cons c cs =>
    have hc := h c List.mem_cons_self
    exact splitSign_of_ne (by simpa using hc.ne_plus) (by simpa using hc.ne_minus)

theorem dropMark_ten (cs : List Char) : dropMark 10 cs = cs := by
  unfold dropMark
  split <;> rfl

theorem dropMark_hex {cs : List Char} (h : ∀ more, cs ≠ '_' :: more) :
    dropMark 16 ('0' :: 'x' :: cs) = cs := by
  have hmark : (16 == 16 && ('x' == 'x' || 'x' == 'X')) = true := by decide
  unfold dropMark
  simp only [hmark, if_true]

theorem toList_ne_nil {text : String} (h : text ≠ "") : text.toList ≠ [] := by
  simpa [String.toList_eq_nil_iff] using h

/-- Digits, positional or not, are read in base ten if they are all decimal and not too many. -/
theorem readWhole_digits {text : String} (hne : text ≠ "")
    (h : ∀ c ∈ text.toList, isDigit c = true) :
    readWhole 10 text =
      if text.toList.all isDecimal = true then
        if maxDigits < text.toList.length then .error (.tooLong text.toList.length)
        else .ok (denoted 10 text.toList)
      else .error (.notWhole 10 text) := by
  have hsolid : ∀ c ∈ text.toList, Solid c := fun c hc => solid_of_isDigit (h c hc)
  unfold readWhole
  rw [plain_of_solid text hsolid, splitSign_of_solid hsolid]
  dsimp only
  rw [dropMark_ten]
  by_cases hdecimal : text.toList.all isDecimal = true
  · have hall := List.all_eq_true.mp hdecimal
    rw [if_pos hdecimal,
      digits?_map_plainChar (fun c hc => isDigitIn_ten (hall c hc)) (toList_ne_nil hne)]
    simp
  · rw [if_neg hdecimal]
    rw [List.all_eq_true] at hdecimal
    push Not at hdecimal
    obtain ⟨c, hc, hbad⟩ := hdecimal
    rw [digits?_of_not_isDecimal h ⟨c, hc, by simpa using hbad⟩]

/-- Digits of base sixteen after their mark are read, however many there are. -/
theorem readWhole_hex {ds : List Char} (hne : ds ≠ [])
    (h : ∀ d ∈ ds, isHexDigit d = true) :
    readWhole 16 (String.ofList ('0' :: 'x' :: ds)) = .ok (denoted 16 ds) := by
  have hx : Solid 'x' := by constructor <;> decide
  have hsolid : ∀ c ∈ '0' :: 'x' :: ds, Solid c := by
    intro c hc
    simp only [List.mem_cons] at hc
    rcases hc with rfl | rfl | hc
    · exact solid_of_isHexDigit (by decide)
    · exact hx
    · exact solid_of_isHexDigit (h c hc)
  have hplain := plain_of_solid (String.ofList ('0' :: 'x' :: ds))
    (by simpa using hsolid)
  rw [String.toList_ofList] at hplain
  have hmark : dropMark 16 (('0' :: 'x' :: ds).map plainChar) = ds.map plainChar := by
    refine dropMark_hex ?_
    rintro more hmore
    obtain ⟨d, _, hd, hsep, -⟩ := List.map_eq_cons_iff.mp hmore
    exact (hsolid d (by simp [hd])).ne_separator hsep
  unfold readWhole
  rw [hplain, splitSign_of_solid hsolid]
  dsimp only
  rw [hmark, digits?_map_plainChar (fun d hd => isDigitIn_sixteen (h d hd)) hne]
  simp

/-! ## Decimals -/

/-- A fraction with its digits: nothing, or a point and digits. -/
inductive IsFraction : List Char → List Char → Prop where
  | none : IsFraction [] []
  | digits {ds : List Char} (hne : ds ≠ []) (hds : ∀ d ∈ ds, isDecimal d = true) :
    IsFraction ('.' :: ds) ds

/-- An exponent with its value: nothing, or a mark, at most one sign, and digits. -/
inductive IsExponent : List Char → Int → Prop where
  | none : IsExponent [] 0
  | unsigned {mark : Char} {ds : List Char} (hmark : mark = 'e' ∨ mark = 'E') (hne : ds ≠ [])
    (hds : ∀ d ∈ ds, isDecimal d = true) : IsExponent (mark :: ds) (denoted 10 ds)
  | plus {mark : Char} {ds : List Char} (hmark : mark = 'e' ∨ mark = 'E') (hne : ds ≠ [])
    (hds : ∀ d ∈ ds, isDecimal d = true) : IsExponent (mark :: '+' :: ds) (denoted 10 ds)
  | minus {mark : Char} {ds : List Char} (hmark : mark = 'e' ∨ mark = 'E') (hne : ds ≠ [])
    (hds : ∀ d ∈ ds, isDecimal d = true) : IsExponent (mark :: '-' :: ds) (-denoted 10 ds)

/-- What a number of a source denotes. -/
inductive Denotes : List Char → Except ReadError Numeral → Prop where
  /-- Digits of base sixteen after their mark are a whole number. -/
  | hex {ds : List Char} (hne : ds ≠ []) (hds : ∀ d ∈ ds, isHexDigit d = true) :
    Denotes ('0' :: 'x' :: ds) (.ok (.whole (denoted 16 ds)))
  /-- Decimal digits alone are a whole number. -/
  | whole {ds : List Char} (hne : ds ≠ []) (hds : ∀ d ∈ ds, isDecimal d = true)
    (hlength : ds.length ≤ maxDigits) : Denotes ds (.ok (.whole (denoted 10 ds)))
  /-- So many decimal digits are not read. -/
  | tooLong {ds : List Char} (hds : ∀ d ∈ ds, isDecimal d = true)
    (hlength : maxDigits < ds.length) : Denotes ds (.error (.tooLong ds.length))
  /-- With a fraction or an exponent the number is a decimal. -/
  | decimal {lead point fraction tail : List Char} {e : Int}
    (hlead : ∀ d ∈ lead, isDecimal d = true) (hpoint : IsFraction point fraction)
    (htail : IsExponent tail e) (hdigits : lead ++ fraction ≠ []) (hmarked : point ++ tail ≠ []) :
    Denotes (lead ++ point ++ tail)
      (.ok (.decimal (scaled false (denoted 10 (lead ++ fraction)) (e - fraction.length))))

section Decimals

variable {lead point fraction tail ds : List Char} {e : Int}

theorem isPlainDigit_of_mem_map (h : ∀ d ∈ ds, isDecimal d = true) :
    ∀ c ∈ ds.map plainChar, isPlainDigit 10 c = true := by
  intro c hc
  obtain ⟨d, hd, rfl⟩ := List.mem_map.mp hc
  exact isPlainDigit_plainChar (isDigitIn_ten (h d hd))

theorem digitsValue_ten (h : ∀ d ∈ ds, isDecimal d = true) :
    digitsValue 10 (ds.map plainChar) = denoted 10 ds :=
  digitsValue_map_plainChar fun d hd => isHexDigit_of_isDecimal (h d hd)

theorem all_isPlainDigit (h : ∀ d ∈ ds, isDecimal d = true) (hne : ds ≠ []) :
    (!(ds.map plainChar).isEmpty && (ds.map plainChar).all (isPlainDigit 10)) = true := by
  have hall : (ds.map plainChar).all (isPlainDigit 10) = true :=
    List.all_eq_true.mpr (isPlainDigit_of_mem_map h)
  rw [hall]
  simpa using hne

/-- A run of characters that pass a test ends where the first one fails it. -/
theorem takeWhile_dropWhile_append {p : Char → Bool} {xs ys : List Char}
    (hxs : ∀ c ∈ xs, p c = true) (hys : ∀ c, ys.head? = some c → p c = false) :
    (xs ++ ys).takeWhile p = xs ∧ (xs ++ ys).dropWhile p = ys := by
  have hstop : ys.takeWhile p = [] ∧ ys.dropWhile p = ys := by
    cases ys with
    | nil => exact ⟨rfl, rfl⟩
    | cons c ys =>
      have hc : ¬p c = true := by simpa using hys c rfl
      exact ⟨List.takeWhile_cons_of_neg hc, List.dropWhile_cons_of_neg hc⟩
  rw [List.takeWhile_append_of_pos hxs, List.dropWhile_append_of_pos hxs, hstop.1, hstop.2,
    List.append_nil]
  exact ⟨rfl, rfl⟩

theorem exponent?_map (h : IsExponent tail e) : exponent? (tail.map plainChar) = some e := by
  -- whatever the sign, it is followed by digits, which are read as the number they denote
  have hcons : ∀ {mark : Char} {cs ds : List Char} (neg : Bool), (mark = 'e' ∨ mark = 'E') →
      ds ≠ [] → (∀ d ∈ ds, isDecimal d = true) →
      splitSign (cs.map plainChar) = (neg, ds.map plainChar) →
      exponent? ((mark :: cs).map plainChar) =
        some (if neg = true then -(denoted 10 ds : Int) else denoted 10 ds) := by
    intro mark cs ds neg hmark hne hds hsign
    have hplain : plainChar mark = 'e' ∨ plainChar mark = 'E' := by
      rcases hmark with rfl | rfl
      · exact .inl rfl
      · exact .inr rfl
    unfold exponent?
    rw [List.map_cons]
    dsimp only
    rw [if_pos (by simpa using hplain), hsign]
    dsimp only
    rw [if_pos (all_isPlainDigit hds hne), digitsValue_ten hds]
  cases h with
  | none => rfl
  | unsigned hmark hne hds =>
    have hsolid := fun d hd => solid_of_isHexDigit (isHexDigit_of_isDecimal (hds d hd))
    rw [hcons false hmark hne hds (splitSign_of_solid hsolid), if_neg Bool.false_ne_true]
  | plus hmark hne hds =>
    rw [hcons false hmark hne hds rfl, if_neg Bool.false_ne_true]
  | minus hmark hne hds =>
    rw [hcons true hmark hne hds rfl, if_pos rfl]

theorem head?_tail (h : IsExponent tail e) :
    ∀ c, (tail.map plainChar).head? = some c → c = 'e' ∨ c = 'E' := by
  have hmark : ∀ mark : Char, mark = 'e' ∨ mark = 'E' →
      plainChar mark = 'e' ∨ plainChar mark = 'E' := by
    rintro mark (rfl | rfl)
    · exact .inl rfl
    · exact .inr rfl
  intro c hc
  cases h with
  | none => cases hc
  | unsigned h _ _ | plus h _ _ | minus h _ _ =>
    obtain rfl := Option.some.inj hc
    exact hmark _ h

theorem not_isPlainDigit_mark {c : Char} (h : c = 'e' ∨ c = 'E') : isPlainDigit 10 c = false := by
  rcases h with rfl | rfl <;> decide

/-- A decimal is read in three runs: the digits before the point, those after it, and the
exponent. -/
theorem unsigned?_of_parts (point : List Char) {cs : List Char}
    (hlead : cs.takeWhile (isPlainDigit 10) = lead)
    (hrest : cs.dropWhile (isPlainDigit 10) = point ++ tail)
    (hpoint : point = [] ∧ fraction = [] ∧ (∀ more, tail ≠ '.' :: more) ∨
      point = '.' :: fraction ∧ (fraction ++ tail).takeWhile (isPlainDigit 10) = fraction ∧
        (fraction ++ tail).dropWhile (isPlainDigit 10) = tail)
    (hne : lead ++ fraction ≠ []) :
    unsigned? false cs = (exponent? tail).map fun e =>
      scaled false (digitsValue 10 (lead ++ fraction)) (e - fraction.length) := by
  have hempty : ¬(lead.isEmpty && fraction.isEmpty) = true := by
    simpa using hne
  unfold unsigned?
  dsimp only
  rw [hlead, hrest]
  rcases hpoint with ⟨rfl, rfl, hdot⟩ | ⟨rfl, htake, hdrop⟩
  · rw [List.nil_append]
    split
    · exact absurd rfl (hdot _)
    · exact if_neg hempty
  · show (if lead.isEmpty && ((fraction ++ tail).takeWhile (isPlainDigit 10)).isEmpty then none
      else (exponent? ((fraction ++ tail).dropWhile (isPlainDigit 10))).map fun e =>
        scaled false (digitsValue 10 (lead ++ (fraction ++ tail).takeWhile (isPlainDigit 10)))
          (e - ((fraction ++ tail).takeWhile (isPlainDigit 10)).length)) = _
    rw [htake, hdrop, if_neg hempty]

/-- A decimal is read as its digits, scaled by its exponent and the length of its fraction. -/
theorem unsigned?_map (hlead : ∀ d ∈ lead, isDecimal d = true) (hpoint : IsFraction point fraction)
    (htail : IsExponent tail e) (hdigits : lead ++ fraction ≠ []) :
    unsigned? false ((lead ++ point ++ tail).map plainChar) =
      some (scaled false (denoted 10 (lead ++ fraction)) (e - fraction.length)) := by
  have hstop : ∀ c, (tail.map plainChar).head? = some c → isPlainDigit 10 c = false :=
    fun c hc => not_isPlainDigit_mark (head?_tail htail c hc)
  have hlead' := isPlainDigit_of_mem_map hlead
  have hne : lead.map plainChar ++ fraction.map plainChar ≠ [] := by simpa using hdigits
  have hdecimal : ∀ d ∈ fraction, isDecimal d = true := by
    cases hpoint with
    | none => simp
    | digits _ hds => exact hds
  have hall : ∀ d ∈ lead ++ fraction, isDecimal d = true := by
    intro d hd
    rcases List.mem_append.mp hd with hd | hd
    · exact hlead d hd
    · exact hdecimal d hd
  have hparts : unsigned? false ((lead ++ point ++ tail).map plainChar) =
      (exponent? (tail.map plainChar)).map fun e =>
        scaled false (digitsValue 10 (lead.map plainChar ++ fraction.map plainChar))
          (e - (fraction.map plainChar).length) := by
    cases hpoint with
    | none =>
      obtain ⟨htake, hdrop⟩ := takeWhile_dropWhile_append hlead' hstop
      rw [List.append_nil, List.map_append]
      refine unsigned?_of_parts [] htake hdrop (.inl ⟨rfl, rfl, fun more heq => ?_⟩) hne
      have hdot := head?_tail htail '.' (by rw [heq]; rfl)
      revert hdot
      decide
    | digits _ hds =>
      have hdot : ∀ c, ('.' :: (fraction.map plainChar ++ tail.map plainChar)).head? = some c →
          isPlainDigit 10 c = false := by
        intro c hc
        obtain rfl := Option.some.inj hc
        decide
      have hmap : (lead ++ '.' :: fraction ++ tail).map plainChar =
          lead.map plainChar ++ '.' :: (fraction.map plainChar ++ tail.map plainChar) := by
        rw [List.append_assoc, List.cons_append, List.map_append, List.map_cons, List.map_append]
        rfl
      obtain ⟨htake, hdrop⟩ := takeWhile_dropWhile_append hlead' hdot
      rw [hmap]
      exact unsigned?_of_parts ('.' :: fraction.map plainChar) htake hdrop
        (.inr ⟨rfl, takeWhile_dropWhile_append (isPlainDigit_of_mem_map hds) hstop⟩) hne
  rw [hparts, exponent?_map htail, ← List.map_append, digitsValue_ten hall, List.length_map]
  rfl

/-- What a decimal contains besides digits. -/
def decimalMarks : List Char := ['.', 'e', 'E', '+', '-']

/-- The characters of a decimal are digits, points, marks and signs. -/
theorem mem_decimal (hlead : ∀ d ∈ lead, isDecimal d = true) (hpoint : IsFraction point fraction)
    (htail : IsExponent tail e) : ∀ c ∈ lead ++ point ++ tail,
      isDecimal c = true ∨ c ∈ decimalMarks := by
  intro c hc
  rw [List.mem_append, List.mem_append] at hc
  rcases hc with (hc | hc) | hc
  · exact .inl (hlead c hc)
  · cases hpoint with
    | none => cases hc
    | digits hne hds =>
      rcases List.mem_cons.mp hc with rfl | hc
      · exact .inr (by decide)
      · exact .inl (hds c hc)
  · have hmark : ∀ {mark : Char}, mark = 'e' ∨ mark = 'E' → mark ∈ decimalMarks := by
      rintro mark (rfl | rfl) <;> decide
    cases htail with
    | none => cases hc
    | unsigned h hne hds =>
      rcases List.mem_cons.mp hc with rfl | hc
      · exact .inr (hmark h)
      · exact .inl (hds c hc)
    | plus h hne hds | minus h hne hds =>
      rcases List.mem_cons.mp hc with rfl | hc
      · exact .inr (hmark h)
      · rcases List.mem_cons.mp hc with rfl | hc
        · exact .inr (by decide)
        · exact .inl (hds c hc)

/-- A fraction begins with a point, and an exponent with a mark. -/
theorem exists_decimalMark (hpoint : IsFraction point fraction) (htail : IsExponent tail e)
    (hmarked : point ++ tail ≠ []) :
    ∃ c ∈ lead ++ point ++ tail, c = '.' ∨ c = 'e' ∨ c = 'E' := by
  cases hpoint with
  | digits _ _ => exact ⟨'.', by simp, .inl rfl⟩
  | none =>
    cases htail with
    | none => exact absurd rfl hmarked
    | unsigned h _ _ | plus h _ _ | minus h _ _ => exact ⟨_, by simp, .inr h⟩

/-- A decimal begins with a digit or a point. -/
theorem exists_head_decimal (tail : List Char) (hlead : ∀ d ∈ lead, isDecimal d = true)
    (hpoint : IsFraction point fraction) (hdigits : lead ++ fraction ≠ []) :
    ∃ c cs, lead ++ point ++ tail = c :: cs ∧ (isDecimal c = true ∨ c = '.') := by
  cases lead with
  | cons c lead => exact ⟨c, _, rfl, .inl (hlead c List.mem_cons_self)⟩
  | nil =>
    cases hpoint with
    | none => exact absurd rfl hdigits
    | digits hne hds => exact ⟨'.', _, rfl, .inr rfl⟩

/-- What begins with a digit or a point is no name of a number. -/
theorem named?_of_head {c : Char} {cs : List Char} (h : isDecimal c = true ∨ c = '.') :
    named? false ((c :: cs).map plainChar) = none := by
  have hlower : (plainChar c).toLower ≠ 'i' ∧ (plainChar c).toLower ≠ 'n' := by
    rcases h with hd | rfl
    · obtain ⟨v, hv⟩ := exists_digitValue? hd
      have hall : ∀ v < 10, (Char.ofNat (48 + v)).toLower ≠ 'i' ∧
          (Char.ofNat (48 + v)).toLower ≠ 'n' := by decide
      have hcode := hall v (digitValue?_lt hv)
      rwa [← toNat_plainChar_digit hv, Char.ofNat_toNat] at hcode
    · decide
  unfold named?
  simp [List.map_cons, hlower.1, hlower.2]

theorem readDecimal_of_parts (hlead : ∀ d ∈ lead, isDecimal d = true)
    (hpoint : IsFraction point fraction) (htail : IsExponent tail e)
    (hdigits : lead ++ fraction ≠ []) :
    readDecimal (String.ofList (lead ++ point ++ tail)) =
      .ok (scaled false (denoted 10 (lead ++ fraction)) (e - fraction.length)) := by
  have hmem := mem_decimal hlead hpoint htail
  have hclear : ∀ c ∈ lead ++ point ++ tail, isPlainBlank (plainChar c) = false ∧
      plainChar c ≠ '_' := by
    intro c hc
    rcases hmem c hc with hd | hc
    · have hsolid := solid_of_isHexDigit (isHexDigit_of_isDecimal hd)
      exact ⟨hsolid.not_blank, hsolid.ne_separator⟩
    · have hall : decimalMarks.all (fun c => !isPlainBlank (plainChar c) && plainChar c != '_') =
          true := by decide
      simpa using List.all_eq_true.mp hall c hc
  have hplain : plain (String.ofList (lead ++ point ++ tail)) =
      (lead ++ point ++ tail).map plainChar := by
    have h := plain_of_not_blank (String.ofList (lead ++ point ++ tail))
    rw [String.toList_ofList] at h
    exact h fun c hc => (hclear c hc).1
  have hsep : '_' ∉ (lead ++ point ++ tail).map plainChar := by
    intro h
    obtain ⟨c, hc, heq⟩ := List.mem_map.mp h
    exact (hclear c hc).2 heq
  obtain ⟨c, cs, hcons, hhead⟩ := exists_head_decimal tail hlead hpoint hdigits
  have hsign : splitSign ((lead ++ point ++ tail).map plainChar) =
      (false, (lead ++ point ++ tail).map plainChar) := by
    have hne : plainChar c ≠ '+' ∧ plainChar c ≠ '-' := by
      rcases hhead with hd | rfl
      · have hsolid := solid_of_isHexDigit (isHexDigit_of_isDecimal hd)
        exact ⟨hsolid.ne_plus, hsolid.ne_minus⟩
      · decide
    rw [hcons]
    exact splitSign_of_ne (by simpa using hne.1) (by simpa using hne.2)
  have hnamed : named? false ((lead ++ point ++ tail).map plainChar) = none := by
    rw [hcons]
    exact named?_of_head hhead
  unfold readDecimal
  rw [hplain, dropSeparators_of_not_mem hsep]
  dsimp only [Option.bind_some]
  rw [hsign]
  dsimp only
  rw [hnamed, unsigned?_map hlead hpoint htail hdigits, Option.none_or]

end Decimals

/-! ## Numbers of a source -/

/-- A text that does not begin with a mark of base sixteen is read by what marks it contains. -/
theorem read_of_not_mark {text : String} (h : ∀ c ∈ text.toList, c ≠ 'x' ∧ c ≠ 'X') :
    read text =
      if text.toList.any fun c => c == '.' || c == 'e' || c == 'E' then
        (readDecimal text).map .decimal
      else (readWhole 10 text).map .whole := by
  unfold read
  split
  · next rest heq => exact absurd rfl (h 'x' (by simp [heq])).1
  · next rest heq => exact absurd rfl (h 'X' (by simp [heq])).2
  · rfl

theorem ne_of_isDecimal {c d : Char} (hc : isDecimal c = true)
    (hd : d ∈ ['x', 'X', '.', 'e', 'E']) : c ≠ d := by
  have hall : ['x', 'X', '.', 'e', 'E'].all (fun d => !isDecimal d) = true := by decide
  rintro rfl
  have hnot := List.all_eq_true.mp hall c hd
  rw [hc] at hnot
  cases hnot

theorem read_digits {ds : List Char} (hne : ds ≠ []) (hds : ∀ d ∈ ds, isDecimal d = true) :
    read (String.ofList ds) =
      if maxDigits < ds.length then .error (.tooLong ds.length)
      else .ok (.whole (denoted 10 ds)) := by
  have hmark : ∀ c ∈ (String.ofList ds).toList, c ≠ 'x' ∧ c ≠ 'X' := by
    rw [String.toList_ofList]
    exact fun c hc => ⟨ne_of_isDecimal (hds c hc) (by decide),
      ne_of_isDecimal (hds c hc) (by decide)⟩
  have hwhole :
      ¬(String.ofList ds).toList.any (fun c => c == '.' || c == 'e' || c == 'E') = true := by
    rw [String.toList_ofList, List.any_eq_true]
    rintro ⟨c, hc, hcase⟩
    simp only [Bool.or_eq_true, beq_iff_eq] at hcase
    rcases hcase with (hc' | hc') | hc' <;>
      exact ne_of_isDecimal (hds c hc) (by decide) hc'
  have hdigits : ∀ c ∈ (String.ofList ds).toList, isDigit c = true := by
    rw [String.toList_ofList]
    intro c hc
    simp only [isDigit, hds c hc, Bool.true_or]
  have hempty : String.ofList ds ≠ "" := by
    intro h
    exact hne (by rw [← String.toList_ofList (l := ds), h]; rfl)
  rw [read_of_not_mark hmark, if_neg hwhole, readWhole_digits hempty hdigits, String.toList_ofList,
    if_pos (List.all_eq_true.mpr hds)]
  split <;> rfl

/-- A number of a source is read as what it denotes. -/
theorem read_of_denotes {text : String} {result : Except ReadError Numeral}
    (h : Denotes text.toList result) : read text = result := by
  obtain ⟨cs, rfl⟩ : ∃ cs, text = String.ofList cs := ⟨text.toList, by rw [String.ofList_toList]⟩
  rw [String.toList_ofList] at h
  cases h with
  | hex hne hds =>
    unfold read
    rw [String.toList_ofList, readWhole_hex hne hds]
    rfl
  | whole hne hds hlength => rw [read_digits hne hds, if_neg (by omega)]
  | tooLong hds hlength =>
    have hne : cs ≠ [] := by
      rintro rfl
      exact absurd hlength (Nat.not_lt_zero _)
    rw [read_digits hne hds, if_pos hlength]
  | decimal hlead hpoint htail hdigits hmarked =>
    next lead point fraction tail e =>
    have hmem := mem_decimal hlead hpoint htail
    have hmark : ∀ c ∈ (String.ofList (lead ++ point ++ tail)).toList, c ≠ 'x' ∧ c ≠ 'X' := by
      rw [String.toList_ofList]
      intro c hc
      rcases hmem c hc with hd | hc
      · exact ⟨ne_of_isDecimal hd (by decide), ne_of_isDecimal hd (by decide)⟩
      · have hall : decimalMarks.all (fun c => c != 'x' && c != 'X') = true := by decide
        simpa using List.all_eq_true.mp hall c hc
    have hdecimal : (String.ofList (lead ++ point ++ tail)).toList.any
        (fun c => c == '.' || c == 'e' || c == 'E') = true := by
      rw [String.toList_ofList, List.any_eq_true]
      obtain ⟨c, hc, hmarks⟩ := exists_decimalMark hpoint htail hmarked
      exact ⟨c, hc, by simpa [or_assoc] using hmarks⟩
    rw [read_of_not_mark hmark, if_pos hdecimal, readDecimal_of_parts hlead hpoint htail hdigits]
    rfl

/-! ## Numbers by the token rule -/

theorem forall_of_runLength_eq {p : Char → Bool} {cs : List Char}
    (h : runLength p cs = cs.length) : ∀ c ∈ cs, p c = true := by
  have htake := forall_mem_take_runLength (Nat.le_of_eq h.symm)
  rwa [List.take_length] at htake

theorem sign_cases (cs : List Char) :
    signLength cs = 0 ∨ (∃ ds, cs = '+' :: ds) ∨ ∃ ds, cs = '-' :: ds := by
  unfold signLength
  split
  · next ds => exact .inr (.inl ⟨ds, rfl⟩)
  · next ds => exact .inr (.inr ⟨ds, rfl⟩)
  · exact .inl rfl

theorem exists_of_hexLength {cs : List Char} (h : hexLength cs ≠ 0) :
    ∃ ds, cs = '0' :: 'x' :: ds ∧ ds ≠ [] ∧ hexLength cs = runLength isHexDigit ds := by
  unfold hexLength at h ⊢
  split at h
  · next ds =>
    refine ⟨ds, rfl, ?_, rfl⟩
    rintro rfl
    exact h rfl
  · exact absurd rfl h

/-- An exponent that the token rule takes as a whole is one. -/
theorem exists_isExponent {cs : List Char} (h : exponentLength cs = cs.length) :
    ∃ e, IsExponent cs e := by
  cases cs with
  | nil => exact ⟨0, .none⟩
  | cons mark cs =>
    rw [exponentLength_cons, List.length_cons] at h
    by_cases hmark : mark = 'e' ∨ mark = 'E'
    · rw [if_pos hmark] at h
      by_cases hzero : runLength isDecimal (cs.drop (signLength cs)) = 0
      · rw [if_pos hzero] at h
        omega
      · rw [if_neg hzero] at h
        -- the digits are what follows the sign, and they reach to the end
        have hdigits : ∀ ds : List Char, ds = cs.drop (signLength cs) → signLength cs ≤ cs.length →
            ds ≠ [] ∧ ∀ d ∈ ds, isDecimal d = true := by
          rintro ds rfl hle
          refine ⟨fun hnil => hzero (by rw [hnil]; rfl), forall_of_runLength_eq ?_⟩
          rw [List.length_drop]
          omega
        rcases sign_cases cs with hsign | ⟨ds, rfl⟩ | ⟨ds, rfl⟩
        · obtain ⟨hne, hds⟩ := hdigits cs (by rw [hsign, List.drop_zero]) (by omega)
          exact ⟨_, .unsigned hmark hne hds⟩
        · obtain ⟨hne, hds⟩ := hdigits ds rfl (by simp [signLength])
          exact ⟨_, .plus hmark hne hds⟩
        · obtain ⟨hne, hds⟩ := hdigits ds rfl (by simp [signLength])
          exact ⟨_, .minus hmark hne hds⟩
    · rw [if_neg hmark] at h
      omega

/-- What the token rule takes before the exponent is digits with a fraction that may be missing. -/
theorem exists_significand {cs : List Char} (h : significandLength cs ≠ 0) :
    ∃ lead point fraction, cs.take (significandLength cs) = lead ++ point ∧
      (∀ d ∈ lead, isDecimal d = true) ∧ IsFraction point fraction ∧ lead ++ fraction ≠ [] := by
  have hlead : ∀ d ∈ cs.take (runLength isDecimal cs), isDecimal d = true :=
    forall_mem_take_runLength (Nat.le_refl _)
  have hplain : significandLength cs = runLength isDecimal cs →
      ∃ lead point fraction, cs.take (significandLength cs) = lead ++ point ∧
        (∀ d ∈ lead, isDecimal d = true) ∧ IsFraction point fraction ∧ lead ++ fraction ≠ [] := by
    intro hlength
    refine ⟨_, [], [], by rw [hlength, List.append_nil], hlead, .none, ?_⟩
    rw [List.append_nil]
    exact take_runLength_ne_nil (by omega)
  cases hmore : cs.drop (runLength isDecimal cs) with
  | nil => exact hplain (by simp [significandLength, hmore])
  | cons c more =>
    by_cases hdot : c = '.'
    · subst hdot
      by_cases hzero : runLength isDecimal more = 0
      · exact hplain (by simp [significandLength, hmore, hzero])
      · have hlength : significandLength cs =
            runLength isDecimal cs + (1 + runLength isDecimal more) := by
          simp [significandLength, hmore, hzero, Nat.add_assoc]
        refine ⟨_, '.' :: more.take (runLength isDecimal more),
          more.take (runLength isDecimal more), ?_, hlead,
          .digits ?_ (forall_mem_take_runLength (Nat.le_refl _)), ?_⟩
        · rw [hlength, List.take_add, hmore, Nat.add_comm 1, List.take_succ_cons]
        · exact take_runLength_ne_nil hzero
        · exact fun hnil => take_runLength_ne_nil hzero (List.append_eq_nil_iff.mp hnil).2
    · exact hplain (by simp [significandLength, hmore, hdot])

/-- A text that the token rule takes as a whole denotes a number, or is too long to be read. -/
theorem denotes_of_numberLength {cs : List Char} (hne : cs ≠ [])
    (h : numberLength cs = cs.length) : ∃ result, Denotes cs result := by
  have hpos : cs.length ≠ 0 := by simpa using hne
  rw [numberLength_eq] at h
  by_cases hhex : hexLength cs = 0
  · rw [if_neg (not_not_intro hhex)] at h
    by_cases hsig : significandLength cs = 0
    · rw [if_pos hsig] at h
      omega
    · rw [if_neg hsig] at h
      obtain ⟨lead, point, fraction, htake, hlead, hpoint, hdigits⟩ := exists_significand hsig
      have hrest : exponentLength (cs.drop (significandLength cs)) =
          (cs.drop (significandLength cs)).length := by
        rw [List.length_drop]
        omega
      obtain ⟨e, htail⟩ := exists_isExponent hrest
      have hparts : cs = lead ++ point ++ cs.drop (significandLength cs) := by
        rw [← htake, List.take_append_drop]
      by_cases hmarked : point ++ cs.drop (significandLength cs) = []
      · obtain ⟨rfl, htail⟩ := List.append_eq_nil_iff.mp hmarked
        rw [htail, List.append_nil, List.append_nil] at hparts
        rw [← hparts] at hlead
        by_cases hlength : cs.length ≤ maxDigits
        · exact ⟨_, .whole hne hlead hlength⟩
        · exact ⟨_, .tooLong hlead (Nat.lt_of_not_le hlength)⟩
      · rw [hparts]
        exact ⟨_, .decimal hlead hpoint htail hdigits hmarked⟩
  · obtain ⟨ds, rfl, hds, hlength⟩ := exists_of_hexLength hhex
    rw [if_pos hhex, hlength, List.length_cons, List.length_cons] at h
    exact ⟨_, .hex hds (forall_of_runLength_eq (by omega))⟩

end Lisplet.Numeral
