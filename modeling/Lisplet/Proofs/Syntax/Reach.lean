import Lisplet.Proofs.Syntax.Scanning

/-!
# How far a token reaches

A token is found again in any text that has the same beginning and then a boundary, however long the
part is that the two texts have in common, as long as it holds the token (`lexeme?_take_append`).
The one token that looks further is an identifier that begins with a quote: it is one only as long
as the quote is not closed.
-/

namespace Lisplet.Token

/-! ## Closing quotes -/

/-- Induction along the search for a closing quote: a backslash is read together with the character
that it hides, if there is one. -/
@[elab_as_elim]
theorem quoted_induction {motive : List Char → Prop} (nil : motive [])
    (quote : ∀ cs, motive ('"' :: cs)) (hidden : ∀ c cs, motive cs → motive ('\\' :: c :: cs))
    (last : motive ['\\'])
    (plain : ∀ c cs, c ≠ '"' → c ≠ '\\' → motive cs → motive (c :: cs)) : ∀ cs, motive cs
  | [] => nil
  | [c] => by
    by_cases hq : c = '"'
    · exact hq ▸ quote []
    · by_cases hb : c = '\\'
      · exact hb ▸ last
      · exact plain c [] hq hb nil
  | c :: d :: cs => by
    by_cases hq : c = '"'
    · exact hq ▸ quote (d :: cs)
    · by_cases hb : c = '\\'
      · exact hb ▸ hidden d cs (quoted_induction nil quote hidden last plain cs)
      · exact plain c (d :: cs) hq hb (quoted_induction nil quote hidden last plain (d :: cs))

theorem closingQuote?_le {cs : List Char} {k : Nat} (h : closingQuote? cs = some k) :
    k ≤ cs.length := by
  induction cs using quoted_induction generalizing k with
  | nil => cases h
  | quote cs =>
    obtain rfl := Option.some.inj h
    simp
  | hidden c cs ih =>
    rw [closingQuote?_hidden, Option.map_eq_some_iff] at h
    obtain ⟨j, hj, rfl⟩ := h
    have := ih hj
    simp only [List.length_cons]
    omega
  | last => cases h
  | plain c cs hq hb ih =>
    rw [closingQuote?_cons hq hb, Option.map_eq_some_iff] at h
    obtain ⟨j, hj, rfl⟩ := h
    have := ih hj
    simp only [List.length_cons]
    omega

/-- A quote that is closed stays closed when the text is cut off after it and goes on in another
way. -/
theorem closingQuote?_take_append {cs : List Char} {k m : Nat} (h : closingQuote? cs = some k)
    (hm : k ≤ m) (rest : List Char) : closingQuote? (cs.take m ++ rest) = some k := by
  induction cs using quoted_induction generalizing k m with
  | nil => cases h
  | quote cs =>
    obtain rfl := Option.some.inj h
    obtain ⟨m, rfl⟩ := Nat.exists_eq_add_of_le' hm
    rfl
  | hidden c cs ih =>
    rw [closingQuote?_hidden, Option.map_eq_some_iff] at h
    obtain ⟨j, hj, rfl⟩ := h
    obtain ⟨m, rfl⟩ := Nat.exists_eq_add_of_le' (show 2 ≤ m by omega)
    rw [List.take_succ_cons, List.take_succ_cons, List.cons_append, List.cons_append,
      closingQuote?_hidden, ih hj (by omega)]
    rfl
  | last => cases h
  | plain c cs hq hb ih =>
    rw [closingQuote?_cons hq hb, Option.map_eq_some_iff] at h
    obtain ⟨j, hj, rfl⟩ := h
    obtain ⟨m, rfl⟩ := Nat.exists_eq_add_of_le' (show 1 ≤ m by omega)
    rw [List.take_succ_cons, List.cons_append, closingQuote?_cons hq hb, ih hj (by omega)]
    rfl

/-- What comes first in a text without a closing quote has none either. -/
theorem closingQuote?_of_append {xs rest : List Char} (h : closingQuote? (xs ++ rest) = none) :
    closingQuote? xs = none := by
  cases hxs : closingQuote? xs with
  | none => rfl
  | some k =>
    have hclosed := closingQuote?_take_append hxs (closingQuote?_le hxs) rest
    rw [List.take_length, h] at hclosed
    cases hclosed

/-- Only a quote can close a quote. -/
theorem closingQuote?_append_of_notMem {xs ys : List Char} (h : closingQuote? xs = none)
    (hys : '"' ∉ ys) : closingQuote? (xs ++ ys) = none := by
  induction xs using quoted_induction with
  | nil => exact closingQuote?_eq_none hys
  | quote xs => cases h
  | hidden c xs ih =>
    rw [closingQuote?_hidden, Option.map_eq_none_iff] at h
    rw [List.cons_append, List.cons_append, closingQuote?_hidden, ih h]
    rfl
  | last => exact closingQuote?_eq_none (by simpa using hys)
  | plain c xs hq hb ih =>
    rw [closingQuote?_cons hq hb, Option.map_eq_none_iff] at h
    rw [List.cons_append, closingQuote?_cons hq hb, ih h]
    rfl

/-- A line feed ends what a backslash can hide, so that the next line is read afresh. -/
theorem closingQuote?_append_lineFeed {xs ys : List Char} (hxs : closingQuote? xs = none)
    (hys : closingQuote? ys = none) : closingQuote? (xs ++ '\n' :: ys) = none := by
  induction xs using quoted_induction with
  | nil =>
    rw [List.nil_append, closingQuote?_cons (by decide) (by decide), hys]
    rfl
  | quote xs => cases hxs
  | hidden c xs ih =>
    rw [closingQuote?_hidden, Option.map_eq_none_iff] at hxs
    rw [List.cons_append, List.cons_append, closingQuote?_hidden, ih hxs]
    rfl
  | last =>
    rw [List.singleton_append, closingQuote?_hidden, hys]
    rfl
  | plain c xs hq hb ih =>
    rw [closingQuote?_cons hq hb, Option.map_eq_none_iff] at hxs
    rw [List.cons_append, closingQuote?_cons hq hb, ih hxs]
    rfl

/-- Characters that are neither quotes nor backslashes do not matter. -/
theorem closingQuote?_plain_append {xs ys : List Char} (hquote : '"' ∉ xs) (hback : '\\' ∉ xs)
    (hys : closingQuote? ys = none) : closingQuote? (xs ++ ys) = none := by
  induction xs with
  | nil => exact hys
  | cons x xs ih =>
    rw [List.mem_cons, not_or] at hquote hback
    rw [List.cons_append, closingQuote?_cons (Ne.symm hquote.1) (Ne.symm hback.1),
      ih hquote.2 hback.2]
    rfl

/-! ## Rules on a common beginning -/

/-- The first rule that applies makes the leaf. -/
theorem leaf?_of_first (before : List Rule) {after : List Rule} {r : Rule} {cs own : List Char}
    {n : Nat} (hrules : rules = before ++ r :: after) (hbefore : ∀ q ∈ before, q.length cs = 0)
    (hlength : r.length cs = n) (hn : n ≠ 0) (hown : cs.take n = own) :
    leaf? cs = some (.leaf r.kind (String.ofList (r.text own)), n) := by
  have hfind : rules.find? (fun r => r.length cs != 0) = some r := by
    rw [List.find?_eq_some_iff_append]
    exact ⟨by simpa [hlength] using hn, before, after, hrules, fun q hq => by simp [hbefore q hq]⟩
  rw [leaf?, hfind, Option.map_some, hlength, hown]

theorem stringLength_cons (cs : List Char) :
    stringLength ('"' :: cs) = ((closingQuote? cs).map (· + 1)).getD 0 := rfl

theorem exists_of_stringLength {cs : List Char} (h : stringLength cs ≠ 0) :
    ∃ ds k, cs = '"' :: ds ∧ closingQuote? ds = some k ∧ stringLength cs = k + 1 := by
  by_cases hhead : cs.head? = some '"'
  · obtain ⟨ds, rfl⟩ := List.head?_eq_some_iff.mp hhead
    cases hclose : closingQuote? ds with
    | none => simp [stringLength_cons, hclose] at h
    | some k => exact ⟨ds, k, rfl, hclose, by simp [stringLength_cons, hclose]⟩
  · exact absurd (stringLength_of_head hhead) h

/-- A keyword begins with no quote. -/
theorem head?_of_keyword {cs : List Char} (h : keywordLength cs ≠ 0) : cs.head? ≠ some '"' := by
  intro hhead
  obtain ⟨ds, rfl⟩ := List.head?_eq_some_iff.mp hhead
  have hall : ∀ w ∈ keywords, w.toList.head? ≠ some '"' := by decide
  rw [keywordLength_eq] at h
  split at h
  · next hmem =>
    refine hall _ hmem ?_
    rw [String.toList_ofList, List.takeWhile_cons, if_pos (by decide)]
    rfl
  · exact h rfl

/-- The rules before that for numbers do not apply to a number. -/
theorem lengths_of_number {cs : List Char} (h : numberLength cs ≠ 0) :
    stringLength cs = 0 ∧ keywordLength cs = 0 ∧ keyLength cs = 0 := by
  refine ⟨stringLength_of_head fun hhead => ?_, ?_, ?_⟩
  · obtain ⟨ds, rfl⟩ := List.head?_eq_some_iff.mp hhead
    exact h ((numberLength_eq_zero_iff _).mpr (show Text.isDecimal '"' = false by decide))
  · have hall : ∀ w ∈ keywords, numberLength w.toList = 0 := by decide
    rw [keywordLength_eq, if_neg]
    intro hmem
    have hzero := hall _ hmem
    rw [String.toList_ofList, ← numberLength_append (boundary_dropWhile cs),
      List.takeWhile_append_dropWhile] at hzero
    exact h hzero
  · cases cs with
    | nil => rfl
    | cons c cs =>
      by_cases hc : c = ':'
      · exact absurd (lengths_of_mark (.inl hc) cs).2.2 h
      · exact markedLength_of_ne hc

section Cut

variable {p : Char → Bool} {cs rest : List Char} {m : Nat}

theorem runLength_take_append (hp : ∀ c, p c = true → isIdentChar c = true) (hr : Boundary rest)
    (hm : runLength p cs ≤ m) : runLength p (cs.take m ++ rest) = runLength p cs := by
  rw [runLength_append hp hr, runLength_take hm]

theorem markedLength_take_append {mark : Char} (hp : ∀ c, p c = true → isIdentChar c = true)
    (hr : Boundary rest) (hne : markedLength mark p cs ≠ 0) (hm : markedLength mark p cs ≤ m) :
    markedLength mark p (cs.take m ++ rest) = markedLength mark p cs := by
  obtain ⟨ds, rfl, hlength, hrun⟩ := drop_take_markedLength hne
  obtain ⟨k, rfl⟩ := Nat.exists_eq_add_of_le' (show 1 ≤ m by omega)
  have hcut : runLength p (ds.take k ++ rest) = runLength p ds :=
    runLength_take_append hp hr (by omega)
  rw [List.take_succ_cons, List.cons_append]
  simp only [markedLength, hcut]

theorem numberLength_take_append (hr : Boundary rest) (hm : numberLength cs ≤ m) :
    numberLength (cs.take m ++ rest) = numberLength cs := by
  rw [numberLength_append hr, numberLength_take hm]

theorem take_take_append {n : Nat} (hn : n ≤ cs.length) (hm : n ≤ m) :
    (cs.take m ++ rest).take n = cs.take n := by
  rw [List.take_append_of_le_length (by rw [List.length_take]; omega), List.take_take,
    Nat.min_eq_left hm]

/-- Whether identifier characters are a keyword does not depend on what comes after them. -/
theorem keywordLength_take_append (hr : Boundary rest) (hm : identLength cs ≤ m) :
    keywordLength (cs.take m ++ rest) = keywordLength cs := by
  have hrun : identLength (cs.take m ++ rest) = identLength cs :=
    runLength_take_append (fun _ => id) hr hm
  have hword : (cs.take m ++ rest).takeWhile isIdentChar = cs.takeWhile isIdentChar := by
    rw [← take_runLength, ← take_runLength, ← identLength, hrun]
    exact take_take_append (runLength_le _ _) hm
  rw [keywordLength_eq, keywordLength_eq, hword, hrun]

end Cut

theorem leaf?_length_le {cs : List Char} {x : Lexeme} {n : Nat} (h : leaf? cs = some (x, n)) :
    n ≤ cs.length := by
  have hmarked : ∀ {mark : Char} {p : Char → Bool}, markedLength mark p cs ≠ 0 →
      markedLength mark p cs ≤ cs.length := by
    intro mark p hne
    obtain ⟨ds, rfl, hlength, -⟩ := drop_take_markedLength hne
    have := runLength_le p ds
    rw [hlength, List.length_cons]
    omega
  obtain ⟨hn, ⟨rfl, -⟩ | ⟨rfl, -⟩ | ⟨rfl, -⟩ | ⟨rfl, -⟩ | ⟨rfl, -⟩ | ⟨rfl, -⟩⟩ := leaf?_cases h
  · obtain ⟨ds, k, rfl, hclose, hlength⟩ := exists_of_stringLength hn
    have := closingQuote?_le hclose
    rw [hlength, List.length_cons]
    omega
  · rw [keywordLength_eq]
    split
    · exact runLength_le _ _
    · exact Nat.zero_le _
  · exact hmarked hn
  · exact numberLength_le cs
  · exact hmarked hn
  · exact runLength_le _ _

/-- A string that is closed within the common part is found again. -/
theorem stringLength_take_append {cs : List Char} {m : Nat} (hne : stringLength cs ≠ 0)
    (hm : stringLength cs ≤ m) (rest : List Char) :
    stringLength (cs.take m ++ rest) = stringLength cs := by
  obtain ⟨ds, k, rfl, hclose, hlength⟩ := exists_of_stringLength hne
  obtain ⟨m, rfl⟩ := Nat.exists_eq_add_of_le' (show 1 ≤ m by omega)
  rw [List.take_succ_cons, List.cons_append, stringLength_cons,
    closingQuote?_take_append hclose (by omega), hlength]
  rfl

/-- Where no string begins, none begins after the cut, if a quote that is left open is not closed by
what comes then. -/
theorem stringLength_take_append_eq_zero {c : Char} {ds rest : List Char} {k : Nat}
    (hstring : stringLength (c :: ds) = 0)
    (hquote : c = '"' → closingQuote? ds = none → closingQuote? (ds.take k ++ rest) = none) :
    stringLength ((c :: ds).take (k + 1) ++ rest) = 0 := by
  by_cases hq : c = '"'
  · subst hq
    have hopen : closingQuote? ds = none := by
      by_contra hne
      obtain ⟨j, hj⟩ := Option.ne_none_iff_exists'.mp hne
      simp [stringLength_cons, hj] at hstring
    rw [List.take_succ_cons, List.cons_append, stringLength_cons, hquote rfl hopen]
    rfl
  · exact stringLength_of_head (by simpa using hq)

/-- The identifier rule comes last, so that the rules before it have to fail after the cut as
well. -/
theorem leaf?_identifier_take_append {cs rest : List Char} {m : Nat} (hn : identLength cs ≠ 0)
    (hm : identLength cs ≤ m) (hr : Boundary rest) (hstring : stringLength cs = 0)
    (hkeyword : keywordLength cs = 0) (hnumber : numberLength cs = 0)
    (hquote : ∀ ds, cs = '"' :: ds → closingQuote? ds = none →
      closingQuote? (ds.take (m - 1) ++ rest) = none) :
    leaf? (cs.take m ++ rest) =
      some (.leaf .identifier (String.ofList (cs.take (identLength cs))), identLength cs) := by
  obtain ⟨k, rfl⟩ := Nat.exists_eq_add_of_le' (show 1 ≤ m by omega)
  obtain ⟨c, ds, rfl⟩ := List.exists_cons_of_ne_nil (show cs ≠ [] by rintro rfl; exact hn rfl)
  have hc : isIdentChar c = true := runLength_ne_zero_iff.mp hn
  have hcut : identLength ((c :: ds).take (k + 1) ++ rest) = identLength (c :: ds) :=
    runLength_take_append (fun _ => id) hr hm
  have hstring' : stringLength ((c :: ds).take (k + 1) ++ rest) = 0 :=
    stringLength_take_append_eq_zero hstring (by rintro rfl; exact hquote ds rfl)
  have hkeyword' : keywordLength ((c :: ds).take (k + 1) ++ rest) = 0 := by
    rw [keywordLength_take_append hr hm, hkeyword]
  have hnumber' : numberLength ((c :: ds).take (k + 1) ++ rest) = 0 := by
    rw [numberLength_take_append hr (by omega), hnumber]
  have hmark : ∀ {mark : Char} {p : Char → Bool}, c ≠ mark →
      markedLength mark p ((c :: ds).take (k + 1) ++ rest) = 0 := fun h => markedLength_of_ne h
  exact leaf?_of_first
    [⟨.string, _, _⟩, ⟨.keyword, _, _⟩, ⟨.key, _, _⟩, ⟨.number, _, _⟩, ⟨.rest, _, _⟩] rfl
    (by simpa using ⟨hstring', hkeyword', hmark (ne_of_isIdentChar hc (by simp)), hnumber',
      hmark (ne_of_isIdentChar hc (by simp))⟩)
    hcut hn (take_take_append (runLength_le _ _) hm)

/-- A leaf is found again where the text is cut off somewhere after it and goes on with a boundary,
if a quote that it leaves open is not closed by what comes then. -/
theorem leaf?_take_append {cs rest : List Char} {x : Lexeme} {n m : Nat}
    (h : leaf? cs = some (x, n)) (hm : n ≤ m) (hr : Boundary rest)
    (hquote : ∀ ds, cs = '"' :: ds → closingQuote? ds = none →
      closingQuote? (ds.take (m - 1) ++ rest) = none) :
    leaf? (cs.take m ++ rest) = some (x, n) := by
  have hword : ∀ c, Text.isWord c = true → isIdentChar c = true := fun _ => isIdentChar_of_isWord
  have htake : (cs.take m ++ rest).take n = cs.take n := take_take_append (leaf?_length_le h) hm
  obtain ⟨hn, hcases⟩ := leaf?_cases h
  -- each rule has the same length after the cut, and the rules before it still do not apply
  rcases hcases with ⟨rfl, rfl⟩ | ⟨rfl, rfl⟩ | ⟨rfl, rfl⟩ | ⟨rfl, rfl⟩ | ⟨rfl, rfl⟩ |
    ⟨rfl, rfl, hstring, hkeyword, hnumber⟩
  · exact leaf?_of_first [] rfl (by simp) (stringLength_take_append hn hm rest) hn htake
  · have hcut : keywordLength (cs.take m ++ rest) = keywordLength cs := by
      refine keywordLength_take_append hr ?_
      rw [keywordLength_eq] at hn hm
      split at hn
      · next hmem => rwa [if_pos hmem] at hm
      · exact absurd rfl hn
    have hstring := stringLength_of_head (head?_of_keyword (hcut.trans_ne hn))
    exact leaf?_of_first [⟨.string, _, _⟩] rfl (by simpa using hstring) hcut hn htake
  · have hcut : keyLength (cs.take m ++ rest) = keyLength cs :=
      markedLength_take_append hword hr hn hm
    obtain ⟨ds, hds, -⟩ := drop_take_markedLength (hcut.trans_ne hn)
    obtain ⟨hstring, hkeyword, -⟩ := lengths_of_mark (.inl rfl) ds
    rw [← hds] at hstring hkeyword
    exact leaf?_of_first [⟨.string, _, _⟩, ⟨.keyword, _, _⟩] rfl
      (by simpa using ⟨hstring, hkeyword⟩) hcut hn htake
  · have hcut : numberLength (cs.take m ++ rest) = numberLength cs :=
      numberLength_take_append hr hm
    have hbefore := lengths_of_number (hcut.trans_ne hn)
    exact leaf?_of_first [⟨.string, _, _⟩, ⟨.keyword, _, _⟩, ⟨.key, _, _⟩] rfl
      (by simpa using hbefore) hcut hn htake
  · have hcut : restLength (cs.take m ++ rest) = restLength cs :=
      markedLength_take_append (fun _ => id) hr hn hm
    obtain ⟨ds, hds, -⟩ := drop_take_markedLength (hcut.trans_ne hn)
    obtain ⟨hstring, hkeyword, hnumber⟩ := lengths_of_mark (.inr rfl) ds
    have hkey : keyLength ('&' :: ds) = 0 := markedLength_of_ne (by decide)
    rw [← hds] at hstring hkeyword hnumber hkey
    exact leaf?_of_first [⟨.string, _, _⟩, ⟨.keyword, _, _⟩, ⟨.key, _, _⟩, ⟨.number, _, _⟩] rfl
      (by simpa using ⟨hstring, hkeyword, hkey, hnumber⟩) hcut hn htake
  · exact leaf?_identifier_take_append hn hm hr hstring hkeyword hnumber hquote

/-! ## Tokens -/

/-- A leaf begins with a character that decides that it is one. -/
theorem exists_isLeafStart {cs : List Char} {x : Lexeme} {n : Nat} (h : leaf? cs = some (x, n)) :
    ∃ c ds, cs = c :: ds ∧ isLeafStart c = true := by
  have hident : ∀ {c : Char}, isIdentChar c = true → isLeafStart c = true := by
    intro c hc
    simp [isLeafStart, hc]
  obtain ⟨hn, hcases⟩ := leaf?_cases h
  have hne : cs ≠ [] := by
    rintro rfl
    exact hn (Nat.le_zero.mp (leaf?_length_le h))
  obtain ⟨c, ds, rfl⟩ := List.exists_cons_of_ne_nil hne
  refine ⟨c, ds, rfl, ?_⟩
  rcases hcases with ⟨rfl, -⟩ | ⟨rfl, -⟩ | ⟨rfl, -⟩ | ⟨rfl, -⟩ | ⟨rfl, -⟩ | ⟨rfl, -⟩
  · obtain ⟨es, k, hds, -⟩ := exists_of_stringLength hn
    obtain rfl := (List.cons.inj hds).1
    decide
  · rw [keywordLength_eq] at hn
    split at hn
    · exact hident (runLength_ne_zero_iff.mp hn)
    · exact absurd rfl hn
  · obtain ⟨es, hds, -⟩ := drop_take_markedLength hn
    obtain rfl := (List.cons.inj hds).1
    decide
  · obtain ⟨k, hk⟩ := Nat.exists_eq_succ_of_ne_zero hn
    exact hident (forall_mem_take_numberLength (c :: ds) c (by rw [hk]; simp))
  · obtain ⟨es, hds, -⟩ := drop_take_markedLength hn
    obtain rfl := (List.cons.inj hds).1
    decide
  · exact hident (runLength_ne_zero_iff.mp hn)

theorem lexeme?_length_le {cs : List Char} {x : Lexeme} {n : Nat} (h : lexeme? cs = some (x, n)) :
    n ≤ cs.length := by
  rcases lexeme?_cases h with ⟨b, ds, -, rfl, rfl⟩ | ⟨b, ds, -, rfl, rfl⟩ | hleaf
  · exact Nat.succ_le_succ (Nat.zero_le _)
  · exact Nat.succ_le_succ (Nat.zero_le _)
  · exact leaf?_length_le hleaf

/-- A token is found again where the text is cut off somewhere after it and goes on with a boundary,
if a quote that it leaves open is not closed by what comes then. -/
theorem lexeme?_take_append {cs rest : List Char} {x : Lexeme} {n m : Nat}
    (h : lexeme? cs = some (x, n)) (hm : n ≤ m) (hr : Boundary rest)
    (hquote : ∀ ds, cs = '"' :: ds → closingQuote? ds = none →
      closingQuote? (ds.take (m - 1) ++ rest) = none) :
    layoutLength (cs.take m ++ rest) = 0 ∧ lexeme? (cs.take m ++ rest) = some (x, n) := by
  rcases lexeme?_cases h with ⟨b, ds, rfl, rfl, rfl⟩ | ⟨b, ds, rfl, rfl, rfl⟩ | hleaf
  · obtain ⟨k, rfl⟩ := Nat.exists_eq_add_of_le' hm
    exact lexeme?_closer b (ds.take k ++ rest)
  · obtain ⟨k, rfl⟩ := Nat.exists_eq_add_of_le' hm
    exact lexeme?_opener b (ds.take k ++ rest)
  · have hcut := leaf?_take_append hleaf hm hr hquote
    obtain ⟨c, ds, rfl, hc⟩ := exists_isLeafStart hleaf
    have hn := (leaf?_cases hleaf).1
    obtain ⟨k, rfl⟩ := Nat.exists_eq_add_of_le' (show 1 ≤ m by omega)
    obtain ⟨hlayout, hlexeme⟩ := lexeme?_of_isLeafStart hc (ds.take k ++ rest)
    exact ⟨hlayout, hlexeme.trans hcut⟩

/-- A token is read in the same way when the text goes on after its end, if the text leaves no quote
open that is closed there. -/
theorem lexeme?_append {cs rest : List Char} {x : Lexeme} {n : Nat} (h : lexeme? cs = some (x, n))
    (hr : Boundary rest)
    (hquote : ∀ ds, cs = '"' :: ds → closingQuote? ds = none → closingQuote? (ds ++ rest) = none) :
    layoutLength (cs ++ rest) = 0 ∧ lexeme? (cs ++ rest) = some (x, n) := by
  have hcut := lexeme?_take_append h (lexeme?_length_le h) hr (fun ds hds hopen => by
    rw [hds, List.length_cons, Nat.add_sub_cancel, List.take_length]
    exact hquote ds hds hopen)
  rwa [List.take_length] at hcut

/-- A quote that is never closed begins an identifier. -/
theorem lexeme?_of_unclosed {ds : List Char} {x : Lexeme} {n : Nat}
    (hx : lexeme? ('"' :: ds) = some (x, n)) (hopen : closingQuote? ds = none) :
    x = .leaf .identifier (String.ofList (('"' :: ds).takeWhile isIdentChar)) ∧
      n = identLength ('"' :: ds) := by
  rcases lexeme?_cases hx with ⟨b, es, -, hb, -⟩ | ⟨b, es, -, hb, -⟩ | hleaf
  · cases b <;> cases hb
  · cases b <;> cases hb
  · obtain ⟨hn, ⟨rfl, -⟩ | ⟨rfl, -⟩ | ⟨rfl, -⟩ | ⟨rfl, -⟩ | ⟨rfl, -⟩ | ⟨rfl, rfl, hcases⟩⟩ :=
      leaf?_cases hleaf
    · simp [stringLength_cons, hopen] at hn
    · exact absurd rfl (head?_of_keyword hn)
    · exact absurd (markedLength_of_ne (by decide)) hn
    · have hdigit : startsNumber ('"' :: ds) = false := show Text.isDecimal '"' = false by decide
      exact absurd ((numberLength_eq_zero_iff _).mpr hdigit) hn
    · exact absurd (markedLength_of_ne (by decide)) hn
    · rw [identLength, take_runLength]
      exact ⟨rfl, rfl⟩

end Lisplet.Token
