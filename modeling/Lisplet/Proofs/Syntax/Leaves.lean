import Lisplet.Proofs.Syntax.Tokens

/-!
# Leaves and their source text

`LeafKind.Writable` says which texts a leaf can have so that its source text is read back as this
very leaf. Before a boundary the source text of a writable leaf is one token (`lexeme?_render`), and
a token that is a leaf is writable (`writable_of_lexeme?`), apart from an identifier that begins
with a quote: it is one only because the quote is never closed.
-/

namespace Lisplet

namespace Token

/-! ## Strings -/

/-- The text of a string with the quote and the backslash escaped. -/
def escapes (cs : List Char) : List Char :=
  cs.flatMap fun c => if c == '"' || c == '\\' then ['\\', c] else [c]

theorem quotedSource_eq (cs : List Char) : quotedSource cs = '"' :: (escapes cs ++ ['"']) := rfl

@[simp]
theorem closingQuote?_hidden (c : Char) (cs : List Char) :
    closingQuote? ('\\' :: c :: cs) = (closingQuote? cs).map (· + 2) := by
  rw [closingQuote?]

theorem closingQuote?_cons {c : Char} {cs : List Char} (hq : c ≠ '"') (hb : c ≠ '\\') :
    closingQuote? (c :: cs) = (closingQuote? cs).map (· + 1) := by
  cases cs with
  | nil => simp [closingQuote?]
  | cons d cs => simp [closingQuote?, hb]

theorem escapes_cons (c : Char) (cs : List Char) :
    escapes (c :: cs) = (if c = '"' ∨ c = '\\' then ['\\', c] else [c]) ++ escapes cs := by
  simp [escapes]

/-- The quote after an escaped text is the first one that closes. -/
theorem closingQuote?_escapes (cs rest : List Char) :
    closingQuote? (escapes cs ++ '"' :: rest) = some ((escapes cs).length + 1) := by
  induction cs with
  | nil => rfl
  | cons c cs ih =>
    rw [escapes_cons]
    split
    · next hc =>
      rcases hc with rfl | rfl <;> simp [ih]
    · next hc =>
      rw [not_or] at hc
      simp [closingQuote?_cons hc.1 hc.2, ih]

theorem unescape_escapes (cs : List Char) : unescape (escapes cs) = cs := by
  induction cs with
  | nil => rfl
  | cons c cs ih =>
    rw [escapes_cons]
    split
    · next hc =>
      have hself : escaped c = c := by rcases hc with rfl | rfl <;> rfl
      simp [unescape, hself, ih]
    · next hc =>
      rw [not_or] at hc
      rw [List.singleton_append]
      unfold unescape
      split
      · simp_all
      · next heq => obtain ⟨rfl, rfl⟩ := List.cons.inj heq; rw [ih]
      · simp_all

theorem closingQuote?_eq_none {cs : List Char} (h : '"' ∉ cs) : closingQuote? cs = none := by
  fun_induction closingQuote? cs with
  | case1 => rfl
  | case2 => simp at h
  | case3 c cs ih => simp_all
  | case4 c cs _ _ ih => simp_all

/-- A text that closes no quote does not begin with one. -/
theorem ne_quote_of_closingQuote? {x : Char} {xs : List Char}
    (h : closingQuote? (x :: xs) = none) : x ≠ '"' := by
  rintro rfl
  have hquote : closingQuote? ('"' :: xs) = some 1 := rfl
  rw [hquote] at h
  cases h

/-- Without backslashes there is nothing to hide a quote. -/
theorem closingQuote?_append {xs rest : List Char} (h : closingQuote? (xs ++ rest) = none)
    (hxs : '\\' ∉ xs) : '"' ∉ xs ∧ closingQuote? rest = none := by
  induction xs with
  | nil => exact ⟨by simp, h⟩
  | cons x xs ih =>
    rw [List.mem_cons, not_or] at hxs
    have hq : x ≠ '"' := ne_quote_of_closingQuote? h
    rw [List.cons_append, closingQuote?_cons hq (Ne.symm hxs.1), Option.map_eq_none_iff] at h
    obtain ⟨hquote, hrest⟩ := ih h hxs.2
    exact ⟨by simp [hquote, Ne.symm hq], hrest⟩

/-- A line that closes no quote leaves it open for the next line. -/
theorem closingQuote?_line {rest : List Char} (hrest : ∀ c, rest.head? = some c → c = '\n') :
    ∀ {xs : List Char}, closingQuote? (xs ++ rest) = none → closingQuote? rest = none
  | [], h => h
  | [x], h => by
    have hq : x ≠ '"' := ne_quote_of_closingQuote? h
    by_cases hb : x = '\\'
    · -- the backslash hides the line feed, which is no quote anyway
      subst hb
      cases rest with
      | nil => rfl
      | cons c cs =>
        obtain rfl := hrest c rfl
        rw [closingQuote?_cons (by decide) (by decide), Option.map_eq_none_iff]
        simpa using h
    · rw [List.cons_append, closingQuote?_cons hq hb, Option.map_eq_none_iff] at h
      exact h
  | x :: y :: xs, h => by
    have hq : x ≠ '"' := ne_quote_of_closingQuote? h
    by_cases hb : x = '\\'
    · subst hb
      have h' : closingQuote? (xs ++ rest) = none := by simpa using h
      exact closingQuote?_line hrest h'
    · rw [List.cons_append, closingQuote?_cons hq hb, Option.map_eq_none_iff] at h
      exact closingQuote?_line hrest h

/-! ## The rules in their order -/

/-- The first rule that applies takes its source text and leaves the rest. -/
theorem leaf?_of_rule (before : List Rule) {after : List Rule} {r : Rule} {source rest : List Char}
    {text : String} (hrules : rules = before ++ r :: after)
    (hbefore : ∀ q ∈ before, q.length (source ++ rest) = 0)
    (hlength : r.length (source ++ rest) = source.length) (hne : source ≠ [])
    (htext : r.text source = text.toList) :
    leaf? (source ++ rest) = some (.leaf r.kind text, source.length) := by
  have hfind : rules.find? (fun r => r.length (source ++ rest) != 0) = some r := by
    rw [List.find?_eq_some_iff_append]
    exact ⟨by simpa [hlength] using hne, before, after, hrules,
      fun q hq => by simp [hbefore q hq]⟩
  rw [leaf?, hfind, Option.map_some, hlength, List.take_left, htext, String.ofList_toList]

/-- Which rule has made a leaf, and which rules before it did not apply. -/
theorem leaf?_cases {cs : List Char} {x : Lexeme} {n : Nat} (h : leaf? cs = some (x, n)) :
    n ≠ 0 ∧
    ((n = stringLength cs ∧
        x = .leaf .string (String.ofList (unescape ((cs.take n).drop 1).dropLast))) ∨
      (n = keywordLength cs ∧ x = .leaf .keyword (String.ofList (cs.take n))) ∨
      (n = keyLength cs ∧ x = .leaf .key (String.ofList ((cs.take n).drop 1))) ∨
      (n = numberLength cs ∧ x = .leaf .number (String.ofList (cs.take n))) ∨
      (n = restLength cs ∧ x = .leaf .rest (String.ofList ((cs.take n).drop 1))) ∨
      (n = identLength cs ∧ x = .leaf .identifier (String.ofList (cs.take n)) ∧
        stringLength cs = 0 ∧ keywordLength cs = 0 ∧ numberLength cs = 0)) := by
  rw [leaf?, Option.map_eq_some_iff] at h
  obtain ⟨r, hfind, hx⟩ := h
  have hr : r.length cs ≠ 0 := by simpa using List.find?_some hfind
  obtain ⟨rfl, rfl⟩ : x = .leaf r.kind (String.ofList (r.text (cs.take (r.length cs)))) ∧
      n = r.length cs := by
    obtain ⟨hx, hn⟩ := Prod.mk.inj hx
    exact ⟨hx.symm, hn.symm⟩
  refine ⟨hr, ?_⟩
  have hmem : r ∈ rules := List.mem_of_find?_eq_some hfind
  simp only [rules, List.mem_cons, List.not_mem_nil, or_false] at hmem
  rcases hmem with rfl | rfl | rfl | rfl | rfl | rfl
  · exact .inl ⟨rfl, rfl⟩
  · exact .inr (.inl ⟨rfl, rfl⟩)
  · exact .inr (.inr (.inl ⟨rfl, rfl⟩))
  · exact .inr (.inr (.inr (.inl ⟨rfl, rfl⟩)))
  · exact .inr (.inr (.inr (.inr (.inl ⟨rfl, rfl⟩))))
  · -- the identifier rule is the last one, so that none of the others applied
    refine .inr (.inr (.inr (.inr (.inr ⟨rfl, rfl, ?_⟩))))
    have hskip : ∀ {q r : Rule} {qs : List Rule}, q.kind ≠ r.kind →
        (q :: qs).find? (fun r => r.length cs != 0) = some r →
        q.length cs = 0 ∧ qs.find? (fun r => r.length cs != 0) = some r := by
      intro q r qs hkind h
      by_cases hq : q.length cs = 0
      · rw [List.find?_cons_of_neg (by simp [hq])] at h
        exact ⟨hq, h⟩
      · rw [List.find?_cons_of_pos (by simpa using hq)] at h
        exact absurd (congrArg Rule.kind (Option.some.inj h)) hkind
    obtain ⟨hstring, hfind⟩ := hskip (by decide) hfind
    obtain ⟨hkeyword, hfind⟩ := hskip (by decide) hfind
    obtain ⟨-, hfind⟩ := hskip (by decide) hfind
    obtain ⟨hnumber, -⟩ := hskip (by decide) hfind
    exact ⟨hstring, hkeyword, hnumber⟩

/-- A character that leaves other than strings begin with. -/
def isLeafStart (c : Char) : Bool := isIdentChar c || c == ':' || c == '&'

/-- Such a character is neither layout nor a bracket, so that the leaf rules decide. -/
theorem lexeme?_of_isLeafStart {c : Char} (hc : isLeafStart c = true) (cs : List Char) :
    layoutLength (c :: cs) = 0 ∧ lexeme? (c :: cs) = leaf? (c :: cs) := by
  have hne : ∀ d ∈ [';', '(', ')', '[', ']', '\x7b', '\x7d'], c ≠ d := by
    intro d hd
    simp only [isLeafStart, Bool.or_eq_true, beq_iff_eq] at hc
    rcases hc with (hc | rfl) | rfl
    · refine ne_of_isIdentChar hc ?_
      simp only [List.mem_cons, List.not_mem_nil, or_false] at hd ⊢
      tauto
    · rintro rfl
      revert hd
      decide
    · rintro rfl
      revert hd
      decide
  have hblank : Text.isBlank c = false := by
    by_contra hblank
    simp only [isLeafStart, Bool.or_eq_true, beq_iff_eq] at hc
    rcases hc with (hc | rfl) | rfl
    · rw [not_isIdentChar_of_isBlank (by simpa using hblank)] at hc
      cases hc
    · exact hblank (by decide)
    · exact hblank (by decide)
  constructor
  · have hsemi : c ≠ ';' := hne _ (by simp)
    have hcomment : commentLength (c :: cs) = 0 := by
      unfold commentLength
      split <;> simp_all
    simp [layoutLength, runLength, hblank, hcomment]
  · have hcloser : Bracket.ofCloser? c = none := by
      simp [Bracket.ofCloser?, Bracket.closer, Ne.symm (hne _ _)]
    have hopener : Bracket.ofOpener? c = none := by
      simp [Bracket.ofOpener?, Bracket.opener, Ne.symm (hne _ _)]
    simp [lexeme?, hcloser, hopener]

end Token

/-! ## Writable leaves -/

/-- The texts that a leaf can have so that its source text is read back as this leaf. -/
def LeafKind.Writable : LeafKind → List Char → Prop
  | .string, _ => True
  | .keyword, cs => String.ofList cs ∈ Token.keywords
  | .key, cs => cs ≠ [] ∧ ∀ c ∈ cs, Text.isWord c = true
  | .number, cs => cs ≠ [] ∧ Token.numberLength cs = cs.length
  | .rest, cs => cs ≠ [] ∧ ∀ c ∈ cs, Token.isIdentChar c = true
  | .identifier, cs => cs ≠ [] ∧ (∀ c ∈ cs, Token.isIdentChar c = true) ∧
    String.ofList cs ∉ Token.keywords ∧ cs.head? ≠ some '"' ∧ Token.startsNumber cs = false

/-- The source text of a lexeme. -/
def Lexeme.render : Lexeme → List Char
  | .opener b => [b.opener]
  | .closer b => [b.closer]
  | .leaf kind text => kind.render text.toList

namespace Token

theorem stringLength_of_head {cs : List Char} (h : cs.head? ≠ some '"') : stringLength cs = 0 := by
  unfold stringLength
  split
  · simp at h
  · rfl

/-- A string before any text. -/
theorem leaf?_string (text : String) (rest : List Char) :
    leaf? (quotedSource text.toList ++ rest) =
      some (.leaf .string text, (quotedSource text.toList).length) := by
  refine leaf?_of_rule [] rfl (by simp) ?_ (by simp [quotedSource_eq]) ?_
  · have hclose := closingQuote?_escapes text.toList rest
    simp [quotedSource_eq, stringLength, hclose]
  · simp [quotedSource_eq, unescape_escapes]

section Words

variable {source rest : List Char}

/-- What the rules make of identifier characters before a boundary. -/
theorem lengths_of_identChars (hsource : ∀ c ∈ source, isIdentChar c = true) (hne : source ≠ [])
    (hr : Boundary rest) :
    keywordLength (source ++ rest) =
      (if String.ofList source ∈ keywords then source.length else 0) ∧
    keyLength (source ++ rest) = 0 ∧ restLength (source ++ rest) = 0 ∧
    identLength (source ++ rest) = source.length := by
  have hrun : runLength isIdentChar (source ++ rest) = source.length := by
    rw [runLength_append (fun _ => id) hr, runLength_eq_length hsource]
  have hkeyword : keywordLength (source ++ rest) =
      if String.ofList source ∈ keywords then source.length else 0 := by
    rw [keywordLength_eq, takeWhile_append_of_boundary hsource hr, identLength, hrun]
  obtain ⟨c, cs, rfl⟩ := List.exists_cons_of_ne_nil hne
  have hc : isIdentChar c = true := hsource c (by simp)
  exact ⟨hkeyword, markedLength_of_ne (ne_of_isIdentChar hc (by simp)),
    markedLength_of_ne (ne_of_isIdentChar hc (by simp)), hrun⟩

theorem leaf?_keyword {text : String} (hw : text ∈ keywords) (hr : Boundary rest) :
    leaf? (text.toList ++ rest) = some (.leaf .keyword text, text.toList.length) := by
  have hall : ∀ w ∈ keywords, w.toList ≠ [] ∧ w.toList.head? ≠ some '"' := by decide
  obtain ⟨hne, hhead⟩ := hall text hw
  obtain ⟨hkeyword, -⟩ := lengths_of_identChars (forall_isIdentChar_of_mem_keywords hw) hne hr
  refine leaf?_of_rule [⟨.string, _, _⟩] rfl ?_ ?_ hne rfl
  · simpa using stringLength_of_head (by simpa [hne] using hhead)
  · simpa [hw] using hkeyword

/-- The mark of a key or a rest belongs to no string, keyword or number. -/
theorem lengths_of_mark {c : Char} (hc : c = ':' ∨ c = '&') (cs : List Char) :
    stringLength (c :: cs) = 0 ∧ keywordLength (c :: cs) = 0 ∧ numberLength (c :: cs) = 0 := by
  have hchar : c ≠ '"' ∧ isIdentChar c = false ∧ Text.isDecimal c = false ∧ c ≠ '.' := by
    rcases hc with rfl | rfl <;> decide
  obtain ⟨hquote, hident, hdigit, hdot⟩ := hchar
  refine ⟨stringLength_of_head (by simpa using hquote), ?_, ?_⟩
  · rw [keywordLength_eq, identLength, runLength_cons]
    simp [hident]
  · rw [numberLength_eq_zero_iff]
    unfold startsNumber
    split <;> simp_all

theorem leaf?_key {text : String} (hne : text.toList ≠ [])
    (hw : ∀ c ∈ text.toList, Text.isWord c = true) (hr : Boundary rest) :
    leaf? (':' :: text.toList ++ rest) = some (.leaf .key text, (':' :: text.toList).length) := by
  obtain ⟨hstring, hkeyword, -⟩ := lengths_of_mark (.inl rfl) (text.toList ++ rest)
  refine leaf?_of_rule [⟨.string, _, _⟩, ⟨.keyword, _, _⟩] rfl ?_ ?_ (by simp) rfl
  · simp [hstring, hkeyword]
  · exact markedLength_append (fun _ => isIdentChar_of_isWord) hw hne hr

theorem leaf?_rest {text : String} (hne : text.toList ≠ [])
    (hw : ∀ c ∈ text.toList, isIdentChar c = true) (hr : Boundary rest) :
    leaf? ('&' :: text.toList ++ rest) = some (.leaf .rest text, ('&' :: text.toList).length) := by
  obtain ⟨hstring, hkeyword, hnumber⟩ := lengths_of_mark (.inr rfl) (text.toList ++ rest)
  have hkey : keyLength ('&' :: (text.toList ++ rest)) = 0 := markedLength_of_ne (by decide)
  refine leaf?_of_rule
    [⟨.string, _, _⟩, ⟨.keyword, _, _⟩, ⟨.key, _, _⟩, ⟨.number, _, _⟩] rfl ?_ ?_
    (by simp) rfl
  · simp [hstring, hkeyword, hkey, hnumber]
  · exact markedLength_append (fun _ => id) hw hne hr

/-- A number is made of identifier characters, and is neither a keyword nor begins with a quote. -/
theorem number_chars {cs : List Char} (hne : cs ≠ []) (hw : numberLength cs = cs.length) :
    (∀ c ∈ cs, isIdentChar c = true) ∧ cs.head? ≠ some '"' ∧ String.ofList cs ∉ keywords := by
  have hnumber : numberLength cs ≠ 0 := by simpa [hw] using hne
  refine ⟨?_, fun hhead => ?_, fun hmem => ?_⟩
  · have hall := forall_mem_take_numberLength cs
    rwa [hw, List.take_length] at hall
  · refine hnumber ((numberLength_eq_zero_iff _).mpr ?_)
    obtain ⟨ds, rfl⟩ := List.head?_eq_some_iff.mp hhead
    exact show Text.isDecimal '"' = false by decide
  · have hall : ∀ w ∈ keywords, numberLength w.toList = 0 := by decide
    have hzero := hall _ hmem
    rw [String.toList_ofList] at hzero
    exact hnumber hzero

theorem leaf?_number {text : String} (hne : text.toList ≠ [])
    (hw : numberLength text.toList = text.toList.length) (hr : Boundary rest) :
    leaf? (text.toList ++ rest) = some (.leaf .number text, text.toList.length) := by
  obtain ⟨hchars, hhead, hmem⟩ := number_chars hne hw
  obtain ⟨hkeyword, hkey, -⟩ := lengths_of_identChars hchars hne hr
  rw [if_neg hmem] at hkeyword
  have hstring : stringLength (text.toList ++ rest) = 0 :=
    stringLength_of_head (by simpa [hne] using hhead)
  refine leaf?_of_rule [⟨.string, _, _⟩, ⟨.keyword, _, _⟩, ⟨.key, _, _⟩] rfl ?_ ?_ hne
    rfl
  · simp [hstring, hkeyword, hkey]
  · simpa [hw] using numberLength_append hr text.toList

/-- Identifier characters that are neither a keyword nor a number nor begin a string. -/
theorem leaf?_identifier {text : String} (hne : text.toList ≠ [])
    (hw : ∀ c ∈ text.toList, isIdentChar c = true) (hmem : text ∉ keywords)
    (hstring : stringLength (text.toList ++ rest) = 0)
    (hnumber : startsNumber text.toList = false) (hr : Boundary rest) :
    leaf? (text.toList ++ rest) = some (.leaf .identifier text, text.toList.length) := by
  obtain ⟨hkeyword, hkey, hrest, hident⟩ := lengths_of_identChars hw hne hr
  rw [String.ofList_toList, if_neg hmem] at hkeyword
  have hnumber' : numberLength (text.toList ++ rest) = 0 := by
    rw [numberLength_append hr, numberLength_eq_zero_iff, hnumber]
  refine leaf?_of_rule
    [⟨.string, _, _⟩, ⟨.keyword, _, _⟩, ⟨.key, _, _⟩, ⟨.number, _, _⟩, ⟨.rest, _, _⟩]
    rfl ?_ hident hne rfl
  simp [hstring, hkeyword, hkey, hnumber', hrest]

end Words

/-- The source text of a leaf, once its rule is known to take it. -/
theorem lexeme?_of_leaf? {c : Char} {cs rest : List Char} {x : Lexeme} {n : Nat}
    (hc : isLeafStart c = true) (h : leaf? (c :: cs ++ rest) = some (x, n)) :
    layoutLength (c :: cs ++ rest) = 0 ∧ lexeme? (c :: cs ++ rest) = some (x, n) := by
  obtain ⟨hlayout, hlexeme⟩ := lexeme?_of_isLeafStart hc (cs ++ rest)
  exact ⟨hlayout, hlexeme.trans h⟩

/-- The source text of a writable leaf before a boundary is one token. -/
theorem lexeme?_render {kind : LeafKind} {text : String} {rest : List Char}
    (hw : kind.Writable text.toList) (hr : Boundary rest) :
    layoutLength (kind.render text.toList ++ rest) = 0 ∧
      lexeme? (kind.render text.toList ++ rest) =
        some (.leaf kind text, (kind.render text.toList).length) := by
  have hword : ∀ {source : List Char} {x : Lexeme} {n : Nat}, source ≠ [] →
      (∀ c ∈ source, isIdentChar c = true) → leaf? (source ++ rest) = some (x, n) →
      layoutLength (source ++ rest) = 0 ∧ lexeme? (source ++ rest) = some (x, n) := by
    intro source x n hne hsource h
    obtain ⟨c, cs, rfl⟩ := List.exists_cons_of_ne_nil hne
    exact lexeme?_of_leaf? (by simp [isLeafStart, hsource c]) h
  cases kind with
  | string => exact lexeme?_of_leaf? (by decide) (leaf?_string text rest)
  | keyword =>
    rw [LeafKind.Writable, String.ofList_toList] at hw
    have hne : ∀ w ∈ keywords, w.toList ≠ [] := by decide
    exact hword (hne text hw) (forall_isIdentChar_of_mem_keywords hw) (leaf?_keyword hw hr)
  | key => exact lexeme?_of_leaf? (by decide) (leaf?_key hw.1 hw.2 hr)
  | number => exact hword hw.1 (number_chars hw.1 hw.2).1 (leaf?_number hw.1 hw.2 hr)
  | rest => exact lexeme?_of_leaf? (by decide) (leaf?_rest hw.1 hw.2 hr)
  | identifier =>
    obtain ⟨hne, hchars, hmem, hquote, hnumber⟩ := hw
    rw [String.ofList_toList] at hmem
    have hstring : stringLength (text.toList ++ rest) = 0 :=
      stringLength_of_head (by simpa [hne] using hquote)
    exact hword hne hchars (leaf?_identifier hne hchars hmem hstring hnumber hr)

/-! ## Unclosed quotes -/

/-- An identifier that begins with a quote and has no further one. -/
def Unclosed (x : Lexeme) : Prop :=
  ∃ cs, x = .leaf .identifier (String.ofList ('"' :: cs)) ∧ (∀ c ∈ cs, isIdentChar c = true) ∧
    '"' ∉ cs

/-- Such an identifier is one token if no quote comes after it. -/
theorem lexeme?_unclosed {x : Lexeme} {rest : List Char} (hx : Unclosed x) (hquote : '"' ∉ rest)
    (hr : Boundary rest) :
    layoutLength (x.render ++ rest) = 0 ∧
      lexeme? (x.render ++ rest) = some (x, x.render.length) := by
  obtain ⟨cs, rfl, hchars, hcs⟩ := hx
  have htext : (String.ofList ('"' :: cs)).toList = '"' :: cs := String.toList_ofList
  have hopen : closingQuote? (cs ++ rest) = none := closingQuote?_eq_none (by simp [hcs, hquote])
  have hmem : String.ofList ('"' :: cs) ∉ keywords := by
    have hall : ∀ w ∈ keywords, w.toList.head? ≠ some '"' := by decide
    intro hmem
    exact hall _ hmem (by rw [htext]; rfl)
  have hleaf : leaf? ((String.ofList ('"' :: cs)).toList ++ rest) = _ := leaf?_identifier
    (by simp) (by rw [htext]; simpa [show isIdentChar '"' = true by decide] using hchars)
    hmem (by simp [stringLength, hopen])
    (by rw [htext]; exact show Text.isDecimal '"' = false by decide) hr
  simp only [Lexeme.render, LeafKind.render, htext] at hleaf ⊢
  exact lexeme?_of_leaf? (by decide) hleaf

/-- A token that is a leaf is writable, unless it is an identifier that begins with a quote. -/
theorem writable_of_leaf? {cs : List Char} {x : Lexeme} {n : Nat} (h : leaf? cs = some (x, n)) :
    ∃ kind text, x = .leaf kind text ∧
      (kind.Writable text.toList ∨
        ∃ ds, cs = '"' :: ds ∧ kind = .identifier ∧ text.toList = cs.takeWhile isIdentChar ∧
          closingQuote? ds = none ∧ n = identLength cs) := by
  obtain ⟨hn, ⟨-, rfl⟩ | ⟨rfl, rfl⟩ | ⟨rfl, rfl⟩ | ⟨rfl, rfl⟩ | ⟨rfl, rfl⟩ |
    ⟨rfl, rfl, hstring, hkeyword, hnumber⟩⟩ := leaf?_cases h
  · exact ⟨_, _, rfl, .inl trivial⟩
  · refine ⟨_, _, rfl, .inl ?_⟩
    rw [keywordLength_eq] at hn ⊢
    split at hn
    · next hmem =>
      rw [if_pos hmem, LeafKind.Writable, String.toList_ofList, identLength, take_runLength]
      exact hmem
    · exact absurd rfl hn
  · obtain ⟨ds, rfl, hlength, hne⟩ := drop_take_markedLength hn
    refine ⟨_, _, rfl, .inl ?_⟩
    rw [keyLength, hlength, List.take_succ_cons, List.drop_one, List.tail_cons,
      LeafKind.Writable, String.toList_ofList]
    exact ⟨take_runLength_ne_nil hne, forall_mem_take_runLength le_rfl⟩
  · refine ⟨_, _, rfl, .inl ?_⟩
    rw [LeafKind.Writable, String.toList_ofList, numberLength_take le_rfl, List.length_take]
    have hle := numberLength_le cs
    refine ⟨?_, by omega⟩
    intro hnil
    have := congrArg List.length hnil
    rw [List.length_take, List.length_nil] at this
    omega
  · obtain ⟨ds, rfl, hlength, hne⟩ := drop_take_markedLength hn
    refine ⟨_, _, rfl, .inl ?_⟩
    rw [restLength, hlength, List.take_succ_cons, List.drop_one, List.tail_cons,
      LeafKind.Writable, String.toList_ofList]
    exact ⟨take_runLength_ne_nil hne, forall_mem_take_runLength le_rfl⟩
  · refine ⟨_, _, rfl, ?_⟩
    rw [String.toList_ofList, identLength, take_runLength]
    by_cases hquote : cs.head? = some '"'
    · obtain ⟨ds, rfl⟩ := List.head?_eq_some_iff.mp hquote
      refine .inr ⟨ds, rfl, rfl, rfl, ?_, rfl⟩
      cases hclose : closingQuote? ds with
      | none => rfl
      | some k => simp [stringLength, hclose] at hstring
    · have hsplit : cs.takeWhile isIdentChar ++ cs.dropWhile isIdentChar = cs :=
        List.takeWhile_append_dropWhile
      have hne : cs.takeWhile isIdentChar ≠ [] := by
        rw [← take_runLength]
        exact take_runLength_ne_nil hn
      refine .inl ⟨hne, fun c => List.mem_takeWhile_imp, fun hmem => ?_, ?_, ?_⟩
      · rw [keywordLength_eq, if_pos hmem] at hkeyword
        exact hn hkeyword
      · rwa [← hsplit, List.head?_append_of_ne_nil _ hne] at hquote
      · rw [← numberLength_eq_zero_iff, ← numberLength_append (boundary_dropWhile cs), hsplit]
        exact hnumber

end Token

end Lisplet
