import Lisplet.Proofs.Syntax.Reach
import Lisplet.Proofs.Syntax.RoundTrip

/-!
# Layout between tokens

Blanks and comments can be put wherever a scan comes to stand, and the text keeps its word. A token
ends at what is put after it. A comment takes in what is put after it up to the next line feed. And
a quote that was open stays open, since what is put in holds no quote, and a backslash that might
have hidden one is the last character of a comment.

Main statement: `parse_insert`.
-/

namespace Lisplet

open Token

/-- A scan of the text comes to stand before the rest of it: at the start, after layout, or after a
token. -/
inductive Reaches : List Char → List Char → Prop where
  | here (cs : List Char) : Reaches cs cs
  | layout {cs rest : List Char} (hl : layoutLength cs ≠ 0)
    (h : Reaches (cs.drop (layoutLength cs)) rest) : Reaches cs rest
  | token {cs rest : List Char} {x : Lexeme} {n : Nat} (hl : layoutLength cs = 0)
    (hx : lexeme? cs = some (x, n)) (h : Reaches (cs.drop n) rest) : Reaches cs rest

/-- Blanks, or a comment with its line feed that holds no quote. -/
inductive Layout : List Char → Prop where
  | blanks {cs : List Char} (h : ∀ c ∈ cs, Text.isBlank c = true) : Layout cs
  | comment {cs : List Char} (hline : '\n' ∉ cs) (hquote : '"' ∉ cs) :
    Layout (';' :: ';' :: (cs ++ ['\n']))

/-! ## Steps of a scan -/

theorem Scans.of_layout {cs : List Char} {w : List Lexeme} (h : Scans cs w)
    (hl : layoutLength cs ≠ 0) : Scans (cs.drop (layoutLength cs)) w := by
  cases h with
  | nil => exact absurd rfl hl
  | layout _ h => exact h
  | token hzero => exact absurd hzero hl

theorem Scans.of_token {cs : List Char} {x : Lexeme} {n : Nat} {w : List Lexeme} (h : Scans cs w)
    (hl : layoutLength cs = 0) (hx : lexeme? cs = some (x, n)) :
    ∃ v, w = x :: v ∧ Scans (cs.drop n) v := by
  cases h with
  | nil => cases hx
  | layout hne => exact absurd hl hne
  | token _ hy h =>
    obtain ⟨rfl, rfl⟩ := Prod.mk.inj (Option.some.inj (hx.symm.trans hy))
    exact ⟨_, rfl, h⟩

theorem Scans.blanks {cs : List Char} {w : List Lexeme} (h : Scans cs w) :
    ∀ {xs : List Char}, (∀ c ∈ xs, Text.isBlank c = true) → Scans (xs ++ cs) w
  | [], _ => h
  | x :: xs, hxs => by
    rw [List.forall_mem_cons] at hxs
    exact (h.blanks hxs.2).blank hxs.1

/-- Two semicolons and no line feed. -/
def IsComment (cs : List Char) : Prop := ∃ ds, cs = ';' :: ';' :: ds ∧ '\n' ∉ ds

/-- The text is empty or begins a new line. -/
def LineEnd (cs : List Char) : Prop := ∀ c, cs.head? = some c → c = '\n'

theorem layoutLength_comment {cs rest : List Char} (hcs : IsComment cs) (hrest : LineEnd rest) :
    layoutLength (cs ++ rest) = cs.length := by
  obtain ⟨ds, rfl, hline⟩ := hcs
  have hrun : runLength (· != '\n') (ds ++ rest) = ds.length := by
    have hds : ∀ c ∈ ds, (c != '\n') = true := by
      intro c hc
      have hne : c ≠ '\n' := fun heq => hline (heq ▸ hc)
      simpa using hne
    rw [runLength, List.takeWhile_append_of_pos hds]
    cases rest with
    | nil => simp
    | cons c cs =>
      obtain rfl := hrest c rfl
      simp
  have hblank : runLength Text.isBlank (';' :: ';' :: (ds ++ rest)) = 0 := by
    rw [runLength_cons, if_neg (by decide)]
  show layoutLength (';' :: ';' :: (ds ++ rest)) = ds.length + 1 + 1
  rw [layoutLength, hblank]
  show 2 + runLength (· != '\n') (ds ++ rest) = _
  rw [hrun]
  omega

/-- A comment before the end of a line does not change the word. -/
theorem Scans.comment {cs rest : List Char} {w : List Lexeme} (h : Scans rest w)
    (hcs : IsComment cs) (hrest : LineEnd rest) : Scans (cs ++ rest) w := by
  have hlength := layoutLength_comment hcs hrest
  refine .layout ?_ ?_
  · obtain ⟨ds, rfl, -⟩ := hcs
    rw [hlength]
    exact Nat.succ_ne_zero _
  · rw [hlength, List.drop_left]
    exact h

/-- Layout is blanks or a comment, and a comment goes on to the end of its line. -/
theorem layout_cases {cs : List Char} (hl : layoutLength cs ≠ 0) :
    (∀ c ∈ cs.take (layoutLength cs), Text.isBlank c = true) ∨
      IsComment (cs.take (layoutLength cs)) ∧ LineEnd (cs.drop (layoutLength cs)) := by
  by_cases hblank : runLength Text.isBlank cs = 0
  · have hlayout : layoutLength cs = commentLength cs := by simp [layoutLength, hblank]
    rw [hlayout] at hl ⊢
    refine .inr ⟨?_, head?_drop_commentLength hl⟩
    unfold commentLength at hl ⊢
    split at hl
    · next ds =>
      rw [Nat.add_comm]
      refine ⟨ds.take (runLength (· != '\n') ds), rfl, fun hmem => ?_⟩
      simpa using forall_mem_take_runLength le_rfl _ hmem
    · exact absurd rfl hl
  · have hlayout : layoutLength cs = runLength Text.isBlank cs := by simp [layoutLength, hblank]
    rw [hlayout]
    exact .inl (forall_mem_take_runLength le_rfl)

/-! ## What is put in -/

namespace Layout

variable {ins rest : List Char}

theorem quote_notMem (h : Layout ins) : '"' ∉ ins := by
  cases h with
  | blanks hblank =>
    intro hmem
    exact absurd (hblank _ hmem) (by decide)
  | comment _ hquote => simpa using hquote

theorem boundary (h : Layout ins) (hne : ins ≠ []) (rest : List Char) : Boundary (ins ++ rest) := by
  cases h with
  | blanks hblank =>
    obtain ⟨c, cs, rfl⟩ := List.exists_cons_of_ne_nil hne
    intro d hd
    obtain rfl := Option.some.inj hd
    exact not_isIdentChar_of_isBlank (hblank c (by simp))
  | comment =>
    intro d hd
    obtain rfl := Option.some.inj hd
    decide

theorem scans (h : Layout ins) {w : List Lexeme} (hw : Scans rest w) : Scans (ins ++ rest) w := by
  cases h with
  | blanks hblank => exact hw.blanks hblank
  | @comment cs hline _ =>
    have hfeed : Scans ('\n' :: rest) w := hw.blank (by decide)
    have hlong : IsComment (';' :: ';' :: cs) := ⟨cs, rfl, hline⟩
    have hcomment := hfeed.comment hlong (by simp [LineEnd])
    simpa using hcomment

/-- After the first line of what is put in there are only blanks. -/
theorem split (h : Layout ins) : ∃ line after, ins = line ++ after ∧ '\n' ∉ line ∧
    (∀ c ∈ after, Text.isBlank c = true) ∧ (after = [] ∨ after.head? = some '\n') := by
  cases h with
  | blanks hblank =>
    refine ⟨ins.takeWhile (· != '\n'), ins.dropWhile (· != '\n'),
      List.takeWhile_append_dropWhile.symm, fun hmem => ?_, fun c hc => ?_, ?_⟩
    · simpa using List.mem_takeWhile_imp hmem
    · exact hblank c ((List.dropWhile_sublist _).mem hc)
    · have hnot := List.head?_dropWhile_not (· != '\n') ins
      cases hdrop : ins.dropWhile (· != '\n') with
      | nil => exact .inl rfl
      | cons c cs =>
        rw [hdrop] at hnot
        exact .inr (by simpa using hnot)
  | @comment cs hline _ =>
    refine ⟨';' :: ';' :: cs, ['\n'], by simp, by simpa using hline, fun c hc => ?_, .inr rfl⟩
    obtain rfl := List.mem_singleton.mp hc
    decide

/-- A comment takes in what is put after it up to the end of its line. -/
theorem scans_after_comment (h : Layout ins) {cs : List Char} {w : List Lexeme} (hw : Scans rest w)
    (hcs : IsComment cs) (hrest : LineEnd rest) : Scans (cs ++ (ins ++ rest)) w := by
  obtain ⟨ds, rfl, hline⟩ := hcs
  obtain ⟨line, after, rfl, hfirst, hblank, hafter⟩ := h.split
  have hlong : IsComment ((';' :: ';' :: ds) ++ line) := by
    refine ⟨ds ++ line, by simp, ?_⟩
    rw [List.mem_append, not_or]
    exact ⟨hline, hfirst⟩
  have hend : LineEnd (after ++ rest) := by
    rcases hafter with rfl | hhead
    · exact hrest
    · intro c hc
      rw [List.head?_append, hhead] at hc
      exact (Option.some.inj hc).symm
  have hcomment := (hw.blanks hblank).comment hlong hend
  simpa using hcomment

/-- A quote that is open stays open. -/
theorem closingQuote? (h : Layout ins) (hrest : Token.closingQuote? rest = none) :
    Token.closingQuote? (ins ++ rest) = none := by
  cases h with
  | blanks hblank =>
    have hback : '\\' ∉ ins := fun hmem => absurd (hblank _ hmem) (by decide)
    exact closingQuote?_plain_append (Layout.blanks hblank).quote_notMem hback hrest
  | @comment cs _ hquote =>
    have hcs : Token.closingQuote? (';' :: ';' :: cs) = none :=
      closingQuote?_eq_none (by simpa using hquote)
    have hfeed := closingQuote?_append_lineFeed hcs hrest
    simpa using hfeed

theorem closingQuote?_after_comment (h : Layout ins) {cs : List Char}
    (hcs : Token.closingQuote? (cs ++ rest) = none) (hrest : LineEnd rest) :
    Token.closingQuote? (cs ++ (ins ++ rest)) = none := by
  have hopen : Token.closingQuote? (cs ++ ins) = none :=
    closingQuote?_append_of_notMem (closingQuote?_of_append hcs) h.quote_notMem
  rw [← List.append_assoc]
  cases rest with
  | nil => rwa [List.append_nil]
  | cons c rest =>
    obtain rfl := hrest c rfl
    have hnext : Token.closingQuote? ('\n' :: rest) = none := closingQuote?_line hrest hcs
    rw [closingQuote?_cons (by decide) (by decide), Option.map_eq_none_iff] at hnext
    exact closingQuote?_append_lineFeed hopen hnext

end Layout

/-! ## Putting layout in -/

/-- An identifier that begins with an open quote: its characters hide no quote, and no quote is
closed after it. -/
theorem Token.closingQuote?_drop_unclosed {ds : List Char} {x : Lexeme} {n : Nat}
    (hx : lexeme? ('"' :: ds) = some (x, n)) (hopen : closingQuote? ds = none) :
    '"' ∉ ds.take (n - 1) ∧ '\\' ∉ ds.take (n - 1) ∧ closingQuote? (ds.drop (n - 1)) = none := by
  obtain ⟨-, hlength⟩ := lexeme?_of_unclosed hx hopen
  have hrun : n - 1 = runLength isIdentChar ds := by
    rw [hlength, identLength, runLength_cons, if_pos (by decide)]
    rfl
  have hback : '\\' ∉ ds.take (n - 1) := by
    intro hmem
    rw [hrun] at hmem
    exact ne_of_isIdentChar (forall_mem_take_runLength le_rfl _ hmem) (by simp) rfl
  rw [← List.take_append_drop (n - 1) ds] at hopen
  obtain ⟨hquote, hrest⟩ := closingQuote?_append hopen hback
  exact ⟨hquote, hback, hrest⟩

/-- A token that begins with no quote does not close one. -/
theorem Token.closingQuote?_token {cs rest : List Char} {x : Lexeme} {n : Nat}
    (hx : lexeme? cs = some (x, n)) (hopen : closingQuote? cs = none)
    (hrest : closingQuote? (cs.drop n) = none → closingQuote? rest = none) :
    closingQuote? (cs.take n ++ rest) = none := by
  have hhead : cs.head? ≠ some '"' := by
    intro hhead
    obtain ⟨ds, rfl⟩ := List.head?_eq_some_iff.mp hhead
    cases hopen
  obtain ⟨-, hback⟩ := render_of_lexeme? hx hhead
  rw [← List.take_append_drop n cs] at hopen
  obtain ⟨hquote, hdrop⟩ := closingQuote?_append hopen hback
  exact closingQuote?_plain_append hquote hback (hrest hdrop)

/-- What is put in between the two parts of a text leaves the word of the text as it is, and a quote
open that the text leaves open. -/
structure TakesIn (ins before rest : List Char) : Prop where
  scans : ∀ w, Scans (before ++ rest) w → Scans (before ++ (ins ++ rest)) w
  quote : closingQuote? (before ++ rest) = none → closingQuote? (before ++ (ins ++ rest)) = none

namespace TakesIn

variable {cs ins before rest : List Char}

theorem here (hins : Layout ins) : TakesIn ins [] rest := ⟨fun _ => hins.scans, hins.closingQuote?⟩

/-- Layout may come before. If it is a comment that the place comes right after, the comment takes
in what is put there. -/
theorem layout (h : TakesIn ins before rest) (hins : Layout ins) (hl : layoutLength cs ≠ 0)
    (hdrop : cs.drop (layoutLength cs) = before ++ rest) :
    TakesIn ins (cs.take (layoutLength cs) ++ before) rest := by
  have htext : cs.take (layoutLength cs) ++ before ++ rest = cs := by
    rw [List.append_assoc, ← hdrop, List.take_append_drop]
  constructor
  · intro w hw
    rw [htext] at hw
    have hrest := hw.of_layout hl
    rw [hdrop] at hrest
    rw [List.append_assoc]
    rcases layout_cases hl with hblank | ⟨hcomment, hend⟩
    · exact (h.scans w hrest).blanks hblank
    · rw [hdrop] at hend
      cases before with
      | nil => exact hins.scans_after_comment hrest hcomment hend
      | cons c before => exact (h.scans w hrest).comment hcomment hend
  · intro hquote
    rw [htext] at hquote
    have hopen := closingQuote?_drop_layout hquote
    rw [hdrop] at hopen
    have hrest := h.quote hopen
    rw [← htext, List.append_assoc] at hquote
    rw [List.append_assoc]
    rcases layout_cases hl with hblank | ⟨-, hend⟩
    · refine closingQuote?_plain_append ?_ ?_ hrest <;>
      · intro hmem
        exact absurd (hblank _ hmem) (by decide)
    · rw [hdrop] at hend
      cases before with
      | nil => exact hins.closingQuote?_after_comment hquote hend
      | cons c before =>
        obtain rfl := hend c rfl
        rw [List.cons_append, closingQuote?_cons (by decide) (by decide),
          Option.map_eq_none_iff] at hrest
        exact closingQuote?_append_lineFeed (closingQuote?_of_append hquote) hrest

/-- A token may come before. It is found again in the text up to the place, which it does not reach
across. -/
theorem token {x : Lexeme} {n : Nat} (h : TakesIn ins before rest) (hins : Layout ins)
    (hne : ins ≠ []) (hl : layoutLength cs = 0) (hx : lexeme? cs = some (x, n))
    (hdrop : cs.drop n = before ++ rest) : TakesIn ins (cs.take n ++ before) rest := by
  have hn := lexeme?_length_le hx
  have htext : cs.take n ++ before ++ rest = cs := by
    rw [List.append_assoc, ← hdrop, List.take_append_drop]
  have hcut : cs.take (n + before.length) = cs.take n ++ before := by
    conv_lhs => rw [← htext]
    refine List.take_left' ?_
    rw [List.length_append, List.length_take, Nat.min_eq_left hn]
  have hunclosed : ∀ ds, cs = '"' :: ds → closingQuote? ds = none →
      closingQuote? (ds.take (n + before.length - 1) ++ (ins ++ rest)) = none := by
    rintro ds rfl hds
    obtain ⟨k, rfl⟩ := Nat.exists_eq_succ_of_ne_zero (lexeme?_length_ne_zero hx)
    obtain ⟨hquote, hback, hdone⟩ := closingQuote?_drop_unclosed hx hds
    rw [Nat.succ_add, List.take_succ_cons, List.take_succ_cons, List.cons_append] at hcut
    rw [Nat.succ_add, Nat.succ_sub_one, (List.cons.inj hcut).2, List.append_assoc]
    exact closingQuote?_plain_append hquote hback (h.quote (hdrop ▸ hdone))
  obtain ⟨hlayout, htoken⟩ :=
    lexeme?_take_append hx (Nat.le_add_right n before.length) (hins.boundary hne rest) hunclosed
  rw [hcut] at hlayout htoken
  constructor
  · intro w hw
    rw [htext] at hw
    obtain ⟨v, rfl, hv⟩ := hw.of_token hl hx
    rw [hdrop] at hv
    refine .token hlayout htoken ?_
    have hskip : (cs.take n ++ before ++ (ins ++ rest)).drop n = before ++ (ins ++ rest) := by
      rw [List.append_assoc]
      exact List.drop_left' (by rw [List.length_take, Nat.min_eq_left hn])
    rw [hskip]
    exact h.scans v hv
  · intro hquote
    rw [htext] at hquote
    rw [List.append_assoc]
    exact closingQuote?_token hx hquote fun hopen => h.quote (hdrop ▸ hopen)

end TakesIn

/-- Wherever a scan comes to stand, layout can be put in. -/
theorem Reaches.insert {cs rest ins : List Char} (h : Reaches cs rest) (hins : Layout ins)
    (hne : ins ≠ []) : ∃ before, cs = before ++ rest ∧ TakesIn ins before rest := by
  induction h with
  | here cs => exact ⟨[], rfl, .here hins⟩
  | @layout cs rest hl _ ih =>
    obtain ⟨before, hdrop, htakes⟩ := ih
    refine ⟨cs.take (layoutLength cs) ++ before, ?_, htakes.layout hins hl hdrop⟩
    rw [List.append_assoc, ← hdrop, List.take_append_drop]
  | @token cs rest x n hl hx _ ih =>
    obtain ⟨before, hdrop, htakes⟩ := ih
    refine ⟨cs.take n ++ before, ?_, htakes.token hins hne hl hx hdrop⟩
    rw [List.append_assoc, ← hdrop, List.take_append_drop]

namespace Reader

variable {α : Type}

/-- Layout does not change what a source says. Wherever the scan of a program comes to stand, blanks
or a comment can be put in, and the source is read as the same tree up to the marks of its nodes. -/
theorem parse_insert {base : Nat} {source : String} {p : Program α} {before rest ins : List Char}
    (base' : Nat) (h : parse base source = .ok p) (htext : source.toList = before ++ rest)
    (hplace : Reaches source.toList rest) (hins : Layout ins) :
    ∃ q : Program α, parse base' (String.ofList (before ++ ins ++ rest)) = .ok q ∧
      Node.bareAll q.items = Node.bareAll p.items := by
  have hscans : Scans source.toList (Node.wordAll p.items) := by
    obtain ⟨⟨last, hstop⟩, -⟩ := parse_ok_iff.mp ⟨p, h⟩
    rw [Node.wordAll, flattenAll_of_parse h, Token.map_fst_piece]
    exact Scans.of_scanFrom hstop
  refine parse_of_scans (built_of_parse h) ?_
  by_cases hne : ins = []
  · rwa [hne, List.append_nil, ← htext]
  · obtain ⟨before', htext', hinsert⟩ := hplace.insert hins hne
    obtain rfl : before' = before := List.append_cancel_right (htext'.symm.trans htext)
    rw [List.append_assoc]
    exact hinsert.scans _ (htext ▸ hscans)

/-- A comment between the items of a call, and what is read with it. -/
theorem parse_insert_call :
    Reaches "(a b)".toList " b)".toList ∧ Layout ";; c\n".toList ∧
    ∃ p q : Program Unit, parse 0 "(a b)" = .ok p ∧ parse 0 "(a;; c\n b)" = .ok q ∧
      Node.bareAll q.items = Node.bareAll p.items := by
  have hplace : Reaches "(a b)".toList " b)".toList :=
    .token (x := .opener .round) (n := 1) (by decide) (by decide)
      (.token (x := .leaf .identifier "a") (n := 1) (by decide) (by decide) (.here _))
  have hline : '\n' ∉ [' ', 'c'] := by decide
  have hins : Layout ";; c\n".toList := .comment hline (by decide)
  have hscan : Token.scan "(a b)" = ⟨[⟨.opener .round, 1, 0⟩, ⟨.leaf .identifier "a", 1, 1⟩,
      ⟨.leaf .identifier "b", 1, 3⟩, ⟨.closer .round, 1, 4⟩], .finished 1⟩ := by decide +kernel
  have hparse : (parse 0 "(a b)" : Except SyntaxError (Program Unit)) = .ok
      ⟨[.group .call [.leaf .identifier "a" ⟨1, 2⟩, .leaf .identifier "b" ⟨1, 6⟩] ⟨1, 0⟩], 1⟩ := by
    unfold parse
    rw [hscan]
    rfl
  have htext : "(a b)".toList = "(a".toList ++ " b)".toList := rfl
  obtain ⟨q, hq, hbare⟩ := parse_insert 0 hparse htext hplace hins
  exact ⟨hplace, hins, _, q, hparse, hq, hbare⟩

end Reader

end Lisplet
