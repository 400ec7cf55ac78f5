import Lisplet.Proofs.Syntax.Leaves

/-!
# Scanning

`Scans cs w` says that a text is scanned to its end and that `w` is the word of its tokens, wherever
the text stands in a source. What a scan finds is legible: written out again with layout between
the leaves, it is scanned to the same word (`Spells.scans` and `Scans.legible`).
-/

namespace Lisplet

open Token

/-- The text is scanned to its end, and its tokens form the word. -/
inductive Scans : List Char → List Lexeme → Prop where
  | nil : Scans [] []
  | layout {cs : List Char} {w : List Lexeme} (hl : layoutLength cs ≠ 0)
      (h : Scans (cs.drop (layoutLength cs)) w) : Scans cs w
  | token {cs : List Char} {x : Lexeme} {n : Nat} {w : List Lexeme} (hl : layoutLength cs = 0)
      (hx : lexeme? cs = some (x, n)) (h : Scans (cs.drop n) w) : Scans cs (x :: w)

namespace Token

/-- A token is a bracket or a leaf. -/
theorem lexeme?_cases {cs : List Char} {x : Lexeme} {n : Nat} (h : lexeme? cs = some (x, n)) :
    (∃ b ds, x = .closer b ∧ cs = b.closer :: ds ∧ n = 1) ∨
      (∃ b ds, x = .opener b ∧ cs = b.opener :: ds ∧ n = 1) ∨ leaf? cs = some (x, n) := by
  have hfind : ∀ {f : Bracket → Char} {c : Char} {b : Bracket},
      [Bracket.round, .square, .curly].find? (f · == c) = some b → f b = c := by
    intro f c b h
    simpa using List.find?_some h
  unfold lexeme? at h
  split at h
  · simp at h
  · next c cs =>
    split at h
    · next b hb =>
      obtain ⟨rfl, rfl⟩ := Prod.mk.inj (Option.some.inj h)
      obtain rfl : b.closer = c := hfind hb
      exact .inl ⟨b, cs, rfl, rfl, rfl⟩
    · split at h
      · next b hb =>
        obtain ⟨rfl, rfl⟩ := Prod.mk.inj (Option.some.inj h)
        obtain rfl : b.opener = c := hfind hb
        exact .inr (.inl ⟨b, cs, rfl, rfl, rfl⟩)
      · exact .inr (.inr h)

theorem lexeme?_length_ne_zero {cs : List Char} {x : Lexeme} {n : Nat}
    (h : lexeme? cs = some (x, n)) : n ≠ 0 := by
  rcases lexeme?_cases h with ⟨_, _, _, _, rfl⟩ | ⟨_, _, _, _, rfl⟩ | hleaf
  · decide
  · decide
  · exact (leaf?_cases hleaf).1

theorem drop_pred_cons {c : Char} {cs : List Char} {n : Nat} (hn : n ≠ 0) :
    cs.drop (n - 1) = (c :: cs).drop n := by
  obtain ⟨m, rfl⟩ := Nat.exists_eq_succ_of_ne_zero hn
  rfl

@[simp]
theorem scanFrom_nil (line offset : Nat) : scanFrom line offset [] = ⟨[], .finished line⟩ := by
  rw [scanFrom]

theorem scanFrom_layout {line offset : Nat} {cs : List Char} (hl : layoutLength cs ≠ 0) :
    scanFrom line offset cs =
      scanFrom (line + lineFeeds (cs.take (layoutLength cs))) (offset + layoutLength cs)
        (cs.drop (layoutLength cs)) := by
  cases cs with
  | nil => exact absurd rfl hl
  | cons c cs =>
    rw [scanFrom]
    simp only [bne_iff_ne, if_pos hl, drop_pred_cons (c := c) hl]

theorem scanFrom_token {line offset : Nat} {cs : List Char} {x : Lexeme} {n : Nat}
    (hl : layoutLength cs = 0) (hx : lexeme? cs = some (x, n)) :
    scanFrom line offset cs =
      ⟨⟨x, line, offset⟩ :: (scanFrom (line + lineFeeds (cs.take n)) (offset + n) (cs.drop n)).tokens,
        (scanFrom (line + lineFeeds (cs.take n)) (offset + n) (cs.drop n)).stop⟩ := by
  cases cs with
  | nil => simp [lexeme?] at hx
  | cons c cs =>
    rw [scanFrom]
    simp only [hl, bne_self_eq_false, Bool.false_eq_true, if_false, hx,
      drop_pred_cons (c := c) (lexeme?_length_ne_zero hx)]

theorem scanFrom_unrecognized {line offset : Nat} {c : Char} {cs : List Char}
    (hl : layoutLength (c :: cs) = 0) (hx : lexeme? (c :: cs) = none) :
    scanFrom line offset (c :: cs) = ⟨[], .unrecognized line offset c⟩ := by
  rw [scanFrom]
  simp only [hl, bne_self_eq_false, Bool.false_eq_true, if_false, hx]

theorem layoutLength_le (cs : List Char) : layoutLength cs ≤ cs.length := by
  unfold layoutLength
  split
  · exact runLength_le _ _
  · unfold commentLength
    split
    · next ds _ =>
      have := runLength_le (· != '\n') ds
      simp only [List.length_cons]
      omega
    · exact Nat.zero_le _

/-- Induction along a scan: over layout, over a token, up to the end or to a character that starts
no token. -/
@[elab_as_elim]
theorem scan_induction {motive : List Char → Prop} (nil : motive [])
    (layout : ∀ cs, layoutLength cs ≠ 0 → motive (cs.drop (layoutLength cs)) → motive cs)
    (token : ∀ cs x n, layoutLength cs = 0 → lexeme? cs = some (x, n) → motive (cs.drop n) →
      motive cs)
    (unrecognized : ∀ c cs, layoutLength (c :: cs) = 0 → lexeme? (c :: cs) = none →
      motive (c :: cs)) (cs : List Char) : motive cs := by
  induction hn : cs.length using Nat.strong_induction_on generalizing cs with
  | _ n ih =>
    cases cs with
    | nil => exact nil
    | cons c cs =>
      have hshorter : ∀ k, k ≠ 0 → ((c :: cs).drop k).length < n := by
        intro k hk
        rw [← hn, List.length_drop, List.length_cons]
        omega
      by_cases hl : layoutLength (c :: cs) = 0
      · cases hx : lexeme? (c :: cs) with
        | none => exact unrecognized c cs hl hx
        | some xk =>
          obtain ⟨x, k⟩ := xk
          exact token _ x k hl hx (ih _ (hshorter k (lexeme?_length_ne_zero hx)) _ rfl)
      · exact layout _ hl (ih _ (hshorter _ hl) _ rfl)

end Token

/-- A scan that reaches the end gives its word. -/
theorem Scans.of_scanFrom {cs : List Char} {line offset last : Nat}
    (h : (scanFrom line offset cs).stop = .finished last) :
    Scans cs (word (scanFrom line offset cs).tokens) := by
  induction cs using scan_induction generalizing line offset with
  | nil =>
    rw [scanFrom_nil]
    exact .nil
  | layout cs hl ih =>
    rw [scanFrom_layout hl] at h ⊢
    exact .layout hl (ih h)
  | token cs x n hl hx ih =>
    rw [scanFrom_token hl hx] at h ⊢
    exact .token hl hx (ih h)
  | unrecognized c cs hl hx =>
    rw [scanFrom_unrecognized hl hx] at h
    cases h

/-- The word of a scan does not depend on where the text stands. -/
theorem Scans.scanFrom {cs : List Char} {w : List Lexeme} (h : Scans cs w) (line offset : Nat) :
    word (Token.scanFrom line offset cs).tokens = w ∧
      ∃ last, (Token.scanFrom line offset cs).stop = .finished last := by
  induction h generalizing line offset with
  | nil =>
    rw [scanFrom_nil]
    exact ⟨rfl, line, rfl⟩
  | layout hl _ ih =>
    rw [scanFrom_layout hl]
    exact ih _ _
  | token hl hx _ ih =>
    rw [scanFrom_token hl hx]
    obtain ⟨hword, hstop⟩ := ih _ _
    exact ⟨congrArg (_ :: ·) hword, hstop⟩

@[simp]
theorem Token.lineFeeds_append (xs ys : List Char) :
    lineFeeds (xs ++ ys) = lineFeeds xs + lineFeeds ys :=
  List.count_append

/-- A blank before a text is counted and skipped. -/
theorem Token.scanFrom_blank {c : Char} (hc : Text.isBlank c = true) (line offset : Nat)
    (cs : List Char) :
    scanFrom line offset (c :: cs) = scanFrom (line + lineFeeds [c]) (offset + 1) cs := by
  have hrun : runLength Text.isBlank (c :: cs) = runLength Text.isBlank cs + 1 := by
    rw [runLength_cons, if_pos hc]
  have hlayout : layoutLength (c :: cs) = runLength Text.isBlank cs + 1 := by
    simp [layoutLength, hrun]
  have hfeeds : ∀ n,
      lineFeeds ((c :: cs).take (n + 1)) = lineFeeds [c] + lineFeeds (cs.take n) :=
    fun n => lineFeeds_append [c] (cs.take n)
  rw [scanFrom_layout (by omega), hlayout, hfeeds, List.drop_succ_cons]
  by_cases hzero : runLength Text.isBlank cs = 0
  · rw [hzero]
    rfl
  · -- the blanks that follow are skipped together with this one
    have hcs : layoutLength cs = runLength Text.isBlank cs := by simp [layoutLength, hzero]
    rw [scanFrom_layout (hcs.trans_ne hzero), hcs]
    congr 1 <;> omega

/-- A blank before a text does not change its word. -/
theorem Scans.blank {c : Char} {cs : List Char} {w : List Lexeme} (hc : Text.isBlank c = true)
    (h : Scans cs w) : Scans (c :: cs) w := by
  obtain ⟨hword, last, hstop⟩ := h.scanFrom (0 + lineFeeds [c]) (0 + 1)
  rw [← scanFrom_blank hc] at hword hstop
  exact hword ▸ .of_scanFrom hstop

/-! ## Writing words -/

/-- A lexeme that is read back wherever a boundary follows. -/
def Lexeme.Writable : Lexeme → Prop
  | .leaf kind text => kind.Writable text.toList
  | _ => True

/-- A word that can be written: an identifier that begins with a quote is followed by no quote. -/
def Legible : List Lexeme → Prop
  | [] => True
  | x :: w => (x.Writable ∨ Unclosed x ∧ ∀ y ∈ w, '"' ∉ y.render) ∧ Legible w

theorem legible_of_writable {w : List Lexeme} (h : ∀ x ∈ w, x.Writable) : Legible w := by
  induction w with
  | nil => trivial
  | cons x w ih => exact ⟨.inl (h x (by simp)), ih fun y hy => h y (by simp [hy])⟩

/-- The text is made of the source texts of the lexemes, with blanks between them at will and at
least where a leaf would reach into what follows. -/
inductive Spells : List Lexeme → List Char → Prop where
  | nil : Spells [] []
  | blank {c : Char} {w : List Lexeme} {cs : List Char} (hc : Text.isBlank c = true)
      (h : Spells w cs) : Spells w (c :: cs)
  | cons {x : Lexeme} {w : List Lexeme} {cs : List Char}
      (hr : ∀ kind text, x = .leaf kind text → Boundary cs) (h : Spells w cs) :
      Spells (x :: w) (x.render ++ cs)

theorem Spells.quote_notMem {w : List Lexeme} {cs : List Char} (h : Spells w cs)
    (hw : ∀ x ∈ w, '"' ∉ x.render) : '"' ∉ cs := by
  induction h with
  | nil => simp
  | blank hc _ ih =>
    rw [List.mem_cons, not_or]
    refine ⟨?_, ih hw⟩
    rintro rfl
    exact absurd hc (by decide)
  | cons _ _ ih =>
    rw [List.mem_append, not_or]
    exact ⟨hw _ (by simp), ih fun x hx => hw x (by simp [hx])⟩

namespace Token

theorem lexeme?_opener (b : Bracket) (cs : List Char) :
    layoutLength (b.opener :: cs) = 0 ∧ lexeme? (b.opener :: cs) = some (.opener b, 1) := by
  cases b <;> exact ⟨rfl, rfl⟩

theorem lexeme?_closer (b : Bracket) (cs : List Char) :
    layoutLength (b.closer :: cs) = 0 ∧ lexeme? (b.closer :: cs) = some (.closer b, 1) := by
  cases b <;> exact ⟨rfl, rfl⟩

end Token

/-- A legible word that is written out is scanned to the same word. -/
theorem Spells.scans {w : List Lexeme} {cs : List Char} (h : Spells w cs) (hw : Legible w) :
    Scans cs w := by
  induction h with
  | nil => exact .nil
  | blank hc _ ih => exact (ih hw).blank hc
  | @cons x w cs hr hspells ih =>
    obtain ⟨hx, hw⟩ := hw
    have hdrop : (x.render ++ cs).drop x.render.length = cs := List.drop_left
    have htoken : layoutLength (x.render ++ cs) = 0 ∧
        lexeme? (x.render ++ cs) = some (x, x.render.length) := by
      cases x with
      | opener b => exact lexeme?_opener b cs
      | closer b => exact lexeme?_closer b cs
      | leaf kind text =>
        rcases hx with hx | ⟨hx, hquote⟩
        · exact lexeme?_render hx (hr kind text rfl)
        · exact lexeme?_unclosed hx (hspells.quote_notMem hquote) (hr kind text rfl)
    refine .token htoken.1 htoken.2 ?_
    rw [hdrop]
    exact ih hw

/-! ## Reading words -/

namespace Token

/-- A leaf that is no string stands in the source as it is written, without a backslash. -/
theorem render_of_leaf? {cs : List Char} {x : Lexeme} {n : Nat} (h : leaf? cs = some (x, n))
    (hquote : cs.head? ≠ some '"') : x.render = cs.take n ∧ '\\' ∉ cs.take n := by
  have hident : ∀ {ds : List Char}, (∀ c ∈ ds, isIdentChar c = true) → '\\' ∉ ds :=
    fun hds hmem => ne_of_isIdentChar (hds _ hmem) (by simp) rfl
  obtain ⟨hn, ⟨rfl, -⟩ | ⟨rfl, rfl⟩ | ⟨rfl, rfl⟩ | ⟨rfl, rfl⟩ | ⟨rfl, rfl⟩ | ⟨rfl, rfl, -⟩⟩ :=
    leaf?_cases h
  · exact absurd (stringLength_of_head hquote) hn
  · refine ⟨by simp [Lexeme.render, LeafKind.render], hident ?_⟩
    rw [keywordLength_eq] at hn ⊢
    split at hn
    · next hmem =>
      rw [if_pos hmem]
      exact forall_mem_take_runLength le_rfl
    · exact absurd rfl hn
  · obtain ⟨ds, rfl, hlength, -⟩ := drop_take_markedLength hn
    rw [keyLength, hlength, List.take_succ_cons, List.drop_one, List.tail_cons]
    refine ⟨by simp [Lexeme.render, LeafKind.render], ?_⟩
    rw [List.mem_cons, not_or]
    exact ⟨by decide, hident fun c hc =>
      isIdentChar_of_isWord (forall_mem_take_runLength le_rfl c hc)⟩
  · exact ⟨by simp [Lexeme.render, LeafKind.render], hident (forall_mem_take_numberLength cs)⟩
  · obtain ⟨ds, rfl, hlength, -⟩ := drop_take_markedLength hn
    rw [restLength, hlength, List.take_succ_cons, List.drop_one, List.tail_cons]
    refine ⟨by simp [Lexeme.render, LeafKind.render], ?_⟩
    rw [List.mem_cons, not_or]
    exact ⟨by decide, hident (forall_mem_take_runLength le_rfl)⟩
  · exact ⟨by simp [Lexeme.render, LeafKind.render], hident (forall_mem_take_runLength le_rfl)⟩

/-- A token that is no string stands in the source as it is written, without a backslash. -/
theorem render_of_lexeme? {cs : List Char} {x : Lexeme} {n : Nat} (h : lexeme? cs = some (x, n))
    (hquote : cs.head? ≠ some '"') : x.render = cs.take n ∧ '\\' ∉ cs.take n := by
  rcases lexeme?_cases h with ⟨b, ds, rfl, rfl, rfl⟩ | ⟨b, ds, rfl, rfl, rfl⟩ | hleaf
  · exact ⟨rfl, by cases b <;> simp [Bracket.closer]⟩
  · exact ⟨rfl, by cases b <;> simp [Bracket.opener]⟩
  · exact render_of_leaf? hleaf hquote

/-- A comment goes on to the end of its line. -/
theorem head?_drop_commentLength {cs : List Char} (h : commentLength cs ≠ 0) :
    ∀ c, (cs.drop (commentLength cs)).head? = some c → c = '\n' := by
  unfold commentLength at h ⊢
  split at h
  · next ds =>
    intro c hc
    have hnot := List.head?_dropWhile_not (· != '\n') ds
    rw [Nat.add_comm, List.drop_succ_cons, List.drop_succ_cons, drop_runLength] at hc
    rw [hc] at hnot
    simpa using hnot
  · exact absurd rfl h

/-- Layout does not close a quote: blanks contain none, and a comment ends with its line. -/
theorem closingQuote?_drop_layout {cs : List Char} (h : closingQuote? cs = none) :
    closingQuote? (cs.drop (layoutLength cs)) = none := by
  have hsplit : ∀ n, cs.take n ++ cs.drop n = cs := fun n => List.take_append_drop n cs
  by_cases hblank : runLength Text.isBlank cs = 0
  · have hlayout : layoutLength cs = commentLength cs := by simp [layoutLength, hblank]
    rw [hlayout]
    by_cases hcomment : commentLength cs = 0
    · rwa [hcomment]
    · rw [← hsplit (commentLength cs)] at h
      exact closingQuote?_line (head?_drop_commentLength hcomment) h
  · have hlayout : layoutLength cs = runLength Text.isBlank cs := by simp [layoutLength, hblank]
    rw [hlayout]
    rw [← hsplit (runLength Text.isBlank cs)] at h
    refine (closingQuote?_append h ?_).2
    intro hmem
    exact absurd (forall_mem_take_runLength le_rfl _ hmem) (by decide)

end Token

/-- What a scan finds is legible; and in a text that leaves a quote open there is no further one
outside of comments. -/
theorem Scans.legible {cs : List Char} {w : List Lexeme} (h : Scans cs w) :
    Legible w ∧ (closingQuote? cs = none → ∀ x ∈ w, '"' ∉ x.render) := by
  induction h with
  | nil => exact ⟨trivial, fun _ => by simp⟩
  | layout _ _ ih => exact ⟨ih.1, fun hopen => ih.2 (closingQuote?_drop_layout hopen)⟩
  | @token cs x n w hl hx _ ih =>
    refine ⟨⟨?_, ih.1⟩, fun hopen => ?_⟩
    · rcases lexeme?_cases hx with ⟨b, ds, rfl, -⟩ | ⟨b, ds, rfl, -⟩ | hleaf
      · exact .inl trivial
      · exact .inl trivial
      · obtain ⟨kind, text, rfl, hwrite | ⟨ds, rfl, rfl, htext, hopen, rfl⟩⟩ :=
          writable_of_leaf? hleaf
        · exact .inl hwrite
        · -- the characters of the identifier hide no quote, so that none follows it
          have hident : isIdentChar '"' = true := by decide
          rw [← List.takeWhile_append_dropWhile (p := isIdentChar) (l := ds)] at hopen
          have hbackslash : '\\' ∉ ds.takeWhile isIdentChar := fun hmem =>
            ne_of_isIdentChar (List.mem_takeWhile_imp hmem) (by simp) rfl
          obtain ⟨hfree, hrest⟩ := closingQuote?_append hopen hbackslash
          have hdrop : ('"' :: ds).drop (identLength ('"' :: ds)) = ds.dropWhile isIdentChar := by
            rw [identLength, drop_runLength, List.dropWhile_cons, if_pos hident]
          rw [hdrop] at ih
          refine .inr ⟨⟨ds.takeWhile isIdentChar, ?_, fun c => List.mem_takeWhile_imp, hfree⟩,
            ih.2 hrest⟩
          rw [List.takeWhile_cons, if_pos hident] at htext
          rw [← htext, String.ofList_toList]
    · have hquote : cs.head? ≠ some '"' := by
        intro hhead
        obtain ⟨ds, rfl⟩ := List.head?_eq_some_iff.mp hhead
        exact ne_quote_of_closingQuote? hopen rfl
      obtain ⟨hrender, hbackslash⟩ := render_of_lexeme? hx hquote
      rw [← List.take_append_drop n cs] at hopen
      obtain ⟨hfree, hrest⟩ := closingQuote?_append hopen hbackslash
      rw [← hrender] at hfree
      simp only [List.mem_cons, forall_eq_or_imp]
      exact ⟨hfree, ih.2 hrest⟩

end Lisplet
