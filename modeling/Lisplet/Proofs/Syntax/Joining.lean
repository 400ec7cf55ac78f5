import Lisplet.Proofs.Syntax.Layout

/-!
# Sources one after the other

A source and, on a new line, another one are read as the items of the first and then those of the
second, on the lines below. For the scan this rests on two facts: at a line feed it does not matter
what stands before (`scanFrom_append`), and where a text stands only moves the places of its tokens
(`scanFrom_shift`). For the reader, moving the tokens moves the nodes, and items that were read
before stay where they are (`step_under`, `run_under`).

Main statement: `parse_append`.
-/

namespace Lisplet

namespace Token

/-! ## Moving a text -/

/-- The token, so many lines and characters further on. -/
def shift (lines chars : Nat) (t : Token) : Token := ⟨t.lexeme, t.line + lines, t.offset + chars⟩

/-- The end of a scan, so many lines and characters further on. -/
def Stop.shift (lines chars : Nat) : Stop → Stop
  | .finished line => .finished (line + lines)
  | .unrecognized line offset c => .unrecognized (line + lines) (offset + chars) c

/-- A scan only adds to the numbers with which it starts. -/
theorem scanFrom_shift (lines chars line offset : Nat) (cs : List Char) :
    scanFrom (line + lines) (offset + chars) cs =
      ⟨(scanFrom line offset cs).tokens.map (shift lines chars),
        (scanFrom line offset cs).stop.shift lines chars⟩ := by
  induction cs using scan_induction generalizing line offset with
  | nil =>
    rw [scanFrom_nil, scanFrom_nil]
    rfl
  | layout cs hl ih =>
    rw [scanFrom_layout hl, scanFrom_layout hl, Nat.add_right_comm line, Nat.add_right_comm offset,
      ih]
  | token cs x n hl hx ih =>
    rw [scanFrom_token hl hx, scanFrom_token hl hx, Nat.add_right_comm line,
      Nat.add_right_comm offset, ih]
    rfl
  | unrecognized c cs hl hx =>
    rw [scanFrom_unrecognized hl hx, scanFrom_unrecognized hl hx]
    rfl

/-! ## Text before a text -/

theorem scanFrom_blanks {xs : List Char} (hxs : ∀ c ∈ xs, Text.isBlank c = true)
    (line offset : Nat) (cs : List Char) :
    scanFrom line offset (xs ++ cs) = scanFrom (line + lineFeeds xs) (offset + xs.length) cs := by
  induction xs generalizing line offset with
  | nil => rfl
  | cons x xs ih =>
    rw [List.forall_mem_cons] at hxs
    have hfeeds : lineFeeds (x :: xs) = lineFeeds [x] + lineFeeds xs := lineFeeds_append [x] xs
    rw [List.cons_append, scanFrom_blank hxs.1, ih hxs.2, hfeeds, List.length_cons]
    congr 1 <;> omega

theorem scanFrom_comment {cs rest : List Char} (hcs : IsComment cs) (hrest : LineEnd rest)
    (line offset : Nat) :
    scanFrom line offset (cs ++ rest) =
      scanFrom (line + lineFeeds cs) (offset + cs.length) rest := by
  have hlength := layoutLength_comment hcs hrest
  have hne : layoutLength (cs ++ rest) ≠ 0 := by
    obtain ⟨ds, rfl, -⟩ := hcs
    rw [hlength]
    exact Nat.succ_ne_zero _
  rw [scanFrom_layout hne, hlength, List.take_left, List.drop_left]

/-- The token is an identifier that begins with a quote, as it does when the quote is never
closed. -/
def OpensQuote (t : Token) : Prop :=
  ∃ text, t.lexeme = .leaf .identifier text ∧ text.toList.head? = some '"'

theorem lineEnd_append {cs rest : List Char} (hcs : LineEnd cs) (hrest : LineEnd rest) :
    LineEnd (cs ++ rest) := by
  cases cs with
  | nil => exact hrest
  | cons c cs => exact fun d hd => hcs d hd

theorem boundary_of_lineEnd {cs : List Char} (h : LineEnd cs) : Boundary cs := by
  intro c hc
  obtain rfl := h c hc
  decide

/-- A text that leaves no quote open is scanned in the same way before a new line, and the scan of
the whole text goes on there. -/
theorem scanFrom_append {line offset last : Nat} {cs rest : List Char}
    (hstop : (scanFrom line offset cs).stop = .finished last)
    (hclosed : ∀ t ∈ (scanFrom line offset cs).tokens, ¬ t.OpensQuote) (hrest : LineEnd rest) :
    scanFrom line offset (cs ++ rest) =
      ⟨(scanFrom line offset cs).tokens ++ (scanFrom last (offset + cs.length) rest).tokens,
        (scanFrom last (offset + cs.length) rest).stop⟩ := by
  induction cs using scan_induction generalizing line offset with
  | nil =>
    rw [scanFrom_nil] at hstop ⊢
    obtain rfl := Stop.finished.inj hstop
    rfl
  | layout cs hl ih =>
    have hle := layoutLength_le cs
    rw [scanFrom_layout hl] at hstop hclosed ⊢
    have hskip : scanFrom line offset (cs.take (layoutLength cs) ++
        (cs.drop (layoutLength cs) ++ rest)) =
        scanFrom (line + lineFeeds (cs.take (layoutLength cs))) (offset + layoutLength cs)
          (cs.drop (layoutLength cs) ++ rest) := by
      have hlength : (cs.take (layoutLength cs)).length = layoutLength cs := by
        rw [List.length_take, Nat.min_eq_left hle]
      rcases layout_cases hl with hblank | ⟨hcomment, hend⟩
      · rw [scanFrom_blanks hblank, hlength]
      · rw [scanFrom_comment hcomment (lineEnd_append hend hrest), hlength]
    have hoffset : offset + layoutLength cs + (cs.drop (layoutLength cs)).length =
        offset + cs.length := by
      rw [List.length_drop]
      omega
    rw [← List.append_assoc, List.take_append_drop] at hskip
    rw [hskip, ih hstop hclosed, hoffset]
  | token cs x n hl hx ih =>
    have hle := lexeme?_length_le hx
    rw [scanFrom_token hl hx] at hstop hclosed ⊢
    simp only [List.mem_cons, forall_eq_or_imp] at hclosed
    have hquote : ∀ ds, cs = '"' :: ds → closingQuote? ds = none →
        closingQuote? (ds ++ rest) = none := by
      rintro ds rfl hopen
      obtain ⟨rfl, -⟩ := lexeme?_of_unclosed hx hopen
      refine absurd ⟨_, rfl, ?_⟩ hclosed.1
      rw [String.toList_ofList, List.takeWhile_cons, if_pos (by decide)]
      rfl
    obtain ⟨hlayout, htoken⟩ := lexeme?_append hx (boundary_of_lineEnd hrest) hquote
    have hoffset : offset + n + (cs.drop n).length = offset + cs.length := by
      rw [List.length_drop]
      omega
    rw [scanFrom_token hlayout htoken, List.take_append_of_le_length hle,
      List.drop_append_of_le_length hle, ih hstop hclosed.2, hoffset]
    rfl
  | unrecognized c cs hl hx =>
    rw [scanFrom_unrecognized hl hx] at hstop
    cases hstop

end Token

/-! ## Moving a tree -/

namespace Node

variable {α : Type}

mutual

/-- The tree, so many lines further down. -/
def lower (lines : Nat) : Node α → Node α
  | .leaf kind text mark => .leaf kind text ⟨mark.line + lines, mark.id⟩
  | .group kind items mark => .group kind (lowerAll lines items) ⟨mark.line + lines, mark.id⟩
  | .host value line serial => .host value line serial

/-- The trees, so many lines further down. -/
def lowerAll (lines : Nat) : List (Node α) → List (Node α)
  | [] => []
  | n :: ns => lower lines n :: lowerAll lines ns

end

theorem lowerAll_eq_map (lines : Nat) (ns : List (Node α)) :
    lowerAll lines ns = ns.map (lower lines) := by
  induction ns with
  | nil => rfl
  | cons n ns ih => rw [lowerAll, ih, List.map_cons]

end Node

namespace Reader

variable {α : Type} {base : Nat}

theorem markOf_shift (base lines chars : Nat) (t : Token) :
    markOf base (t.shift lines chars) =
      ⟨(markOf (base + 2 * chars) t).line + lines, (markOf (base + 2 * chars) t).id⟩ := by
  simp only [markOf, Token.shift, Mark.mk.injEq, Nat.cast_add, true_and]
  omega

/-- The nodes and the open brackets of a reader, so many lines and characters further on and with
other nodes before them in the outermost group. -/
def under (lines chars : Nat) (before items : List (Node α)) : List (Opened α) → State α
  | [] => ⟨Node.lowerAll lines items ++ before, []⟩
  | o :: outer =>
    ⟨Node.lowerAll lines items, ⟨o.bracket, o.token.shift lines chars,
      (under lines chars before o.before outer).items⟩ ::
        (under lines chars before o.before outer).opened⟩

/-- The state under other nodes. -/
def State.under (lines chars : Nat) (before : List (Node α)) (s : State α) : State α :=
  Reader.under lines chars before s.items s.opened

variable {lines chars : Nat} {before : List (Node α)}

/-- A node joins the innermost group, wherever that is. -/
theorem under_cons (n : Node α) (items : List (Node α)) (opened : List (Opened α)) :
    under lines chars before (n :: items) opened =
      ⟨n.lower lines :: (under lines chars before items opened).items,
        (under lines chars before items opened).opened⟩ := by
  cases opened <;> rfl

/-- Placing a token commutes with moving on. -/
theorem step_under {s s' : State α} {t : Token} (h : step (base + 2 * chars) s t = .ok s') :
    step base (s.under lines chars before) (t.shift lines chars) =
      .ok (s'.under lines chars before) := by
  obtain ⟨kind, text, ht, rfl⟩ | ⟨b, ht, rfl⟩ | ⟨o, outer, ht, ho, rfl⟩ := step_cases h
  · simp [step, Token.shift, ht, State.under, under_cons, Node.lower, ← markOf_shift]
  · simp [step, Token.shift, ht, State.under, under, Node.lowerAll]
  · simp [step, Token.shift, ht, ho, State.under, under, under_cons, Node.lower,
      Node.lowerAll_eq_map, ← markOf_shift]

theorem run_under (lines : Nat) (before : List (Node α)) {ts : List Token} {s s' : State α}
    (h : ts.foldlM (step (base + 2 * chars)) s = .ok s') :
    (ts.map (Token.shift lines chars)).foldlM (step base) (s.under lines chars before) =
      .ok (s'.under lines chars before) := by
  induction ts generalizing s with
  | nil =>
    obtain rfl := Except.ok.inj h
    rfl
  | cons t ts ih =>
    rw [List.foldlM_cons, bind_eq_ok] at h
    obtain ⟨s₁, hstep, hrun⟩ := h
    rw [List.map_cons, List.foldlM_cons, bind_eq_ok]
    exact ⟨_, step_under hstep, ih hrun⟩

/-- Reading is compositional. Two sources that can be read, the second one on a new line, make a
source that is read as the items of both, those of the second as many lines further down as the
first one has; and it has the lines of both. The first source must not leave a quote open, which the
second might close. -/
theorem parse_append {first second : String} {p q : Program α} (hp : parse base first = .ok p)
    (hq : parse (base + identities first) second = .ok q)
    (hclosed : ∀ t ∈ (Token.scan first).tokens, ¬ t.OpensQuote) :
    parse base (first ++ "\n" ++ second) =
      .ok ⟨p.items ++ Node.lowerAll p.line q.items, p.line + q.line⟩ := by
  obtain ⟨s, hrun, hopened, hstop, hitems⟩ := parse_eq_ok.mp hp
  obtain ⟨s', hrun', hopened', hstop', hitems'⟩ := parse_eq_ok.mp hq
  have hscan : Token.scan (first ++ "\n" ++ second) =
      ⟨(Token.scan first).tokens ++
          (Token.scan second).tokens.map (Token.shift p.line (first.length + 1)),
        .finished (q.line + p.line)⟩ := by
    have htext : (first ++ "\n" ++ second).toList = first.toList ++ '\n' :: second.toList := by
      simp
    have hfeed : Token.scanFrom p.line (0 + first.toList.length) ('\n' :: second.toList) =
        Token.scanFrom (1 + p.line) (0 + (first.length + 1)) second.toList := by
      rw [Token.scanFrom_blank (by decide), Nat.add_comm 1, String.length_toList, Nat.add_assoc]
      rfl
    rw [Token.scan, htext, Token.scanFrom_append hstop hclosed (by simp [LineEnd]), hfeed,
      Token.scanFrom_shift, ← Token.scan, ← Token.scan, hstop']
    rfl
  obtain ⟨items, opened⟩ := s
  obtain ⟨items', opened'⟩ := s'
  obtain rfl : opened = [] := hopened
  obtain rfl : opened' = [] := hopened'
  have hsecond := run_under p.line items hrun'
  refine parse_eq_ok.mpr ⟨⟨Node.lowerAll p.line items' ++ items, []⟩, ?_, rfl, ?_, ?_⟩
  · rw [hscan, List.foldlM_append, bind_eq_ok]
    exact ⟨_, hrun, hsecond⟩
  · rw [hscan]
    exact congrArg Token.Stop.finished (Nat.add_comm q.line p.line)
  · simp [hitems, hitems', Node.lowerAll_eq_map]

theorem parse_append_calls :
    ∃ p q : Program Unit, parse 0 "(a)\n" = .ok p ∧ parse (0 + identities "(a)\n") "b" = .ok q ∧
      (∀ t ∈ (Token.scan "(a)\n").tokens, ¬ t.OpensQuote) ∧
      parse 0 ("(a)\n" ++ "\n" ++ "b") =
        .ok ⟨p.items ++ Node.lowerAll p.line q.items, p.line + q.line⟩ := by
  have hfirst : Token.scan "(a)\n" = ⟨[⟨.opener .round, 1, 0⟩, ⟨.leaf .identifier "a", 1, 1⟩,
      ⟨.closer .round, 1, 2⟩], .finished 2⟩ := by decide +kernel
  have hsecond : Token.scan "b" = ⟨[⟨.leaf .identifier "b", 1, 0⟩], .finished 1⟩ := by
    decide +kernel
  have hp : (parse 0 "(a)\n" : Except SyntaxError (Program Unit)) =
      .ok ⟨[.group .call [.leaf .identifier "a" ⟨1, 2⟩] ⟨1, 0⟩], 2⟩ := by
    unfold parse
    rw [hfirst]
    rfl
  have hq : (parse (0 + identities "(a)\n") "b" : Except SyntaxError (Program Unit)) =
      .ok ⟨[.leaf .identifier "b" ⟨1, 10⟩], 1⟩ := by
    unfold parse
    rw [hsecond]
    rfl
  have hclosed : ∀ t ∈ (Token.scan "(a)\n").tokens, ¬ t.OpensQuote := by
    simp [hfirst, Token.OpensQuote]
  exact ⟨_, _, hp, hq, hclosed, parse_append hp hq hclosed⟩

end Reader

end Lisplet
