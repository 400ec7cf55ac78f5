import Lisplet.Fault
import Lisplet.Proofs.Syntax.Nesting

/-!
# What the reader accepts

The reader places tokens with a stack. The invariant that ties the stack to the source is
`State.pieces`: what the open groups and the nodes read so far spell out, from left to right, is
exactly what has been placed. From it follows that a program spells out the tokens of its source,
and that a closer is accepted if and only if it matches the innermost open bracket.

Main statement: `parse_spec`, which says when a source is a program, what its tree spells out, and
which of several errors is reported.
-/

namespace Lisplet

/-! ## Spelling out a tree -/

/-- A lexeme and, unless it is a closer, the mark of the node that starts with it. -/
abbrev Piece := Lexeme × Option Mark

/-- The brackets around a group; a root has none. -/
def GroupKind.bracket? : GroupKind → Option Bracket
  | .root => none
  | .call => some .round
  | .array => some .square
  | .object => some .curly

@[simp] theorem Bracket.bracket?_groupKind (b : Bracket) : b.groupKind.bracket? = some b := by
  cases b <;> rfl

namespace Node

variable {α : Type}

mutual

/-- A node from left to right: opener, items, closer of a group, or the leaf itself. -/
def flatten : Node α → List Piece
  | .leaf kind text mark => [(.leaf kind text, some mark)]
  | .group kind items mark =>
    match kind.bracket? with
    | some b => (.opener b, some mark) :: (flattenAll items ++ [(.closer b, none)])
    | none => flattenAll items
  | .host _ _ _ => []

/-- Nodes side by side from left to right. -/
def flattenAll : List (Node α) → List Piece
  | [] => []
  | n :: ns => flatten n ++ flattenAll ns

end

@[simp] theorem flattenAll_append (ns ms : List (Node α)) :
    flattenAll (ns ++ ms) = flattenAll ns ++ flattenAll ms := by
  induction ns with
  | nil => rfl
  | cons n ns ih => simp [flattenAll, ih]

mutual

/-- The brackets of a tree are nested. -/
theorem nested_flatten : ∀ n : Node α, Nested (n.flatten.map Prod.fst)
  | .leaf kind text _ => by simpa [flatten] using Nested.leaf kind text .nil
  | .group kind items _ => by
    have hitems := nested_flattenAll items
    rw [flatten]
    cases kind.bracket? with
    | none => exact hitems
    | some b => simpa using Nested.group b hitems .nil
  | .host _ _ _ => by simpa [flatten] using Nested.nil

theorem nested_flattenAll : ∀ ns : List (Node α), Nested ((flattenAll ns).map Prod.fst)
  | [] => by simpa [flattenAll] using Nested.nil
  | n :: ns => by
    rw [flattenAll, List.map_append]
    exact (nested_flatten n).append (nested_flattenAll ns)

end

end Node

/-- What a token contributes to the spelling of a tree whose identities count from `base`. -/
def Token.piece (base : Nat) (t : Token) : Piece :=
  (t.lexeme, match t.lexeme with
    | .closer _ => none
    | _ => some (Reader.markOf base t))

theorem Token.map_fst_piece (base : Nat) (ts : List Token) :
    (ts.map (piece base)).map Prod.fst = word ts := by
  simp [word, piece, Function.comp_def]

namespace Reader

variable {α : Type} {base : Nat} {s s' : State α} {t : Token} {ts : List Token}

/-! ## The stack and the source -/

/-- What an open bracket and the nodes before it spell out. -/
def Opened.pieces (base : Nat) (o : Opened α) : List Piece :=
  Node.flattenAll o.before.reverse ++ [(.opener o.bracket, some (markOf base o.token))]

/-- What has been placed so far, from left to right. -/
def State.pieces (base : Nat) (s : State α) : List Piece :=
  s.opened.reverse.flatMap (Opened.pieces base) ++ Node.flattenAll s.items.reverse

theorem bind_eq_ok {ε β γ : Type} {x : Except ε β} {f : β → Except ε γ} {c : γ} :
    x >>= f = .ok c ↔ ∃ b, x = .ok b ∧ f b = .ok c := by
  cases x <;> simp [bind, Except.bind]

/-- What placing one token can do: a leaf joins the innermost group, an opener opens a group, and a
closer ends the innermost group, whose bracket it has to match. -/
theorem step_cases (h : step base s t = .ok s') :
    (∃ kind text, t.lexeme = .leaf kind text ∧
      s' = { s with items := .leaf kind text (markOf base t) :: s.items }) ∨
    (∃ b, t.lexeme = .opener b ∧ s' = ⟨[], ⟨b, t, s.items⟩ :: s.opened⟩) ∨
    (∃ o outer, t.lexeme = .closer o.bracket ∧ s.opened = o :: outer ∧
      s' = ⟨.group o.bracket.groupKind s.items.reverse (markOf base o.token) :: o.before,
        outer⟩) := by
  unfold step at h
  split at h
  · next kind text ht => exact .inl ⟨kind, text, ht, (Except.ok.inj h).symm⟩
  · next b ht => exact .inr (.inl ⟨b, ht, (Except.ok.inj h).symm⟩)
  · next b ht =>
    split at h
    · next o outer ho =>
      split at h
      · next hb =>
        subst hb
        exact .inr (.inr ⟨o, outer, ht, ho, (Except.ok.inj h).symm⟩)
      · simp at h
    · simp at h

/-- Placing a token appends its piece to what has been placed. -/
theorem step_pieces (h : step base s t = .ok s') :
    s'.pieces base = s.pieces base ++ [t.piece base] := by
  obtain ⟨kind, text, ht, rfl⟩ | ⟨b, ht, rfl⟩ | ⟨o, outer, ht, ho, rfl⟩ := step_cases h
  · simp [State.pieces, Token.piece, ht, Node.flattenAll, Node.flatten]
  · simp [State.pieces, Opened.pieces, Token.piece, ht, Node.flattenAll]
  · simp [State.pieces, Opened.pieces, Token.piece, ht, ho, Node.flattenAll, Node.flatten]

theorem run_pieces (h : ts.foldlM (step base) s = .ok s') :
    s'.pieces base = s.pieces base ++ ts.map (Token.piece base) := by
  induction ts generalizing s with
  | nil =>
    obtain rfl := Except.ok.inj h
    simp
  | cons t ts ih =>
    rw [List.foldlM_cons, bind_eq_ok] at h
    obtain ⟨s₁, hstep, hrun⟩ := h
    rw [ih hrun, step_pieces hstep]
    simp

/-- What the reader has placed from the start is what the tokens say. -/
theorem run_start_word (h : ts.foldlM (step base) State.start = .ok s) :
    (s.pieces base).map Prod.fst = Token.word ts := by
  rw [run_pieces h, ← Token.map_fst_piece base]
  simp [State.pieces, State.start, Node.flattenAll]

/-- The lexemes between the innermost open bracket and the end are nested. -/
theorem closes_of_opened (base : Nat) {o : Opened α} {outer : List (Opened α)} (ho : s.opened = o :: outer) :
    Closes o.bracket ((s.pieces base).map Prod.fst) := by
  refine ⟨(outer.reverse.flatMap (Opened.pieces base) ++ Node.flattenAll o.before.reverse).map
    Prod.fst, _, ?_, Node.nested_flattenAll s.items.reverse⟩
  simp [State.pieces, ho, Opened.pieces]

/-! ## Nested words are placed -/

/-- The tokens of a nested word are placed whatever is open, and leave the open brackets alone. -/
theorem run_nested (base : Nat) {w : List Lexeme} (hw : Nested w) :
    ∀ {ts : List Token} {s : State α}, Token.word ts = w →
      ∃ items, ts.foldlM (step base) s = .ok ⟨items, s.opened⟩ := by
  induction hw with
  | nil =>
    intro ts s h
    obtain rfl := List.map_eq_nil_iff.mp h
    exact ⟨s.items, rfl⟩
  | leaf kind text _ ih =>
    intro ts s h
    obtain ⟨t, ts, rfl, ht, hts⟩ := List.map_eq_cons_iff.mp h
    obtain ⟨items, hrun⟩ := ih (s := { s with items := .leaf kind text (markOf base t) :: s.items })
      hts
    refine ⟨items, ?_⟩
    rw [List.foldlM_cons, bind_eq_ok]
    exact ⟨_, by simp [step, ht], hrun⟩
  | @group v w b _ _ ihv ihw =>
    intro ts s h
    obtain ⟨t, ts, rfl, ht, hts⟩ := List.map_eq_cons_iff.mp h
    obtain ⟨us, ts, rfl, hus, hts⟩ := List.map_eq_append_iff.mp hts
    obtain ⟨t', ts, rfl, ht', hts⟩ := List.map_eq_cons_iff.mp hts
    obtain ⟨inner, hinner⟩ := ihv (s := ⟨[], ⟨b, t, s.items⟩ :: s.opened⟩) hus
    obtain ⟨items, hrun⟩ := ihw
      (s := ⟨.group b.groupKind inner.reverse (markOf base t) :: s.items, s.opened⟩) hts
    refine ⟨items, ?_⟩
    rw [List.foldlM_cons, bind_eq_ok]
    refine ⟨⟨[], ⟨b, t, s.items⟩ :: s.opened⟩, by simp [step, ht], ?_⟩
    rw [List.foldlM_append, bind_eq_ok]
    refine ⟨_, hinner, ?_⟩
    rw [List.foldlM_cons, bind_eq_ok]
    exact ⟨_, by simp [step, ht'], hrun⟩

/-- A closer that matches the innermost open bracket finds that bracket on the stack. -/
theorem opened_of_closes {b : Bracket} (hrun : ts.foldlM (step base) s = .ok s')
    (hc : Closes b (Token.word ts)) : ∃ o outer, s'.opened = o :: outer ∧ o.bracket = b := by
  obtain ⟨u, v, huv, hv⟩ := hc
  obtain ⟨us, vs, rfl, -, hvs⟩ := List.map_eq_append_iff.mp huv
  obtain ⟨t, vs, rfl, ht, hvs⟩ := List.map_eq_cons_iff.mp hvs
  rw [List.foldlM_append, bind_eq_ok] at hrun
  obtain ⟨s₁, -, hrun⟩ := hrun
  rw [List.foldlM_cons, bind_eq_ok] at hrun
  obtain ⟨s₂, hstep, hrun⟩ := hrun
  have hs₂ : s₂ = ⟨[], ⟨b, t, s₁.items⟩ :: s₁.opened⟩ := by simpa [step, ht] using hstep.symm
  obtain ⟨items, hnested⟩ := run_nested base hv (s := s₂) hvs
  rw [hnested] at hrun
  obtain rfl := Except.ok.inj hrun
  exact ⟨_, _, by rw [hs₂], rfl⟩

/-- The tokens are placed if and only if every closer matches the innermost open bracket. -/
theorem run_ok_iff :
    (∃ s : State α, ts.foldlM (step base) State.start = .ok s) ↔ ClosersMatch (Token.word ts) := by
  constructor
  · rintro ⟨s, hrun⟩ u b v huv
    obtain ⟨us, vs, rfl, rfl, hvs⟩ := List.map_eq_append_iff.mp huv
    obtain ⟨t, vs, rfl, ht, -⟩ := List.map_eq_cons_iff.mp hvs
    rw [List.foldlM_append, bind_eq_ok] at hrun
    obtain ⟨s₁, hus, hrun⟩ := hrun
    rw [List.foldlM_cons, bind_eq_ok] at hrun
    obtain ⟨s₂, hstep, -⟩ := hrun
    obtain ⟨kind, text, hl, -⟩ | ⟨b', ho, -⟩ | ⟨o, outer, hcl, hopened, -⟩ := step_cases hstep
    · simp [ht] at hl
    · simp [ht] at ho
    · obtain rfl : b = o.bracket := by simpa [ht] using hcl
      have hcloses := closes_of_opened base hopened
      rwa [run_start_word hus] at hcloses
  · intro hmatch
    -- the last token is the only one that the shorter word says nothing about
    induction ts using List.reverseRecOn with
    | nil => exact ⟨State.start, rfl⟩
    | append_singleton ts t ih =>
      obtain ⟨s, hrun⟩ := ih fun u b v huv =>
        hmatch u b (v ++ [t.lexeme]) (by simp [Token.word] at huv ⊢; simp [huv])
      obtain ⟨s', hstep⟩ : ∃ s', step base s t = .ok s' := by
        unfold step
        cases ht : t.lexeme with
        | leaf kind text => exact ⟨_, rfl⟩
        | opener b => exact ⟨_, rfl⟩
        | closer b =>
          obtain ⟨o, outer, ho, hb⟩ := opened_of_closes hrun
            (hmatch (Token.word ts) b [] (by simp [Token.word, ht]))
          rw [ho]
          exact ⟨_, if_pos hb⟩
      refine ⟨s', ?_⟩
      rw [List.foldlM_append, bind_eq_ok]
      exact ⟨s, hrun, by simpa [bind_eq_ok] using hstep⟩

/-! ## Where placing tokens ends -/

/-- Only a closer that does not match the innermost open bracket cannot be placed. -/
theorem step_error {e : SyntaxError} (h : step base s t = .error e) :
    ∃ b, t.lexeme = .closer b ∧ e = .unexpectedCloser b t.line := by
  unfold step at h
  split at h
  · simp at h
  · simp at h
  · next b ht =>
    split at h
    · split at h
      · simp at h
      · exact ⟨b, ht, (Except.error.inj h).symm⟩
    · exact ⟨b, ht, (Except.error.inj h).symm⟩

/-- The first token that cannot be placed decides the error. -/
theorem run_error {e : SyntaxError} (h : ts.foldlM (step base) s = .error e) :
    ∃ us t vs s', ts = us ++ t :: vs ∧ us.foldlM (step base) s = .ok s' ∧
      step base s' t = .error e := by
  induction ts generalizing s with
  | nil => simp [pure, Except.pure] at h
  | cons t ts ih =>
    cases hstep : step base s t with
    | error e' =>
      obtain rfl : e' = e := by simpa [hstep, bind, Except.bind] using h
      exact ⟨[], t, ts, s, rfl, rfl, hstep⟩
    | ok s₁ =>
      have hrest : ts.foldlM (step base) s₁ = .error e := by
        simpa [hstep, bind, Except.bind] using h
      obtain ⟨us, t', vs, s', rfl, hus, ht'⟩ := ih hrest
      refine ⟨t :: us, t', vs, s', rfl, ?_, ht'⟩
      rw [List.foldlM_cons, bind_eq_ok]
      exact ⟨s₁, hstep, hus⟩

/-- Open groups and the nodes between them never close more than they open. -/
theorem neverBelow_opened (opened : List (Opened α)) :
    NeverBelow ((opened.flatMap (Opened.pieces base)).map Prod.fst) := by
  induction opened with
  | nil => exact Nested.nil.neverBelow
  | cons o opened ih =>
    rw [List.flatMap_cons, List.map_append, Opened.pieces, List.map_append, List.append_assoc]
    exact (Node.nested_flattenAll _).neverBelow.append (ih.opener o.bracket)

/-- The outermost open bracket: it stands after a nested word, and nothing after it closes it. -/
theorem pieces_of_getLast (base : Nat) {o : Opened α} (ho : s.opened.getLast? = some o) :
    ∃ us vs, s.pieces base = us ++ (.opener o.bracket, some (markOf base o.token)) :: vs ∧
      Nested (us.map Prod.fst) ∧ NeverBelow (vs.map Prod.fst) := by
  obtain ⟨inner, hinner⟩ := List.getLast?_eq_some_iff.mp ho
  refine ⟨Node.flattenAll o.before.reverse,
    inner.reverse.flatMap (Opened.pieces base) ++ Node.flattenAll s.items.reverse, ?_,
    Node.nested_flattenAll _, ?_⟩
  · simp [State.pieces, hinner, Opened.pieces]
  · rw [List.map_append]
    exact (neverBelow_opened _).append (Node.nested_flattenAll _).neverBelow

/-- The token of an opener is determined by its piece, up to its offset. -/
theorem eq_of_piece_eq_opener {b : Bracket} {t' : Token}
    (h : t.piece base = (.opener b, some (markOf base t'))) :
    t.lexeme = .opener b ∧ t.line = t'.line := by
  have hlex : t.lexeme = .opener b := congrArg Prod.fst h
  have hmark : markOf base t = markOf base t' := by simpa [Token.piece, hlex] using h
  have hline : (t.line : Int) = t'.line := congrArg Mark.line hmark
  exact ⟨hlex, Int.ofNat.inj hline⟩

/-- Two places in a list are the same, or one of them is before the other. -/
theorem place_cases {us us' vs vs' : List Token} {t' : Token}
    (h : us ++ t :: vs = us' ++ t' :: vs') :
    t = t' ∨ (∃ x, us' = us ++ t :: x ∧ vs = x ++ t' :: vs') ∨
      (∃ x, us = us' ++ t' :: x ∧ vs' = x ++ t :: vs) := by
  rcases List.append_eq_append_iff.mp h with ⟨x, hus, hx⟩ | ⟨x, hus, hx⟩
  · cases x with
    | nil => exact .inl (List.cons.inj hx).1
    | cons z x =>
      obtain ⟨rfl, hvs⟩ := List.cons.inj hx
      exact .inr (.inl ⟨x, hus, hvs⟩)
  · cases x with
    | nil => exact .inl (List.cons.inj hx).1.symm
    | cons z x =>
      obtain ⟨rfl, hvs⟩ := List.cons.inj hx
      exact .inr (.inr ⟨x, hus, hvs⟩)

/-- A token is the earliest opener that has no closer. -/
def EarliestUnclosed (ts us : List Token) (t : Token) (vs : List Token) (b : Bracket) : Prop :=
  ts = us ++ t :: vs ∧ t.lexeme = .opener b ∧ ¬ ClosedBy b (Token.word vs) ∧
    ∀ x b' y, Token.word us = x ++ .opener b' :: y → ClosedBy b' (y ++ Token.word (t :: vs))

theorem earliestUnclosed_of_run {o : Opened α}
    (hrun : ts.foldlM (step base) State.start = .ok s) (ho : s.opened.getLast? = some o) :
    ∃ us t vs, EarliestUnclosed ts us t vs o.bracket ∧ t.line = o.token.line := by
  obtain ⟨ps, qs, hps, hnested, hbelow⟩ := pieces_of_getLast base ho
  have hpieces : ts.map (Token.piece base) = s.pieces base := by
    rw [run_pieces hrun]
    simp [State.pieces, State.start, Node.flattenAll]
  rw [hps] at hpieces
  obtain ⟨us, vs, rfl, hus, hvs⟩ := List.map_eq_append_iff.mp hpieces
  obtain ⟨t, vs, rfl, ht, hvs⟩ := List.map_eq_cons_iff.mp hvs
  obtain ⟨hlex, hline⟩ := eq_of_piece_eq_opener ht
  rw [← hus, Token.map_fst_piece] at hnested
  rw [← hvs, Token.map_fst_piece] at hbelow
  exact ⟨us, t, vs, ⟨rfl, hlex, hbelow.not_closedBy _, fun x b' y h =>
    (hnested.closedBy h).append _⟩, hline⟩

/-- There is at most one such token: of two, the earlier one would have a closer. -/
theorem EarliestUnclosed.unique {us us' vs vs' : List Token} {t' : Token} {b b' : Bracket}
    (h : EarliestUnclosed ts us t vs b) (h' : EarliestUnclosed ts us' t' vs' b') : t = t' := by
  obtain ⟨hts, ht, hopen, hbefore⟩ := h
  obtain ⟨hts', ht', hopen', hbefore'⟩ := h'
  rcases place_cases (hts.symm.trans hts') with heq | ⟨x, rfl, rfl⟩ | ⟨x, rfl, rfl⟩
  · exact heq
  · refine absurd ?_ hopen
    simpa [Token.word] using hbefore' (Token.word us) b (Token.word x) (by simp [Token.word, ht])
  · refine absurd ?_ hopen'
    simpa [Token.word] using hbefore (Token.word us') b' (Token.word x) (by simp [Token.word, ht'])

/-! ## Programs and errors -/

/-- The leftmost bad event of a scan and the class of its error: a closer that does not match the
innermost open bracket; else a character that starts no token; else, at the end of the source, the
earliest opener that has no closer. -/
def Decides (scan : Token.Scan) (kind : ErrorKind) : SyntaxError → Prop
  | .unexpectedCloser b line => kind = .unbalanced ∧
    ∃ us t vs, scan.tokens = us ++ t :: vs ∧ t.lexeme = .closer b ∧ t.line = line ∧
      ClosersMatch (Token.word us) ∧ ¬ Closes b (Token.word us)
  | .unrecognized line offset c => kind = .malformed ∧
    scan.stop = .unrecognized line offset c ∧ ClosersMatch (Token.word scan.tokens)
  | .unmatchedOpener b line endLine => kind = .unbalanced ∧
    scan.stop = .finished endLine ∧ ClosersMatch (Token.word scan.tokens) ∧
      ∃ us t vs, EarliestUnclosed scan.tokens us t vs b ∧ t.line = line

/-- The program of a source: everything is placed, and no bracket is left open. -/
theorem parse_eq_ok {source : String} {p : Program α} :
    parse base source = .ok p ↔
      ∃ s : State α, (Token.scan source).tokens.foldlM (step base) State.start = .ok s ∧
        s.opened = [] ∧ (Token.scan source).stop = .finished p.line ∧ p.items = s.items.reverse := by
  rw [parse, bind_eq_ok]
  refine exists_congr fun s => and_congr_right fun _ => ?_
  unfold finish
  constructor
  · intro h
    split at h
    · simp at h
    · next line hstop =>
      split at h
      · simp at h
      · next hnone =>
        obtain rfl := Except.ok.inj h
        exact ⟨List.getLast?_eq_none_iff.mp hnone, hstop, rfl⟩
  · rintro ⟨hopened, hstop, hitems⟩
    rw [hstop, hopened]
    exact congrArg Except.ok (Program.mk.injEq .. |>.mpr ⟨hitems.symm, rfl⟩)

/-- A program spells out the tokens of its source. -/
theorem flattenAll_of_parse {source : String} {p : Program α} (h : parse base source = .ok p) :
    Node.flattenAll p.items = (Token.scan source).tokens.map (Token.piece base) := by
  obtain ⟨s, hrun, hopened, -, hitems⟩ := parse_eq_ok.mp h
  have hpieces := run_pieces hrun
  simpa [State.pieces, State.start, hopened, hitems, Node.flattenAll] using hpieces

/-- A source is a program if and only if its scan reaches the end and its brackets are nested. -/
theorem parse_ok_iff {source : String} :
    (∃ p : Program α, parse base source = .ok p) ↔
      (∃ line, (Token.scan source).stop = .finished line) ∧
        Nested (Token.word (Token.scan source).tokens) := by
  constructor
  · rintro ⟨p, h⟩
    obtain ⟨s, -, -, hstop, -⟩ := parse_eq_ok.mp h
    refine ⟨⟨p.line, hstop⟩, ?_⟩
    rw [← Token.map_fst_piece base, ← flattenAll_of_parse h]
    exact Node.nested_flattenAll p.items
  · rintro ⟨⟨line, hstop⟩, hnested⟩
    obtain ⟨items, hrun⟩ := run_nested base hnested (s := (State.start : State α)) rfl
    exact ⟨⟨items.reverse, line⟩, parse_eq_ok.mpr ⟨_, hrun, rfl, hstop, rfl⟩⟩

/-- An error of the reader is the one that the leftmost bad event calls for. -/
theorem decides_of_parse {source : String} {e : SyntaxError}
    (h : (parse base source : Except SyntaxError (Program α)) = .error e) :
    Decides (Token.scan source) (Fault.malformed e).kind e := by
  rw [parse] at h
  cases hrun : (Token.scan source).tokens.foldlM (step base) (State.start : State α) with
  | error e' =>
    obtain rfl : e' = e := by simpa [hrun, bind, Except.bind] using h
    obtain ⟨us, t, vs, s, hts, hus, hstep⟩ := run_error hrun
    obtain ⟨b, ht, rfl⟩ := step_error hstep
    have hmatch := run_ok_iff.mp ⟨s, hus⟩
    refine ⟨rfl, us, t, vs, hts, ht, rfl, hmatch, fun hcloses => ?_⟩
    obtain ⟨o, outer, ho, hb⟩ := opened_of_closes hus hcloses
    simp [step, ht, ho, hb] at hstep
  | ok s =>
    have hmatch := run_ok_iff.mp ⟨s, hrun⟩
    have hfinish : finish (Token.scan source).stop s = .error e := by
      simpa [hrun, bind, Except.bind] using h
    unfold finish at hfinish
    split at hfinish
    · next line offset c hstop =>
      obtain rfl := Except.error.inj hfinish
      exact ⟨rfl, hstop, hmatch⟩
    · next line hstop =>
      split at hfinish
      · next o ho =>
        obtain rfl := Except.error.inj hfinish
        exact ⟨rfl, hstop, hmatch, earliestUnclosed_of_run hrun ho⟩
      · simp at hfinish

/-- At most one error fits the events of a scan. -/
theorem Decides.unique {scan : Token.Scan} {kind kind' : ErrorKind} {e e' : SyntaxError}
    (h : Decides scan kind e) (h' : Decides scan kind' e') : e = e' := by
  cases e with
  | unexpectedCloser b line =>
    obtain ⟨-, us, t, vs, hts, ht, hline, hmatch, hbad⟩ := h
    cases e' with
    | unexpectedCloser b' line' =>
      obtain ⟨-, us', t', vs', hts', ht', hline', hmatch', hbad'⟩ := h'
      obtain rfl : t = t' := by
        rcases place_cases (hts.symm.trans hts') with heq | ⟨x, rfl, -⟩ | ⟨x, rfl, -⟩
        · exact heq
        · exact absurd (hmatch'.closes ht) hbad
        · exact absurd (hmatch.closes ht') hbad'
      obtain rfl : b = b' := by simpa [ht] using ht'
      rw [← hline, ← hline']
    | unrecognized => exact absurd ((hts ▸ h'.2.2).closes ht) hbad
    | unmatchedOpener => exact absurd ((hts ▸ h'.2.2.1).closes ht) hbad
  | unrecognized line offset c =>
    obtain ⟨-, hstop, hmatch⟩ := h
    cases e' with
    | unexpectedCloser b' line' =>
      obtain ⟨-, us', t', vs', hts', ht', -, -, hbad'⟩ := h'
      exact absurd ((hts' ▸ hmatch).closes ht') hbad'
    | unrecognized =>
      obtain ⟨rfl, rfl, rfl⟩ := Token.Stop.unrecognized.inj (hstop.symm.trans h'.2.1)
      rfl
    | unmatchedOpener => cases hstop.symm.trans h'.2.1
  | unmatchedOpener b line endLine =>
    obtain ⟨-, hstop, hmatch, us, t, vs, hopen, hline⟩ := h
    cases e' with
    | unexpectedCloser b' line' =>
      obtain ⟨-, us', t', vs', hts', ht', -, -, hbad'⟩ := h'
      exact absurd ((hts' ▸ hmatch).closes ht') hbad'
    | unrecognized => cases hstop.symm.trans h'.2.1
    | unmatchedOpener b' line' endLine' =>
      obtain ⟨-, hstop', -, us', t', vs', hopen', hline'⟩ := h'
      obtain rfl := Token.Stop.finished.inj (hstop.symm.trans hstop')
      obtain rfl := hopen.unique hopen'
      obtain rfl : b = b' := by simpa [hopen.2.1] using hopen'.2.1
      rw [← hline, ← hline']

/-- Reading a source against its tokens. It is a program if and only if the scan recognises every
position it reaches and the brackets are nested; the tree then spells out exactly the tokens, each
with the mark of its place; and otherwise the leftmost bad event decides the error. -/
theorem parse_spec (base : Nat) (source : String) :
    ((∃ p : Program α, parse base source = .ok p) ↔
      (∃ line, (Token.scan source).stop = .finished line) ∧
        Nested (Token.word (Token.scan source).tokens)) ∧
    (∀ p : Program α, parse base source = .ok p →
      Node.flattenAll p.items = (Token.scan source).tokens.map (Token.piece base)) ∧
    (∀ e, (parse base source : Except SyntaxError (Program α)) = .error e ↔
      Decides (Token.scan source) (Fault.malformed e).kind e) := by
  refine ⟨parse_ok_iff, fun p h => flattenAll_of_parse h, fun e => ⟨decides_of_parse, fun h => ?_⟩⟩
  cases hparse : (parse base source : Except SyntaxError (Program α)) with
  | error e' => rw [(decides_of_parse hparse).unique h]
  | ok p =>
    -- a program has neither a bad closer nor an open bracket, so that nothing can be decided
    obtain ⟨s, hrun, hopened, hstop, -⟩ := parse_eq_ok.mp hparse
    have hmatch := run_ok_iff.mp ⟨s, hrun⟩
    have hnested := (parse_ok_iff.mp ⟨p, hparse⟩).2
    cases e with
    | unexpectedCloser b line =>
      obtain ⟨-, us, t, vs, hts, ht, -, -, hbad⟩ := h
      exact absurd ((hts ▸ hmatch).closes ht) hbad
    | unrecognized line offset c => cases hstop.symm.trans h.2.1
    | unmatchedOpener b line endLine =>
      obtain ⟨-, -, -, us, t, vs, ⟨hts, ht, hopen, -⟩, -⟩ := h
      refine absurd (hnested.closedBy (u := Token.word us) ?_) hopen
      simp [hts, Token.word, ht]

end Reader

end Lisplet
