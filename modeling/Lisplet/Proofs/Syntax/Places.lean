import Lisplet.Proofs.Syntax.Reach
import Lisplet.Proofs.Syntax.RoundTrip

/-!
# Lines

The scan counts lines and characters on the way. What it counts is what stands before the place:
each token, and the place where the scan ends, has one more than the number of line feeds before it
for its line (`scan_placed`). The reader hands these lines on to the nodes of the tree and to its
errors.

Main statement: `parse_lines`.
-/

namespace Lisplet

namespace Token

/-! ## Places of tokens -/

/-- The token is the one that the text has after so many characters and on this line. -/
def PlacedIn (t : Token) (cs : List Char) : Prop :=
  ∃ before own after, cs = before ++ (own ++ after) ∧ own ≠ [] ∧
    lexeme? (own ++ after) = some (t.lexeme, own.length) ∧
    t.offset = before.length ∧ t.line = 1 + lineFeeds before

/-- The scan ended there: on the last line, or at a character that starts no token. -/
def Stop.PlacedIn (cs : List Char) : Stop → Prop
  | .finished line => line = 1 + lineFeeds cs
  | .unrecognized line offset c =>
    ∃ before after, cs = before ++ c :: after ∧ lexeme? (c :: after) = none ∧
      offset = before.length ∧ line = 1 + lineFeeds before

/-- A scan of the rest of a text that has counted what is before it. -/
theorem scanFrom_placed (cs before : List Char) :
    (∀ t ∈ (scanFrom (1 + lineFeeds before) before.length cs).tokens, t.PlacedIn (before ++ cs)) ∧
      (scanFrom (1 + lineFeeds before) before.length cs).stop.PlacedIn (before ++ cs) := by
  -- what is skipped moves to the part that has been counted
  have hmove : ∀ (before cs : List Char) (n : Nat), n ≤ cs.length →
      before ++ cs = (before ++ cs.take n) ++ cs.drop n ∧
      1 + lineFeeds before + lineFeeds (cs.take n) = 1 + lineFeeds (before ++ cs.take n) ∧
      before.length + n = (before ++ cs.take n).length := by
    intro before cs n hn
    refine ⟨by rw [List.append_assoc, List.take_append_drop], ?_, ?_⟩
    · rw [lineFeeds_append, Nat.add_assoc]
    · rw [List.length_append, List.length_take, Nat.min_eq_left hn]
  induction cs using scan_induction generalizing before with
  | nil =>
    rw [scanFrom_nil, List.append_nil]
    exact ⟨by simp, rfl⟩
  | layout cs hl ih =>
    obtain ⟨htext, hline, hoffset⟩ := hmove before cs _ (layoutLength_le cs)
    rw [scanFrom_layout hl, hline, hoffset, htext]
    exact ih _
  | token cs x n hl hx ih =>
    have hn := lexeme?_length_le hx
    obtain ⟨htext, hline, hoffset⟩ := hmove before cs n hn
    obtain ⟨htokens, hstop⟩ := ih (before ++ cs.take n)
    rw [scanFrom_token hl hx, hline, hoffset]
    rw [← htext] at htokens hstop
    refine ⟨?_, hstop⟩
    simp only [List.mem_cons, forall_eq_or_imp]
    refine ⟨⟨before, cs.take n, cs.drop n, ?_, ?_, ?_, rfl, rfl⟩, htokens⟩
    · rw [List.take_append_drop]
    · have := lexeme?_length_ne_zero hx
      rw [← List.length_pos_iff, List.length_take]
      omega
    · rw [List.take_append_drop, List.length_take, Nat.min_eq_left hn]
      exact hx
  | unrecognized c cs hl hx =>
    rw [scanFrom_unrecognized hl hx]
    exact ⟨by simp, before, cs, rfl, hx, rfl, rfl⟩

/-- Every token of a source is where it says, and so is the end of its scan. -/
theorem scan_placed (source : String) :
    (∀ t ∈ (scan source).tokens, t.PlacedIn source.toList) ∧
      (scan source).stop.PlacedIn source.toList :=
  scanFrom_placed source.toList []

end Token

/-! ## Lines of nodes -/

namespace Node

variable {α : Type}

mutual

/-- A node and all nodes below it. -/
def subnodes : Node α → List (Node α)
  | .group kind items mark => .group kind items mark :: subnodesAll items
  | n => [n]

/-- Some nodes and all nodes below them. -/
def subnodesAll : List (Node α) → List (Node α)
  | [] => []
  | n :: ns => subnodes n ++ subnodesAll ns

end

/-- The node is what has been read from this token on, which is a leaf or opens a group. -/
def StartsAt (base : Nat) (t : Token) : Node α → Prop
  | .leaf kind text mark => t.lexeme = .leaf kind text ∧ mark = Reader.markOf base t
  | .group kind _ mark =>
    ∃ b : Bracket, kind = b.groupKind ∧ t.lexeme = .opener b ∧ mark = Reader.markOf base t
  | .host _ _ _ => False

/-- The line of a node that was read. -/
def startLine? : Node α → Option Int
  | .leaf _ _ mark => some mark.line
  | .group _ _ mark => some mark.line
  | .host _ _ _ => none

theorem StartsAt.startLine? {base : Nat} {t : Token} {n : Node α} (h : n.StartsAt base t) :
    n.startLine? = some (t.line : Int) := by
  cases n with
  | leaf kind text mark =>
    obtain ⟨-, rfl⟩ := h
    rfl
  | group kind items mark =>
    obtain ⟨b, -, -, rfl⟩ := h
    rfl
  | host value line serial => exact h.elim

variable {P : LeafKind → List Char → Prop} {base : Nat} {ts : List Token}

mutual

/-- Whatever spells out a tree has a token for each of its nodes. -/
theorem exists_startsAt : ∀ {n : Node α}, n.Built P →
    (∀ piece ∈ n.flatten, ∃ t ∈ ts, t.piece base = piece) →
    ∀ m ∈ n.subnodes, ∃ t ∈ ts, m.StartsAt base t
  | .leaf kind text mark, _, hts => by
    intro m hm
    obtain rfl : m = .leaf kind text mark := by simpa [subnodes] using hm
    obtain ⟨t, ht, hpiece⟩ := hts (.leaf kind text, some mark) (by simp [flatten])
    have hlexeme : t.lexeme = .leaf kind text := congrArg Prod.fst hpiece
    have hmark := congrArg Prod.snd hpiece
    rw [Token.piece, hlexeme] at hmark
    exact ⟨t, ht, hlexeme, (Option.some.inj hmark).symm⟩
  | .group kind items mark, h, hts => by
    obtain ⟨b, rfl⟩ := exists_bracket h.1
    rw [flatten, Bracket.bracket?_groupKind] at hts
    intro m hm
    rw [subnodes, List.mem_cons] at hm
    rcases hm with rfl | hm
    · obtain ⟨t, ht, hpiece⟩ := hts (.opener b, some mark) (by simp)
      have hlexeme : t.lexeme = .opener b := congrArg Prod.fst hpiece
      have hmark := congrArg Prod.snd hpiece
      rw [Token.piece, hlexeme] at hmark
      exact ⟨t, ht, b, rfl, hlexeme, (Option.some.inj hmark).symm⟩
    · exact exists_startsAt_all h.2 (fun piece hpiece => hts piece (by simp [hpiece])) m hm

theorem exists_startsAt_all : ∀ {ns : List (Node α)}, AllBuilt P ns →
    (∀ piece ∈ flattenAll ns, ∃ t ∈ ts, t.piece base = piece) →
    ∀ m ∈ subnodesAll ns, ∃ t ∈ ts, m.StartsAt base t
  | [], _, _ => by simp [subnodesAll]
  | n :: ns, h, hts => by
    rw [flattenAll] at hts
    intro m hm
    rw [subnodesAll, List.mem_append] at hm
    rcases hm with hm | hm
    · exact exists_startsAt h.1 (fun piece hpiece => hts piece (by simp [hpiece])) m hm
    · exact exists_startsAt_all h.2 (fun piece hpiece => hts piece (by simp [hpiece])) m hm

end

end Node

/-! ## Lines of errors -/

/-- The message names the lines of what it is about: of the character that starts no token; of a
closer that does not match the innermost bracket that is open before it; or of the earliest opener
that has no closer, and of the end of the source. -/
inductive SyntaxError.Names (source : String) : String → Prop
  | unrecognized (before after : List Char) (c : Char)
    (htext : source.toList = before ++ c :: after)
    (hbad : Token.lexeme? (c :: after) = none) :
    Names source ("Unrecognized token at line " ++ toString (1 + Token.lineFeeds before) ++
      ", position " ++ toString before.length ++ ": " ++ Text.quoted c.toString ++ ", code " ++
      toString c.toNat)
  | unexpectedCloser (before after : List Char) (b : Bracket) (us vs : List Token) (t : Token)
    (htext : source.toList = before ++ b.closer :: after)
    (hscan : (Token.scan source).tokens = us ++ t :: vs)
    (ht : t = ⟨.closer b, 1 + Token.lineFeeds before, before.length⟩)
    (hbad : ¬ Closes b (Token.word us)) :
    Names source ("Unexpected closing " ++ b.closerName ++ " '" ++ b.closer.toString ++
      "' at line " ++ toString (1 + Token.lineFeeds before))
  | unmatchedOpener (before after : List Char) (b : Bracket) (us vs : List Token) (t : Token)
    (htext : source.toList = before ++ b.opener :: after)
    (hscan : Reader.EarliestUnclosed (Token.scan source).tokens us t vs b)
    (ht : t = ⟨.opener b, 1 + Token.lineFeeds before, before.length⟩) :
    Names source ("Unmatched opening bracket '" ++ b.opener.toString ++ "' from line " ++
      toString (1 + Token.lineFeeds before) ++ " (input ended at line " ++
      toString (1 + Token.lineFeeds source.toList) ++ ")")

namespace Token

/-- A token for a bracket stands where that bracket is. -/
theorem PlacedIn.closer {t : Token} {cs : List Char} {b : Bracket} (h : t.PlacedIn cs)
    (ht : t.lexeme = .closer b) :
    ∃ before after, cs = before ++ b.closer :: after ∧
      t = ⟨.closer b, 1 + lineFeeds before, before.length⟩ := by
  obtain ⟨before, own, after, hcs, -, hx, hoffset, hline⟩ := h
  rw [ht] at hx
  rcases lexeme?_cases hx with ⟨b', ds, hb, hown, -⟩ | ⟨b', ds, hb, -⟩ | hleaf
  · obtain rfl := Lexeme.closer.inj hb
    refine ⟨before, ds, by rw [hcs, hown], ?_⟩
    rw [← hline, ← hoffset, ← ht]
  · cases hb
  · obtain ⟨kind, text, hb, -⟩ := writable_of_leaf? hleaf
    cases hb

theorem PlacedIn.opener {t : Token} {cs : List Char} {b : Bracket} (h : t.PlacedIn cs)
    (ht : t.lexeme = .opener b) :
    ∃ before after, cs = before ++ b.opener :: after ∧
      t = ⟨.opener b, 1 + lineFeeds before, before.length⟩ := by
  obtain ⟨before, own, after, hcs, -, hx, hoffset, hline⟩ := h
  rw [ht] at hx
  rcases lexeme?_cases hx with ⟨b', ds, hb, -⟩ | ⟨b', ds, hb, hown, -⟩ | hleaf
  · cases hb
  · obtain rfl := Lexeme.opener.inj hb
    refine ⟨before, ds, by rw [hcs, hown], ?_⟩
    rw [← hline, ← hoffset, ← ht]
  · obtain ⟨kind, text, hb, -⟩ := writable_of_leaf? hleaf
    cases hb

end Token

namespace Reader

variable {α : Type} {base : Nat} {source : String}

/-- What decides the error is in the source where the message says. -/
theorem names_of_decides {kind : ErrorKind} {e : SyntaxError}
    (h : Decides (Token.scan source) kind e) : SyntaxError.Names source e.message := by
  obtain ⟨htokens, hstop⟩ := Token.scan_placed source
  cases e with
  | unrecognized line offset c =>
    rw [h.2.1] at hstop
    obtain ⟨before, after, htext, hbad, rfl, rfl⟩ := hstop
    exact .unrecognized before after c htext hbad
  | unexpectedCloser b line =>
    obtain ⟨-, us, t, vs, hscan, ht, rfl, -, hbad⟩ := h
    obtain ⟨before, after, htext, heq⟩ := (htokens t (by simp [hscan])).closer ht
    have hnames := SyntaxError.Names.unexpectedCloser before after b us vs t htext hscan heq hbad
    rw [heq]
    exact hnames
  | unmatchedOpener b line endLine =>
    obtain ⟨-, hfinished, -, us, t, vs, hopen, rfl⟩ := h
    rw [hfinished] at hstop
    obtain rfl : endLine = 1 + Token.lineFeeds source.toList := hstop
    obtain ⟨before, after, htext, heq⟩ := (htokens t (by simp [hopen.1])).opener hopen.2.1
    have hnames := SyntaxError.Names.unmatchedOpener before after b us vs t htext hopen heq
    rw [heq]
    exact hnames

/-- Lines are exact. The line of a program is one more than the number of line feeds of its source,
its tree spells out the tokens of the source, and each node of it starts at one of them and has that
token's line, which is one more than the number of line feeds before the token. The lines in the
message of an error are exact in the same way. -/
theorem parse_lines (base : Nat) (source : String) :
    (∀ p : Program α, parse base source = .ok p →
      p.line = 1 + Token.lineFeeds source.toList ∧
      Node.flattenAll p.items = (Token.scan source).tokens.map (Token.piece base) ∧
      (∀ t ∈ (Token.scan source).tokens, t.PlacedIn source.toList) ∧
      ∀ n ∈ Node.subnodesAll p.items, ∃ t ∈ (Token.scan source).tokens,
        n.StartsAt base t ∧ n.startLine? = some (t.line : Int)) ∧
    ∀ e, (parse base source : Except SyntaxError (Program α)) = .error e →
      SyntaxError.Names source e.message := by
  obtain ⟨htokens, hstop⟩ := Token.scan_placed source
  refine ⟨fun p h => ⟨?_, flattenAll_of_parse h, htokens, fun n hn => ?_⟩, fun e h =>
    names_of_decides (decides_of_parse h)⟩
  · obtain ⟨s, -, -, hfinished, -⟩ := parse_eq_ok.mp h
    rw [hfinished] at hstop
    exact hstop
  · have hspelled : ∀ piece ∈ Node.flattenAll p.items,
        ∃ t ∈ (Token.scan source).tokens, t.piece base = piece := by
      rw [flattenAll_of_parse h]
      exact fun piece => List.mem_map.mp
    obtain ⟨t, ht, hstart⟩ := Node.exists_startsAt_all (built_of_parse h) hspelled n hn
    exact ⟨t, ht, hstart, hstart.startLine?⟩

theorem parse_lines_call :
    ∃ p : Program Unit, parse 0 "(a\n b)" = .ok p ∧ p.line = 1 + Token.lineFeeds "(a\n b)".toList ∧
      p = ⟨[.group .call [.leaf .identifier "a" ⟨1, 2⟩, .leaf .identifier "b" ⟨2, 8⟩] ⟨1, 0⟩], 2⟩ := by
  have hscan : Token.scan "(a\n b)" = ⟨[⟨.opener .round, 1, 0⟩, ⟨.leaf .identifier "a", 1, 1⟩,
      ⟨.leaf .identifier "b", 2, 4⟩, ⟨.closer .round, 2, 5⟩], .finished 2⟩ := by decide +kernel
  have hparse : (parse 0 "(a\n b)" : Except SyntaxError (Program Unit)) = .ok
      ⟨[.group .call [.leaf .identifier "a" ⟨1, 2⟩, .leaf .identifier "b" ⟨2, 8⟩] ⟨1, 0⟩], 2⟩ := by
    unfold parse
    rw [hscan]
    rfl
  exact ⟨_, hparse, ((parse_lines 0 _).1 _ hparse).1, rfl⟩

end Reader

end Lisplet
