import Lisplet.Proofs.Syntax.Parsing
import Lisplet.Proofs.Syntax.Scanning

/-!
# Writing and reading trees

A tree that is written and read again is the same tree up to the marks of its nodes. The argument
goes through words: what is written spells out the word of the tree (`spells_renderAll`), a legible
word is scanned to itself, and the reader builds the only tree with that word (`run_flattenAll`).

Main statement: `parse_renderAll`, for trees that can be written and for every tree that was read.
-/

namespace Lisplet

namespace Node

variable {α : Type}

/-! ## Trees up to marks -/

mutual

/-- The tree without its marks. -/
def bare : Node α → Node α
  | .leaf kind text _ => .leaf kind text default
  | .group kind items _ => .group kind (bareAll items) default
  | .host value line serial => .host value line serial

/-- Trees without their marks. -/
def bareAll : List (Node α) → List (Node α)
  | [] => []
  | n :: ns => bare n :: bareAll ns

end

mutual

/-- The tree is built as a reader builds trees: of leaves that satisfy `P` and of groups in
brackets. -/
def Built (P : LeafKind → List Char → Prop) : Node α → Prop
  | .leaf kind text _ => P kind text.toList
  | .group kind items _ => kind ≠ .root ∧ AllBuilt P items
  | .host _ _ _ => False

/-- All trees are built in this way. -/
def AllBuilt (P : LeafKind → List Char → Prop) : List (Node α) → Prop
  | [] => True
  | n :: ns => Built P n ∧ AllBuilt P ns

end

variable {P : LeafKind → List Char → Prop}

theorem allBuilt_iff {ns : List (Node α)} : AllBuilt P ns ↔ ∀ n ∈ ns, n.Built P := by
  induction ns with
  | nil => simp [AllBuilt]
  | cons n ns ih => simp [AllBuilt, ih]

/-- The word of a tree: its lexemes from left to right. -/
def wordAll (ns : List (Node α)) : List Lexeme := (flattenAll ns).map Prod.fst

theorem wordAll_cons (n : Node α) (ns : List (Node α)) :
    wordAll (n :: ns) = n.flatten.map Prod.fst ++ wordAll ns := by
  simp [wordAll, flattenAll]

theorem exists_bracket {kind : GroupKind} (h : kind ≠ .root) :
    ∃ b : Bracket, kind = b.groupKind := by
  cases kind with
  | root => exact absurd rfl h
  | call => exact ⟨.round, rfl⟩
  | array => exact ⟨.square, rfl⟩
  | object => exact ⟨.curly, rfl⟩

theorem flatten_group (b : Bracket) (items : List (Node α)) (mark : Mark) :
    (Node.group b.groupKind items mark).flatten.map Prod.fst =
      .opener b :: (wordAll items ++ [.closer b]) := by
  simp [flatten, wordAll]

/-! ## The word of a tree is legible -/

mutual

theorem writable_of_built : ∀ {n : Node α}, n.Built LeafKind.Writable →
    ∀ x ∈ n.flatten.map Prod.fst, x.Writable
  | .leaf kind text mark, h => by
    intro x hx
    obtain rfl : x = .leaf kind text := by simpa [flatten] using hx
    exact h
  | .group kind items mark, h => by
    obtain ⟨b, rfl⟩ := exists_bracket h.1
    have hitems := writable_of_allBuilt h.2
    rw [flatten_group]
    intro x hx
    simp only [List.mem_cons, List.mem_append, List.not_mem_nil, or_false] at hx
    rcases hx with rfl | hx | rfl
    · trivial
    · exact hitems x hx
    · trivial

theorem writable_of_allBuilt : ∀ {ns : List (Node α)}, AllBuilt LeafKind.Writable ns →
    ∀ x ∈ wordAll ns, x.Writable
  | [], _ => by simp [wordAll, flattenAll]
  | n :: ns, h => by
    intro x hx
    rw [wordAll_cons, List.mem_append] at hx
    rcases hx with hx | hx
    · exact writable_of_built h.1 x hx
    · exact writable_of_allBuilt h.2 x hx

end

/-! ## What is written spells out the word -/

mutual

theorem spells_render : ∀ (n : Node α) {w : List Lexeme} {cs : List Char}, Spells w cs →
    Token.Boundary cs → Spells (n.flatten.map Prod.fst ++ w) (n.render ++ cs)
  | .leaf kind text mark, w, cs, h, hr => by
    rw [render, flatten]
    exact Spells.cons (x := .leaf kind text) (fun _ _ _ => hr) h
  | .group kind items mark, w, cs, h, hr => by
    by_cases hroot : kind = .root
    · subst hroot
      have hitems := spells_renderAll items h hr
      simpa [flatten, render, GroupKind.bracket?, GroupKind.brackets, wordAll] using hitems
    · obtain ⟨b, rfl⟩ := exists_bracket hroot
      have hclose : Spells (.closer b :: w) (b.closer :: cs) :=
        Spells.cons (x := .closer b) (fun _ _ h => by cases h) h
      have hboundary : Token.Boundary (b.closer :: cs) := by
        intro c hc
        obtain rfl := Option.some.inj hc
        cases b <;> decide
      have hitems := spells_renderAll items hclose hboundary
      have hopen := Spells.cons (x := .opener b) (fun _ _ h => by cases h) hitems
      have hrender : (Node.group b.groupKind items mark).render ++ cs =
          b.opener :: (renderAll items ++ b.closer :: cs) := by
        cases b <;> simp [render, Bracket.groupKind, GroupKind.brackets, Bracket.opener, Bracket.closer]
      rw [flatten_group, hrender]
      simpa [wordAll, Lexeme.render] using hopen
  | .host value line serial, w, cs, h, hr => by simpa [flatten, render] using h

theorem spells_renderAll : ∀ (ns : List (Node α)) {w : List Lexeme} {cs : List Char}, Spells w cs →
    Token.Boundary cs → Spells (wordAll ns ++ w) (renderAll ns ++ cs)
  | [], w, cs, h, _ => by simpa [wordAll, flattenAll, renderAll] using h
  | [n], w, cs, h, hr => by
    simpa [wordAll, flattenAll, renderAll] using spells_render n h hr
  | n :: m :: ns, w, cs, h, hr => by
    have hrest := spells_renderAll (m :: ns) h hr
    have hblank := hrest.blank (c := ' ') (by decide)
    have hboundary : Token.Boundary (' ' :: (renderAll (m :: ns) ++ cs)) := by
      intro c hc
      obtain rfl := Option.some.inj hc
      decide
    have hn := spells_render n hblank hboundary
    have hrender : renderAll (n :: m :: ns) = n.render ++ ' ' :: renderAll (m :: ns) := rfl
    rw [wordAll_cons, hrender]
    simpa using hn

end

end Node

namespace Reader

variable {α : Type} {base : Nat} {P : LeafKind → List Char → Prop}

/-! ## The reader builds the tree of a word -/

mutual

/-- Reading the word of a tree adds that tree to the innermost group. -/
theorem run_flatten : ∀ {n : Node α} {ts : List Token} {s : State α}, n.Built P →
    Token.word ts = n.flatten.map Prod.fst →
    ∃ m : Node α, ts.foldlM (step base) s = .ok ⟨m :: s.items, s.opened⟩ ∧ m.bare = n.bare
  | .leaf kind text mark, ts, s, _, hts => by
    obtain ⟨t, us, rfl, ht, hus⟩ := List.map_eq_cons_iff.mp hts
    obtain rfl := List.map_eq_nil_iff.mp hus
    refine ⟨.leaf kind text (markOf base t), ?_, rfl⟩
    rw [List.foldlM_cons, bind_eq_ok]
    exact ⟨_, by simp [step, ht], rfl⟩
  | .group kind items mark, ts, s, h, hts => by
    obtain ⟨b, rfl⟩ := Node.exists_bracket h.1
    rw [Node.flatten_group] at hts
    obtain ⟨t, us, rfl, ht, hus⟩ := List.map_eq_cons_iff.mp hts
    obtain ⟨vs, ws, rfl, hvs, hws⟩ := List.map_eq_append_iff.mp hus
    obtain ⟨t', ws, rfl, ht', hws⟩ := List.map_eq_cons_iff.mp hws
    obtain rfl := List.map_eq_nil_iff.mp hws
    obtain ⟨ms, hrun, hbare⟩ := run_flattenAll (s := ⟨[], ⟨b, t, s.items⟩ :: s.opened⟩) h.2 hvs
    refine ⟨.group b.groupKind ms (markOf base t), ?_, by simp [Node.bare, hbare]⟩
    rw [List.foldlM_cons, bind_eq_ok]
    refine ⟨_, by simp only [step, ht]; rfl, ?_⟩
    rw [List.foldlM_append, bind_eq_ok]
    refine ⟨_, hrun, ?_⟩
    rw [List.foldlM_cons, bind_eq_ok]
    exact ⟨_, by simp [step, ht'], rfl⟩

theorem run_flattenAll : ∀ {ns : List (Node α)} {ts : List Token} {s : State α},
    Node.AllBuilt P ns → Token.word ts = Node.wordAll ns →
    ∃ ms : List (Node α), ts.foldlM (step base) s = .ok ⟨ms.reverse ++ s.items, s.opened⟩ ∧
      Node.bareAll ms = Node.bareAll ns
  | [], ts, s, _, hts => by
    obtain rfl := List.map_eq_nil_iff.mp hts
    exact ⟨[], rfl, rfl⟩
  | n :: ns, ts, s, h, hts => by
    rw [Node.wordAll_cons] at hts
    obtain ⟨us, vs, rfl, hus, hvs⟩ := List.map_eq_append_iff.mp hts
    obtain ⟨m, hm, hbare⟩ := run_flatten (s := s) h.1 hus
    obtain ⟨ms, hms, hbares⟩ := run_flattenAll (s := ⟨m :: s.items, s.opened⟩) h.2 hvs
    refine ⟨m :: ms, ?_, by rw [Node.bareAll, hbare, hbares, Node.bareAll]⟩
    rw [List.foldlM_append, bind_eq_ok]
    exact ⟨_, hm, by simpa using hms⟩

end

/-- A text whose word is that of a tree is read as this tree. -/
theorem parse_of_scans {ns : List (Node α)} {cs : List Char} (hns : Node.AllBuilt P ns)
    (h : Scans cs (Node.wordAll ns)) :
    ∃ p : Program α, parse base (String.ofList cs) = .ok p ∧
      Node.bareAll p.items = Node.bareAll ns := by
  obtain ⟨hword, last, hstop⟩ := h.scanFrom 1 0
  rw [← String.toList_ofList (l := cs)] at hword hstop
  have hbuild : ∃ ms : List (Node α),
      (Token.scan (String.ofList cs)).tokens.foldlM (step base) State.start =
        .ok ⟨ms.reverse ++ [], []⟩ ∧ Node.bareAll ms = Node.bareAll ns :=
    run_flattenAll hns hword
  obtain ⟨ms, hrun, hbare⟩ := hbuild
  exact ⟨⟨ms, last⟩, parse_eq_ok.mpr ⟨_, hrun, rfl, hstop, by simp⟩, hbare⟩

/-! ## What the reader builds -/

/-- Everything that has been placed is built of leaves and of groups in brackets. -/
def State.Built (s : State α) : Prop :=
  (∀ n ∈ s.items, n.Built fun _ _ => True) ∧
    ∀ o ∈ s.opened, ∀ n ∈ o.before, n.Built fun _ _ => True

theorem step_built {s s' : State α} {t : Token} (hs : s.Built) (h : step base s t = .ok s') :
    s'.Built := by
  obtain ⟨hitems, hopened⟩ := hs
  obtain ⟨kind, text, -, rfl⟩ | ⟨b, -, rfl⟩ | ⟨o, outer, -, ho, rfl⟩ := step_cases h
  · refine ⟨?_, hopened⟩
    simp only [List.mem_cons, forall_eq_or_imp]
    exact ⟨trivial, hitems⟩
  · refine ⟨by simp, ?_⟩
    simp only [List.mem_cons, forall_eq_or_imp]
    exact ⟨hitems, hopened⟩
  · rw [ho] at hopened
    simp only [List.mem_cons, forall_eq_or_imp] at hopened
    refine ⟨?_, hopened.2⟩
    simp only [List.mem_cons, forall_eq_or_imp]
    refine ⟨⟨by cases o.bracket <;> decide, ?_⟩, hopened.1⟩
    rw [Node.allBuilt_iff]
    simpa using hitems

theorem run_built {s s' : State α} {ts : List Token} (hs : s.Built)
    (h : ts.foldlM (step base) s = .ok s') : s'.Built := by
  induction ts generalizing s with
  | nil =>
    obtain rfl := Except.ok.inj h
    exact hs
  | cons t ts ih =>
    rw [List.foldlM_cons, bind_eq_ok] at h
    obtain ⟨s₁, hstep, hrun⟩ := h
    exact ih (step_built hs hstep) hrun

/-- A program holds no node of the host and no root below its own. -/
theorem built_of_parse {source : String} {p : Program α} (h : parse base source = .ok p) :
    Node.AllBuilt (fun _ _ => True) p.items := by
  obtain ⟨s, hrun, -, -, hitems⟩ := parse_eq_ok.mp h
  have hstart : (State.start : State α).Built := by simp [State.Built, State.start]
  rw [Node.allBuilt_iff, hitems]
  simpa using (run_built hstart hrun).1

/-- The word of a program is the word of its source, and so is legible. -/
theorem legible_of_parse {source : String} {p : Program α} (h : parse base source = .ok p) :
    Legible (Node.wordAll p.items) := by
  obtain ⟨⟨last, hstop⟩, -⟩ := parse_ok_iff.mp ⟨p, h⟩
  rw [Node.wordAll, flattenAll_of_parse h, Token.map_fst_piece]
  exact (Scans.of_scanFrom hstop).legible.1

/-- A tree with a legible word is read back from what is written for it. -/
theorem parse_of_legible {ns : List (Node α)} (hns : Node.AllBuilt P ns)
    (hw : Legible (Node.wordAll ns)) :
    ∃ p : Program α, parse base (String.ofList (Node.renderAll ns)) = .ok p ∧
      Node.bareAll p.items = Node.bareAll ns := by
  have hspells := Node.spells_renderAll ns Spells.nil Token.boundary_nil
  rw [List.append_nil, List.append_nil] at hspells
  exact parse_of_scans hns (hspells.scans hw)

/-- Writing and reading are inverse up to marks: trees whose leaves can be written are read back
from their source text, and so is every tree that was read, whatever its source. -/
theorem parse_renderAll (base : Nat) :
    (∀ ns : List (Node α), (∀ n ∈ ns, n.Built LeafKind.Writable) →
      ∃ p : Program α, parse base (String.ofList (Node.renderAll ns)) = .ok p ∧
        Node.bareAll p.items = Node.bareAll ns) ∧
    (∀ (first : Nat) (source : String) (p : Program α), parse first source = .ok p →
      ∃ q : Program α, parse base (String.ofList (Node.renderAll p.items)) = .ok q ∧
        Node.bareAll q.items = Node.bareAll p.items) := by
  constructor
  · intro ns hns
    rw [← Node.allBuilt_iff] at hns
    exact parse_of_legible hns (legible_of_writable (Node.writable_of_allBuilt hns))
  · intro first source p h
    exact parse_of_legible (built_of_parse h) (legible_of_parse h)

/-- A call with one leaf of each kind, among them a string that needs escapes. -/
def sampleCall : Node Unit :=
  .group .call [.leaf .identifier "f.g" default, .leaf .string "a\"b\\n" default,
    .leaf .number "0x1F" default, .leaf .key "k" default, .leaf .rest "\"xs" default,
    .leaf .keyword "nil" default] default

theorem parse_renderAll_sampleCall :
    (∀ n ∈ [sampleCall], n.Built LeafKind.Writable) ∧
    ∃ p q : Program Unit, parse 0 (String.ofList (Node.renderAll [sampleCall])) = .ok p ∧
      Node.bareAll p.items = Node.bareAll [sampleCall] ∧
      parse 7 (String.ofList (Node.renderAll p.items)) = .ok q ∧
      Node.bareAll q.items = Node.bareAll p.items := by
  have hwritable : ∀ n ∈ [sampleCall], n.Built LeafKind.Writable := by
    simp only [List.mem_singleton, forall_eq, sampleCall, Node.Built, Node.AllBuilt,
      LeafKind.Writable, ← List.all_eq_true]
    decide
  obtain ⟨p, hp, hbare⟩ := (parse_renderAll 0).1 [sampleCall] hwritable
  obtain ⟨q, hq, hbare'⟩ := (parse_renderAll 7).2 0 _ p hp
  exact ⟨hwritable, p, q, hp, hbare, hq, hbare'⟩

end Reader

end Lisplet
