import Lisplet.Proofs.Evaluation.Dispatch
import Lisplet.Proofs.Numeral.Reading
import Lisplet.Proofs.Syntax.RoundTrip

/-!
# Leaves of programs

The token rules decide what a leaf is, and evaluation decides what it is worth. They agree on every
program: a number is read as what it denotes, unless it is a whole number with too many digits, a
keyword has a value, and below the root there is no node that evaluation has no rule for.

Main statement: `evaluable_of_parse`.
-/

namespace Lisplet

/-! ## Nodes of a tree -/

namespace Node

variable {α : Type} {ns : List (Node α)} {n : Node α} {P : LeafKind → List Char → Prop}

/-- The node is one of some trees, or in one of them. -/
inductive Inside (ns : List (Node α)) : Node α → Prop where
  | top {n : Node α} (h : n ∈ ns) : Inside ns n
  | item {kind : GroupKind} {items : List (Node α)} {mark : Mark} {n : Node α}
    (h : Inside ns (.group kind items mark)) (hn : n ∈ items) : Inside ns n

theorem Inside.built (hns : AllBuilt P ns) (hn : Inside ns n) : n.Built P := by
  induction hn with
  | top h => exact allBuilt_iff.mp hns _ h
  | item _ hn ih => exact allBuilt_iff.mp ih.2 _ hn

mutual

/-- The leaves of a tree are those of its word. -/
theorem built_of_word : ∀ {n : Node α}, n.Built (fun _ _ => True) →
    (∀ kind text, .leaf kind text ∈ n.flatten.map Prod.fst → P kind text.toList) → n.Built P
  | .leaf kind text mark, _, hw => hw kind text (by simp [flatten])
  | .group kind items mark, h, hw => by
    obtain ⟨b, rfl⟩ := exists_bracket h.1
    refine ⟨h.1, allBuilt_of_word h.2 fun kind text hmem => hw kind text ?_⟩
    rw [flatten_group, List.mem_cons, List.mem_append]
    exact .inr (.inl hmem)

theorem allBuilt_of_word : ∀ {ns : List (Node α)}, AllBuilt (fun _ _ => True) ns →
    (∀ kind text, .leaf kind text ∈ wordAll ns → P kind text.toList) → AllBuilt P ns
  | [], _, _ => trivial
  | n :: ns, h, hw => by
    have hmem : ∀ x, x ∈ wordAll (n :: ns) ↔ x ∈ n.flatten.map Prod.fst ∨ x ∈ wordAll ns := by
      intro x
      rw [wordAll_cons, List.mem_append]
    exact ⟨built_of_word h.1 fun kind text hx => hw kind text ((hmem _).mpr (.inl hx)),
      allBuilt_of_word h.2 fun kind text hx => hw kind text ((hmem _).mpr (.inr hx))⟩

end

end Node

/-! ## Numbers -/

namespace Numeral

/-- How a number of a source is evaluated: to an integer if it is written in base sixteen or is made
of decimal digits alone, which must not be too many, and else to a double. -/
structure Evaluates (text : String) : Prop where
  denotes : Denotes text.toList (read text)
  hex : ∀ ds, text.toList = '0' :: 'x' :: ds → numberOf text = pure (.int (denoted 16 ds))
  ten : (∀ ds, text.toList ≠ '0' :: 'x' :: ds) →
    (∀ c ∈ text.toList, c ≠ '.' ∧ c ≠ 'e' ∧ c ≠ 'E') →
      (∀ c ∈ text.toList, Text.isDecimal c = true) ∧
      numberOf text =
        if text.toList.length ≤ maxDigits then pure (.int (denoted 10 text.toList))
        else .raise (Property.numeralFault (.tooLong text.toList.length))
  decimal : (∀ ds, text.toList ≠ '0' :: 'x' :: ds) →
    (∃ c ∈ text.toList, c = '.' ∨ c = 'e' ∨ c = 'E') → ∃ d, numberOf text = pure (.float d)

theorem scaled_not_nan (neg : Bool) (digits : Nat) (exponent : Int) :
    (scaled neg digits exponent).isNaN = false := by
  have hratio : ∀ num den, (Double.ofRatio neg num den).isNaN = false := by
    intro num den
    unfold Double.ofRatio Double.ofUnitsRatio
    dsimp only
    split <;> rfl
  unfold scaled
  dsimp only
  split
  · rfl
  · split
    · rfl
    · split
      · rfl
      · split <;> exact hratio _ _

theorem numberOf_whole {text : String} {i : Int} (h : read text = .ok (.whole i)) :
    numberOf text = pure (.int i) := by
  unfold numberOf
  rw [h]

theorem numberOf_decimal {text : String} {d : Double} (h : read text = .ok (.decimal d))
    (hd : d.isNaN = false) : numberOf text = pure (.float d) := by
  unfold numberOf Action.newFloat
  rw [h]
  dsimp only
  rw [hd]
  rfl

theorem numberOf_error {text : String} {e : ReadError} (h : read text = .error e) :
    numberOf text = .raise (Property.numeralFault e) := by
  unfold numberOf
  rw [h]

/-- Decimal digits alone have neither the mark of base sixteen nor one of a decimal. -/
theorem evaluates_of_digits {text : String} (hdenotes : Denotes text.toList (read text))
    (hds : ∀ c ∈ text.toList, Text.isDecimal c = true)
    (h : numberOf text =
      if text.toList.length ≤ maxDigits then pure (.int (denoted 10 text.toList))
      else .raise (Property.numeralFault (.tooLong text.toList.length))) : Evaluates text := by
  refine ⟨hdenotes, fun ds heq => ?_, fun _ _ => ⟨hds, h⟩, ?_⟩
  · have hx : Text.isDecimal 'x' = true := hds 'x' (by simp [heq])
    exact absurd rfl (ne_of_isDecimal hx (by decide))
  · rintro - ⟨c, hc, hmark⟩
    rcases hmark with hmark | hmark | hmark <;>
      exact absurd hmark (ne_of_isDecimal (hds c hc) (by decide))

/-- A number of a source is evaluated to what it denotes. -/
theorem evaluates_of_denotes {text : String} (h : Denotes text.toList (read text)) :
    Evaluates text := by
  have hdenotes := h
  generalize hresult : read text = result at h
  generalize hcs : text.toList = cs at h
  cases h with
  | @hex ds hne hds =>
    refine ⟨hdenotes, fun ds' heq => ?_, fun hnot => absurd hcs (hnot ds),
      fun hnot => absurd hcs (hnot ds)⟩
    obtain rfl : ds = ds' := by
      rw [hcs] at heq
      exact (List.cons.inj (List.cons.inj heq).2).2
    exact numberOf_whole hresult
  | whole hne hds hlength =>
    subst hcs
    refine evaluates_of_digits hdenotes hds ?_
    rw [if_pos hlength]
    exact numberOf_whole hresult
  | tooLong hds hlength =>
    subst hcs
    refine evaluates_of_digits hdenotes hds ?_
    rw [if_neg (Nat.not_le.mpr hlength)]
    exact numberOf_error hresult
  | decimal hlead hpoint htail hdigits hmarked =>
    obtain ⟨c, hc, hmark⟩ := exists_decimalMark hpoint htail hmarked
    refine ⟨hdenotes, fun ds heq => ?_, fun _ hnone => ?_, fun _ _ => ?_⟩
    · have hx := mem_decimal hlead hpoint htail 'x' (by rw [← hcs, heq]; simp)
      exact absurd hx (by decide)
    · obtain ⟨hdot, he, hE⟩ := hnone c (hcs ▸ hc)
      rcases hmark with h | h | h
      · exact absurd h hdot
      · exact absurd h he
      · exact absurd h hE
    · exact ⟨_, numberOf_decimal hresult (scaled_not_nan _ _ _)⟩

end Numeral

/-! ## Programs -/

theorem keywordValue_of_mem {text : String} (h : text ∈ Token.keywords) :
    ∃ v, keywordValue text = pure v := by
  simp only [Token.keywords, List.mem_cons, List.not_mem_nil, or_false] at h
  rcases h with rfl | rfl | rfl | rfl <;> exact ⟨_, rfl⟩

/-- What evaluation meets in a node below the root of a program: a leaf with its text or a group of
nodes, of a kind that it has a rule for. -/
structure Evaluable (n : Expr) : Prop where
  not_root : n.kind ≠ .group .root
  not_host : n.kind ≠ .host
  leaf : ∀ kind text mark, n = .leaf kind text mark → contentOf n = .str text
  group : ∀ kind items mark, n = .group kind items mark →
    ∀ s : Store, s.elements (contentOf n) = .ok (items.map .node)
  number : ∀ text mark, n = .leaf .number text mark → Numeral.Evaluates text
  keyword : ∀ text mark, n = .leaf .keyword text mark →
    text ∈ Token.keywords ∧ ∃ v, keywordValue text = pure v
  never_stuck : ∀ (m : Machine) (r : ScopeRef), m.HandsOn (.scope r) n →
    (m.evalNode (.scope r) n).NeverStuck

/-- Of the leaves that are read, only an identifier may be one that cannot be written. -/
theorem writable_of_legible {w : List Lexeme} {kind : LeafKind} {text : String} (hw : Legible w)
    (hmem : .leaf kind text ∈ w) : kind.Writable text.toList ∨ kind = .identifier := by
  induction w with
  | nil => cases hmem
  | cons x w ih =>
    rcases List.mem_cons.mp hmem with rfl | hmem
    · rcases hw.1 with hwritable | ⟨⟨cs, heq, -⟩, -⟩
      · exact .inl hwritable
      · exact .inr (Lexeme.leaf.inj heq).1
    · exact ih hw.2 hmem

/-- Reader and evaluation agree on every node of a program. -/
theorem evaluable_of_parse {base : Nat} {source : String} {program : Program Value}
    (h : Reader.parse base source = .ok program) {n : Expr} (hn : Node.Inside program.items n) :
    Evaluable n := by
  have hbuilt : n.Built fun kind cs => kind.Writable cs ∨ kind = .identifier :=
    hn.built (Node.allBuilt_of_word (Reader.built_of_parse h)
      fun _ _ => writable_of_legible (Reader.legible_of_parse h))
  have hroot : n.kind ≠ .group .root := by
    cases n with
    | leaf kind text mark => exact fun heq => by cases heq
    | group kind items mark => exact fun heq => hbuilt.1 (NodeKind.group.inj heq)
    | host value line serial => exact hbuilt.elim
  refine ⟨hroot, ?_, ?_, ?_, ?_, ?_, fun m r => Machine.evalNode_neverStuck r hroot⟩
  · rintro heq
    cases n with
    | leaf kind text mark => cases heq
    | group kind items mark => cases heq
    | host value line serial => exact hbuilt.elim
  · rintro kind text mark rfl
    rfl
  · rintro kind items mark rfl s
    cases items <;> rfl
  · rintro text mark rfl
    rcases hbuilt with ⟨hne, hlength⟩ | hident
    · obtain ⟨result, hdenotes⟩ := Numeral.denotes_of_numberLength hne hlength
      have hread := Numeral.read_of_denotes hdenotes
      exact Numeral.evaluates_of_denotes (hread.symm ▸ hdenotes)
    · cases hident
  · rintro text mark rfl
    rcases hbuilt with hmem | hident
    · have hmem : String.ofList text.toList ∈ Token.keywords := hmem
      rw [String.ofList_toList] at hmem
      exact ⟨hmem, keywordValue_of_mem hmem⟩
    · cases hident

/-- The tree of a source with a number in base sixteen. -/
def hexProgram : Program Value :=
  ⟨[.group .array [.leaf .number "0x1F" ⟨1, 2⟩] ⟨1, 0⟩], 1⟩

theorem evaluable_of_parse_hex :
    Reader.parse 0 "[0x1F]" = .ok hexProgram ∧
      Node.Inside hexProgram.items (.leaf .number "0x1F" ⟨1, 2⟩) ∧
      Evaluable (.leaf .number "0x1F" ⟨1, 2⟩) ∧ numberOf "0x1F" = pure (.int 31) := by
  have hscan : Token.scan "[0x1F]" = ⟨[⟨.opener .square, 1, 0⟩, ⟨.leaf .number "0x1F", 1, 1⟩,
      ⟨.closer .square, 1, 5⟩], .finished 1⟩ := by decide +kernel
  have hparse : Reader.parse 0 "[0x1F]" = .ok hexProgram := by
    unfold Reader.parse
    rw [hscan]
    rfl
  have hinside : Node.Inside hexProgram.items (.leaf .number "0x1F" ⟨1, 2⟩) :=
    .item (.top List.mem_cons_self) List.mem_cons_self
  have hleaf := evaluable_of_parse hparse hinside
  exact ⟨hparse, hinside, hleaf, (hleaf.number _ _ rfl).hex ['1', 'F'] rfl⟩

end Lisplet
