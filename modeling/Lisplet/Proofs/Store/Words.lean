import Lisplet.Proofs.Store.Shown

/-!
# Words

The names of slots are words, which consist of small letters and underscores, and the names that are
reserved begin with an underscore. The text of a value that is no text itself is marked: it has some
other character in it, as a bracket, a digit or a capital letter, and does not begin with an
underscore. Only the void value and the doubles that are no numbers or infinite have words as their
texts, three in all.

Main statement: `Store.plain_printed`.
-/

namespace Lisplet

/-- The text consists of small letters and underscores. -/
def IsWord (t : String) : Prop := ∀ c ∈ t.toList, c.isLower ∨ c = '_'

instance (t : String) : Decidable (IsWord t) :=
  List.decidableBAll (fun c : Char => c.isLower ∨ c = '_') t.toList

theorem isWord_append {t u : String} : IsWord (t ++ u) ↔ IsWord t ∧ IsWord u := by
  unfold IsWord
  rw [String.toList_append, List.forall_mem_append]

theorem not_isWord_of_mem {t : String} (c : Char) (hc : c ∈ t.toList) (hlower : c.isLower = false)
    (hc' : c ≠ '_') : ¬IsWord t := by
  intro h
  rcases h c hc with h | h
  · rw [hlower] at h
    cases h
  · exact hc' h

/-- The text does not begin with an underscore. -/
def Open (t : String) : Prop := t.toList.head? ≠ some '_'

instance (t : String) : Decidable (Open t) := inferInstanceAs (Decidable (_ ≠ _))

theorem open_of_not_mem {t : String} (h : '_' ∉ t.toList) : Open t :=
  fun hhead => h (List.mem_of_head? hhead)

theorem Open.append {t : String} (ht : Open t) (hne : t.toList ≠ []) (u : String) :
    Open (t ++ u) := by
  obtain ⟨c, cs, hcs⟩ := List.exists_cons_of_ne_nil hne
  unfold Open at ht ⊢
  rw [hcs] at ht
  rw [String.toList_append, hcs]
  exact ht

/-- The text is no word and does not begin with an underscore, whatever comes after it. -/
structure Marked (t : String) : Prop where
  not_word : ¬IsWord t
  isOpen : Open t

instance (t : String) : Decidable (Marked t) :=
  decidable_of_iff (¬IsWord t ∧ Open t) ⟨fun h => ⟨h.1, h.2⟩, fun h => ⟨h.not_word, h.isOpen⟩⟩

theorem Marked.append {t : String} (h : Marked t) (u : String) : Marked (t ++ u) := by
  have hne : t.toList ≠ [] := by
    intro hnil
    refine h.not_word fun c hc => ?_
    rw [hnil] at hc
    cases hc
  exact ⟨fun hword => h.not_word (isWord_append.mp hword).1, h.isOpen.append hne u⟩

/-! ## Numbers -/

theorem not_isLower_of_isDigit {c : Char} (h : c.isDigit) : c.isLower = false ∧ c ≠ '_' := by
  constructor
  · by_contra hlower
    rw [Bool.not_eq_false] at hlower
    have hdigit : c.val ≤ '9'.val := of_decide_eq_true (Bool.and_eq_true_iff.mp h).2
    have hletter : 'a'.val ≤ c.val := of_decide_eq_true (Bool.and_eq_true_iff.mp hlower).1
    have hle := UInt32.le_trans hletter hdigit
    revert hle
    decide
  · rintro rfl
    revert h
    decide

theorem toString_int_marked (i : Int) : Marked (toString i) := by
  cases i with
  | ofNat k =>
    have htext : (toString (Int.ofNat k)).toList = Nat.toDigits 10 k := Nat.toList_repr
    obtain ⟨c, hc⟩ := List.exists_mem_of_ne_nil _ (Nat.toDigits_ne_nil (n := k) (b := 10))
    have hdigit : c.isDigit := Nat.isDigit_of_mem_toDigits (by decide) (by decide) hc
    obtain ⟨hlower, hne⟩ := not_isLower_of_isDigit hdigit
    refine ⟨not_isWord_of_mem c (htext ▸ hc) hlower hne, open_of_not_mem ?_⟩
    rw [htext]
    exact Nat.underscore_not_in_toDigits
  | negSucc k =>
    have hminus : Marked "-" := by decide
    exact hminus.append _

namespace Double

-- the search for the shortest decimal becomes a variable, since comparing it with itself would
-- carry it out
/-- The significant digits of a magnitude, however the shortest decimal is found. -/
def digitsBy (shortest : Nat → Int → Nat → Nat → Nat × Nat) (units : Nat) : List Char × Int :=
  let point := pointOf units
  let (n, d) := shortest units point 1 17
  let ds := Nat.toDigits 10 d
  let point := point + ((ds.length : Int) - n)
  let trimmed := (ds.reverse.dropWhile (· == '0')).reverse
  (if trimmed.isEmpty then ['0'] else trimmed, point)

theorem digits_eq : digits = digitsBy shortestFrom := by
  delta digits digitsBy
  rfl

theorem underscore_not_mem_digitsBy (shortest : Nat → Int → Nat → Nat → Nat × Nat) (units : Nat) :
    '_' ∉ (digitsBy shortest units).1 := by
  unfold digitsBy
  dsimp only
  split
  · decide
  · intro hmem
    have hdigit := (List.dropWhile_sublist _).mem (List.mem_reverse.mp hmem)
    exact Nat.underscore_not_in_toDigits (List.mem_reverse.mp hdigit)

theorem underscore_not_mem_digits (units : Nat) : '_' ∉ (digits units).1 := by
  rw [digits_eq]
  exact underscore_not_mem_digitsBy _ units

theorem underscore_not_mem_layOut {ds : List Char} (point : Int) (h : '_' ∉ ds) :
    '_' ∉ layOut ds point := by
  have hexponent : '_' ∉ Nat.toDigits 10 (point - 1).natAbs := Nat.underscore_not_in_toDigits
  unfold layOut
  dsimp only
  split
  · split
    · simp [h]
    · split
      · simp [h]
      · have htake : '_' ∉ ds.take point.toNat := fun hmem => h (List.mem_of_mem_take hmem)
        have hdrop : '_' ∉ ds.drop point.toNat := fun hmem => h (List.mem_of_mem_drop hmem)
        simp [htake, hdrop]
  · have hsign : (if point - 1 < 0 then '-' else '+') ≠ '_' := by split <;> decide
    have hes : '_' ∉ (if (Nat.toDigits 10 (point - 1).natAbs).length < 2
        then '0' :: Nat.toDigits 10 (point - 1).natAbs else Nat.toDigits 10 (point - 1).natAbs) := by
      split
      · simp [hexponent]
      · exact hexponent
    rw [List.mem_append, List.mem_cons, List.mem_cons]
    rintro (hmem | hmem | hmem | hmem)
    · revert hmem
      split
      · exact h
      · simpa using h
      · exact h
    · revert hmem
      decide
    · exact hsign hmem.symm
    · exact hes hmem

/-- However digits are laid out, there is a point or the sign of an exponent. -/
theorem layOut_mem (ds : List Char) (point : Int) :
    ∃ c ∈ layOut ds point, c = '.' ∨ c = '+' ∨ c = '-' := by
  unfold layOut
  dsimp only
  split
  · refine ⟨'.', ?_, .inl rfl⟩
    split
    · simp
    · split <;> simp
  · refine ⟨if point - 1 < 0 then '-' else '+', by simp, ?_⟩
    split <;> simp

-- the digits stay a variable, since comparing them with themselves would work them out
theorem text_fin {units : Nat} {ds : List Char} {point : Int} (h : digits units = (ds, point))
    (neg : Bool) :
    (Double.fin neg units).text =
      String.ofList
        (if neg then '-' :: (if units == 0 then ['0', '.', '0'] else layOut ds point)
        else if units == 0 then ['0', '.', '0'] else layOut ds point) := by
  rw [text, h]

/-- Digits with a point or a sign among them are marked, also with a minus in front. -/
theorem signed_marked {body : List Char} (hodd : ∃ c ∈ body, c = '.' ∨ c = '+' ∨ c = '-')
    (hbody : '_' ∉ body) (neg : Bool) :
    Marked (String.ofList (if neg then '-' :: body else body)) := by
  obtain ⟨c, hc, hsign⟩ := hodd
  have hc' : c ∈ (if neg then '-' :: body else body) := by
    split
    · exact List.mem_cons_of_mem _ hc
    · exact hc
  have hbody' : '_' ∉ (if neg then '-' :: body else body) := by
    split
    · simpa using hbody
    · exact hbody
  have hne : c.isLower = false ∧ c ≠ '_' := by
    rcases hsign with rfl | rfl | rfl <;> decide
  exact ⟨not_isWord_of_mem c (by rwa [String.toList_ofList]) hne.1 hne.2,
    open_of_not_mem (by rwa [String.toList_ofList])⟩

theorem text_fin_marked (neg : Bool) (units : Nat) : Marked (Double.fin neg units).text := by
  cases hdigits : digits units with
  | mk ds point =>
    have hds : '_' ∉ ds := by
      have hmem := underscore_not_mem_digits units
      rwa [hdigits] at hmem
    rw [text_fin hdigits]
    refine signed_marked ?_ ?_ neg
    · split
      · exact ⟨'.', by decide, .inl rfl⟩
      · exact layOut_mem ds point
    · split
      · decide
      · exact underscore_not_mem_layOut point hds

theorem text_marked (d : Double) : Marked d.text ∨ d.text ∈ ["nan", "inf"] := by
  cases d with
  | nan tag => exact .inr List.mem_cons_self
  | inf neg =>
    cases neg with
    | true =>
      have hinf : Marked "-inf" := by decide
      exact .inl hinf
    | false => exact .inr (List.mem_cons_of_mem _ List.mem_cons_self)
  | fin neg units => exact .inl (text_fin_marked neg units)

end Double

/-! ## Computed texts -/

/-- What the text of a value that is no text can be. -/
def Printed (t : String) : Prop := Marked t ∨ t ∈ ["undefined", "nan", "inf"]

instance (t : String) : Decidable (Printed t) := inferInstanceAs (Decidable (_ ∨ _))

theorem Printed.isOpen {t : String} (h : Printed t) : Open t := by
  have hwords : ∀ word ∈ ["undefined", "nan", "inf"], Open word := by decide
  rcases h with hmarked | hword
  · exact hmarked.isOpen
  · exact hwords t hword

/-- Every text that a computation gives can be the text of a value. -/
def AlwaysPrinted (x : Except Fault String) : Prop := ∀ t, x = .ok t → Printed t

namespace AlwaysPrinted

theorem ok {t : String} (h : Printed t) : AlwaysPrinted (.ok t) := by
  intro t' ht
  cases ht
  exact h

theorem marked {t : String} (h : Marked t) : AlwaysPrinted (.ok t) := ok (.inl h)

theorem error (fault : Fault) : AlwaysPrinted (.error fault) := by
  intro t ht
  cases ht

theorem bind {α : Type} {x : Except Fault α} {f : α → Except Fault String}
    (h : ∀ a, AlwaysPrinted (f a)) : AlwaysPrinted (x >>= f) := by
  intro t ht
  cases x with
  | ok a => exact h a t ht
  | error fault => cases ht

/-- A text with a marked piece in front. -/
theorem ok_append {piece : String} (u : String) (h : Marked piece) :
    AlwaysPrinted (.ok (piece ++ u)) :=
  marked (h.append u)

end AlwaysPrinted

namespace Store

variable {s : Store}

theorem bracketed_marked {opening closing : String} (items : List String) (h : Marked opening) :
    Marked (bracketed opening closing items) :=
  (h.append _).append _

theorem tupleText_marked (items : List String) : Marked (tupleText items) := by
  have hopening : Marked "(" := by decide
  unfold tupleText
  split
  · exact (hopening.append _).append _
  · exact bracketed_marked _ hopening

theorem nodeShownIn_printed (fuel : Nat) (path : List Container) (n : Node Value) :
    AlwaysPrinted (s.nodeShownIn fuel path n) := by
  cases fuel with
  | zero =>
    rw [nodeShownIn]
    exact .marked (by decide)
  | succ fuel =>
    cases n with
    | leaf k text mark =>
      rw [nodeShownIn]
      have hpiece : Marked ((NodeKind.leaf k).name ++ "(") := by cases k <;> decide
      simp only [String.append_assoc]
      rw [← String.append_assoc]
      exact .ok_append _ hpiece
    | group k items mark =>
      rw [nodeShownIn]
      refine .bind fun texts => ?_
      simp only [String.append_assoc]
      exact .ok_append _ (by decide)
    | host value line serial =>
      rw [nodeShownIn]
      refine .bind fun shown => .bind fun plain => ?_
      have hpiece : Marked (NodeKind.host.name ++ "(") := by decide
      simp only [String.append_assoc]
      rw [← String.append_assoc]
      exact .ok_append _ hpiece

theorem quotedBytes_marked (data : List UInt8) : Marked (Text.quotedBytes data) := by
  have hquote : ∀ cs : List Char, Text.quoteFor cs = '"' ∨ Text.quoteFor cs = '\'' := by
    intro cs
    unfold Text.quoteFor
    split
    · exact .inl rfl
    · exact .inr rfl
  refine ⟨?_, by simp [Open, Text.quotedBytes]⟩
  unfold Text.quotedBytes
  rcases hquote (data.map fun b => Char.ofNat b.toNat) with h | h
  · rw [h]
    exact not_isWord_of_mem '"' (by simp) (by decide) (by decide)
  · rw [h]
    exact not_isWord_of_mem '\'' (by simp) (by decide) (by decide)

theorem shownIn_printed (fuel : Nat) (path : List Container) {v : Value} (htext : v.text? = none) :
    AlwaysPrinted (s.shownIn (fuel + 1) path v) := by
  cases v with
  | str t => cases htext
  | kind k => cases htext
  | undefined =>
    rw [shownIn]
    exact .ok (by decide)
  | nil | method =>
    rw [shownIn]
    exact .marked (by decide)
  | bool b =>
    rw [shownIn]
    cases b <;> exact .marked (by decide)
  | int i =>
    rw [shownIn]
    unfold intText
    split
    · exact .marked (toString_int_marked i)
    · exact .error _
  | float d =>
    rw [shownIn]
    exact .ok (d.text_marked.imp_right (List.mem_cons_of_mem _))
  | bytes id data =>
    rw [shownIn]
    exact .marked (quotedBytes_marked data)
  | list r =>
    rw [shownIn]
    split
    · exact .marked (by decide)
    · exact .bind fun items => .marked (bracketed_marked items (by decide))
  | tuple id items =>
    rw [shownIn]
    split
    · exact .marked (by decide)
    · exact .bind fun items => .marked (tupleText_marked items)
  | dict r =>
    rw [shownIn]
    split
    · exact .marked (by decide)
    · exact .bind fun items => .marked (bracketed_marked items (by decide))
  | node n =>
    rw [shownIn]
    exact nodeShownIn_printed fuel path n
  | set id items =>
    cases items with
    | nil =>
      rw [shownIn]
      exact .marked (by decide)
    | cons item items =>
      rw [shownIn]
      · refine .bind fun texts => ?_
        simp only [String.append_assoc]
        exact .ok_append _ (by decide)
      · simp
  | closure r =>
    rw [shownIn]
    refine .bind fun params => .bind fun value => .bind fun items => .bind fun texts => ?_
    simp only [String.append_assoc]
    exact .ok_append _ (by decide)
  | form f =>
    rw [shownIn]
    refine .bind fun name => ?_
    simp only [String.append_assoc]
    exact .ok_append _ (by decide)
  | function r =>
    obtain ⟨shape, i⟩ := r
    cases shape <;> simp only [shownIn] <;> exact .marked (by decide)
  | object r =>
    obtain ⟨cls, i⟩ := r
    cases cls <;> simp only [shownIn] <;> exact .marked (by decide)
  | iterator r =>
    rw [shownIn]
    simp only [String.append_assoc]
    exact .ok_append _ (by decide)
  | scope r =>
    rw [shownIn]
    refine .bind fun vars => .bind fun readOnly => ?_
    simp only [String.append_assoc]
    exact .ok_append _ (by decide)

/-- The printed text of a value other than a text is marked, but for three words. -/
theorem plain_printed {v : Value} {t : String} (hv : ∀ text, v ≠ .str text)
    (h : s.plain v = .ok t) : Printed t := by
  have hdepth : s.plainIn (99999 + 1) [] v = .ok t := h
  cases v with
  | str text => exact absurd rfl (hv text)
  | kind k =>
    rw [plainIn] at hdepth
    exact AlwaysPrinted.ok_append _ (by decide) t hdepth
  | scope r =>
    rw [plainIn] at hdepth
    have hscope : ∀ (items : List String) (tail : String),
        AlwaysPrinted (.ok (bracketed "\x7b" "\x7d" items ++ tail)) :=
      fun items tail => .ok_append tail (bracketed_marked items (by decide))
    exact AlwaysPrinted.bind (fun entries => .bind fun items => hscope items _) t hdepth
  | _ =>
    simp only [plainIn] at hdepth
    exact shownIn_printed _ [] rfl t hdepth

/-- The text of a value does not name the slots that tell a scope what is around it and which names
are read-only in it, unless the value is one of these names. -/
theorem plain_ne_slot {v : Value} {t : String}
    (htext : ∀ name, v.text? = some name → name ≠ "parent" ∧ name ≠ "read_only")
    (h : s.plain v = .ok t) : t ≠ "parent" ∧ t ≠ "read_only" := by
  have hprinted : Printed t → t ≠ "parent" ∧ t ≠ "read_only" := by
    intro ht
    constructor
    · rintro rfl
      revert ht
      decide
    · rintro rfl
      revert ht
      decide
  cases v with
  | str name =>
    cases h
    exact htext _ rfl
  | _ => exact hprinted (plain_printed (by simp) h)

end Store

end Lisplet
