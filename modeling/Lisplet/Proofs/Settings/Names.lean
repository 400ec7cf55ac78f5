import Lisplet.Settings
import Mathlib.Data.List.DropRight
import Mathlib.Data.List.Forall2
import Mathlib.Data.List.Infix
import Mathlib.Tactic.Common

/-!
# Names from the environment

A variable lists names between colons and commas: the parts of its text, without the blanks around
them. Some parts may be empty and names may come again. They are added to the default names one by
one, and at every step what has been added are the names listed so far that are neither empty nor
defaults, each once, in the order in which they first came (`Added`). Names that are listed after
others are added after them, so that a longer list never loses a name.

Main statement: `names_spec`.
-/

namespace Lisplet

/-! ## Trimming -/

namespace Text

/-- The second text is the first one without the blanks around it. -/
structure Stripped (cs core : List Char) : Prop where
  around : ∃ before after, cs = before ++ core ++ after ∧
    (∀ c ∈ before, isBlank c = true) ∧ ∀ c ∈ after, isBlank c = true
  first : ∀ c ∈ core.head?, isBlank c = false
  last : ∀ c ∈ core.getLast?, isBlank c = false

theorem stripped_trimmed (cs : List Char) : Stripped cs (trimmed cs) := by
  have htrimmed : trimmed cs = (cs.dropWhile isBlank).rdropWhile isBlank := rfl
  rw [htrimmed]
  constructor
  · refine ⟨cs.takeWhile isBlank, (cs.dropWhile isBlank).rtakeWhile isBlank, ?_, ?_, ?_⟩
    · rw [List.append_assoc, List.rdropWhile_append_rtakeWhile, List.takeWhile_append_dropWhile]
    · exact fun c hc => List.mem_takeWhile_imp hc
    · exact fun c hc => List.mem_rtakeWhile_imp hc
  · intro c hc
    have hhead : c ∈ (cs.dropWhile isBlank).head? := by
      obtain ⟨rest, hrest⟩ := List.rdropWhile_prefix isBlank (cs.dropWhile isBlank)
      exact hrest ▸ List.mem_head?_append_of_mem_head? hc
    have hdrop := List.head?_dropWhile_not isBlank cs
    rwa [Option.mem_def.mp hhead] at hdrop
  · intro c hc
    obtain ⟨hne, rfl⟩ := List.mem_getLast?_eq_getLast hc
    exact Bool.eq_false_iff.mpr (List.rdropWhile_last_not isBlank _ hne)

end Text

namespace Settings

/-! ## Splitting -/

/-- A character that stands between two names. -/
def isSeparator (c : Char) : Bool := c == ':' || c == ','

theorem splitNames_eq_splitOnP (cs : List Char) : splitNames cs = cs.splitOnP isSeparator := by
  induction cs with
  | nil => rfl
  | cons c rest ih =>
    rw [splitNames, List.splitOnP_cons_eq_if_modifyHead, ih]
    change (if isSeparator c = true then _ else _) = _
    by_cases hc : isSeparator c = true
    · rw [if_pos hc, if_pos hc]
    · rw [if_neg hc, if_neg hc]
      cases h : rest.splitOnP isSeparator with
      | nil => exact absurd h (List.splitOnP_ne_nil _ _)
      | cons first others => rfl

/-! ## Adding names -/

variable {defaults listed added : List String}

/-- What has been added to the defaults are the names listed that are neither empty nor defaults,
each once and in the order in which they first come. -/
structure Added (defaults listed added : List String) : Prop where
  mem_iff : ∀ name, name ∈ added ↔ name ∈ listed ∧ name ≠ "" ∧ name ∉ defaults
  order : added.Pairwise fun m n => listed.idxOf m < listed.idxOf n

theorem Added.nodup (h : Added defaults listed added) : added.Nodup :=
  h.order.imp fun hlt heq => absurd (heq ▸ hlt) (Nat.lt_irrefl _)

theorem Added.nil : Added defaults [] [] where
  mem_iff := by simp
  order := .nil

theorem Added.mem_listed (h : Added defaults listed added) {name : String} (hname : name ∈ added) :
    name ∈ listed :=
  ((h.mem_iff name).mp hname).1

/-- Listing another name leaves what has been added in its order. -/
theorem Added.order_append (h : Added defaults listed added) (name : String) :
    added.Pairwise fun m n => (listed ++ [name]).idxOf m < (listed ++ [name]).idxOf n := by
  refine h.order.imp_of_mem fun hm hn hlt => ?_
  rwa [List.idxOf_append_of_mem (h.mem_listed hm), List.idxOf_append_of_mem (h.mem_listed hn)]

/-- A name that is empty or there already is not added. -/
theorem Added.skip (h : Added defaults listed added) {name : String}
    (hskip : name = "" ∨ name ∈ defaults ++ added) : Added defaults (listed ++ [name]) added where
  order := h.order_append name
  mem_iff n := by
    rw [h.mem_iff n, List.mem_append, List.mem_singleton]
    refine ⟨fun ⟨hn, hname⟩ => ⟨.inl hn, hname⟩, fun ⟨hn, hname⟩ => ⟨?_, hname⟩⟩
    rcases hn with hn | rfl
    · exact hn
    · have hthere := hskip.resolve_left hname.1
      exact h.mem_listed ((List.mem_append.mp hthere).resolve_left hname.2)

/-- A name that is new is added after the others, before which it has not been listed. -/
theorem Added.snoc (h : Added defaults listed added) {name : String} (hempty : name ≠ "")
    (hnew : name ∉ defaults ++ added) : Added defaults (listed ++ [name]) (added ++ [name]) := by
  obtain ⟨hdefaults, hadded⟩ := not_or.mp (List.mem_append.not.mp hnew)
  have hlisted : name ∉ listed := fun hmem =>
    hadded ((h.mem_iff name).mpr ⟨hmem, hempty, hdefaults⟩)
  constructor
  · intro n
    rw [List.mem_append, List.mem_append, List.mem_singleton, h.mem_iff n]
    constructor
    · rintro (⟨hn, hname⟩ | rfl)
      · exact ⟨.inl hn, hname⟩
      · exact ⟨.inr rfl, hempty, hdefaults⟩
    · rintro ⟨hn | rfl, hname⟩
      · exact .inl ⟨hn, hname⟩
      · exact .inr rfl
  · refine List.pairwise_append.mpr ⟨h.order_append name, List.pairwise_singleton _ _, ?_⟩
    intro m hm n hn
    obtain rfl := List.mem_singleton.mp hn
    rw [List.idxOf_append_of_mem (h.mem_listed hm), List.idxOf_append_of_notMem hlisted]
    exact Nat.lt_add_right _ (List.idxOf_lt_length_of_mem (h.mem_listed hm))

/-- The next name is added, unless it is empty or there already. -/
theorem Added.addName (h : Added defaults listed added) (name : String) :
    ∃ added', Settings.addName (defaults ++ added) name = defaults ++ added' ∧
      Added defaults (listed ++ [name]) added' := by
  unfold Settings.addName
  by_cases hskip : name = "" ∨ name ∈ defaults ++ added
  · refine ⟨added, ?_, h.skip hskip⟩
    rw [if_pos (by simpa using hskip)]
  · obtain ⟨hempty, hnew⟩ := not_or.mp hskip
    refine ⟨added ++ [name], ?_, h.snoc hempty hnew⟩
    rw [if_neg (by simpa using hskip), List.append_assoc]

/-- Listing names one after the other. -/
theorem Added.foldl (names : List String) : ∀ {listed added : List String},
    Added defaults listed added →
      ∃ added', names.foldl Settings.addName (defaults ++ added) = defaults ++ added' ∧
        Added defaults (listed ++ names) added' := by
  induction names with
  | nil => exact fun h => ⟨_, rfl, by rwa [List.append_nil]⟩
  | cons name names ih =>
    intro listed added h
    obtain ⟨next, hnext, hadded⟩ := h.addName name
    obtain ⟨added', hfold, h'⟩ := ih hadded
    refine ⟨added', ?_, ?_⟩
    · rw [List.foldl_cons, hnext, hfold]
    · rwa [List.append_assoc, List.singleton_append] at h'

/-- A list that names are added to begins as it was. -/
theorem isPrefix_foldl_addName (listed : List String) : ∀ names : List String,
    names <+: listed.foldl Settings.addName names := by
  induction listed with
  | nil => exact fun _ => List.prefix_rfl
  | cons name listed ih =>
    intro names
    have hname : names <+: Settings.addName names name := by
      unfold Settings.addName
      split
      · exact List.prefix_rfl
      · exact List.prefix_append _ _
    exact hname.trans (ih _)

/-! ## Lists of names -/

/-- The names are the parts of a text between its separators, without the blanks around them. -/
def Lists (text : String) (names : List String) : Prop :=
  List.Forall₂ (fun part name => Text.Stripped part name.toList)
    (text.toList.splitOnP isSeparator) names

/-- The names that a text lists are added to the defaults. -/
theorem listNames_added (defaults : List String) (text : String) :
    ∃ listed added, Lists text listed ∧ listNames defaults text = defaults ++ added ∧
      Added defaults listed added := by
  let listed := (splitNames text.toList).map fun part => String.ofList (Text.trimmed part)
  have hnil : Added defaults [] [] := .nil
  obtain ⟨added, hfold, hadded⟩ := hnil.foldl listed
  rw [List.append_nil] at hfold
  refine ⟨listed, added, ?_, hfold, hadded⟩
  unfold Lists
  rw [← splitNames_eq_splitOnP, List.forall₂_map_right_iff, List.forall₂_same]
  intro part _
  rw [String.toList_ofList]
  exact Text.stripped_trimmed part

theorem listNames_empty (defaults : List String) : listNames defaults "" = defaults := rfl

/-- What stands after a separator adds to the names. -/
theorem listNames_append (defaults : List String) (text more : String) {separator : Char}
    (h : isSeparator separator = true) :
    listNames defaults text <+:
      listNames defaults (text ++ String.singleton separator ++ more) := by
  have htext : (text ++ String.singleton separator ++ more).toList =
      text.toList ++ separator :: more.toList := by simp
  have hsplit : splitNames (text.toList ++ separator :: more.toList) =
      splitNames text.toList ++ splitNames more.toList := by
    simp only [splitNames_eq_splitOnP]
    exact List.splitOnP_append_cons _ _ h
  unfold listNames
  dsimp only
  rw [htext, hsplit, List.map_append, List.foldl_append]
  exact isPrefix_foldl_addName _ _

/-! ## The denylist -/

/-- The text that lists names which scripts may not touch. -/
def forbiddenText (env : Environment) : String := (env.lookup "CLOJI_FORBIDDEN_PROPS").getD ""

/-- The longer text lists more after what the shorter one lists. -/
def Appends (shorter longer : String) : Prop :=
  shorter = "" ∨ ∃ separator more, isSeparator separator = true ∧
    longer = shorter ++ String.singleton separator ++ more

/-- The names from a variable are the defaults and then the names that its text lists between colons
and commas, without the blanks around them: those that are neither empty nor defaults, each once and
in the order in which they first come. So three names are always forbidden, and a variable that
lists more forbids more. -/
theorem names_spec (env : Environment) (name : String) (defaults : List String) :
    (∃ listed added, Lists ((env.lookup name).getD "") listed ∧
      namesFrom env name defaults = defaults ++ added ∧ added.Nodup ∧
      Added defaults listed added) ∧
    ["prototype", "constructor", "__proto__"] <+: denylist env ∧
    ∀ env' : Environment, Appends (forbiddenText env) (forbiddenText env') →
      denylist env <+: denylist env' := by
  refine ⟨?_, isPrefix_foldl_addName _ _, fun env' h => ?_⟩
  · obtain ⟨listed, added, hlisted, hnames, hadded⟩ :=
      listNames_added defaults ((env.lookup name).getD "")
    exact ⟨listed, added, hlisted, hnames, hadded.nodup, hadded⟩
  · show listNames _ (forbiddenText env) <+: listNames _ (forbiddenText env')
    rcases h with hempty | ⟨separator, more, hseparator, hlonger⟩
    · rw [hempty, listNames_empty]
      exact isPrefix_foldl_addName _ _
    · rw [hlonger]
      exact listNames_append _ _ _ hseparator

/-- More names after the first one, one of which comes again. -/
theorem names_spec_again :
    Appends (forbiddenText [("CLOJI_FORBIDDEN_PROPS", "secret")])
      (forbiddenText [("CLOJI_FORBIDDEN_PROPS", "secret:token, secret")]) ∧
    denylist [("CLOJI_FORBIDDEN_PROPS", "secret")] <+:
      denylist [("CLOJI_FORBIDDEN_PROPS", "secret:token, secret")] := by
  have happends : Appends (forbiddenText [("CLOJI_FORBIDDEN_PROPS", "secret")])
      (forbiddenText [("CLOJI_FORBIDDEN_PROPS", "secret:token, secret")]) :=
    .inr ⟨':', "token, secret", rfl, by decide⟩
  exact ⟨happends, (names_spec _ "" []).2.2 _ happends⟩

example : denylist [("CLOJI_FORBIDDEN_PROPS", " secret:token,, prototype,secret")] =
    ["prototype", "constructor", "__proto__", "secret", "token"] := by
  decide

end Settings

end Lisplet
