import Lisplet.Proofs.Errors.Traces
import Lisplet.Proofs.Store.Shown
import Mathlib.Data.List.Forall2

/-!
# Reports

A report on an error is its message with one entry for each frame. It is composed when the error
first ends a run with frames, and kept from then on. Only the error that the host raises again and
again can end several runs. It goes on collecting frames, but its report does not change.

A run is followed with an invariant of what it makes of that error (`Failure.LeadsTo`): it may add
frames, and it changes nothing else. Every action has it that is put together from candid ones
(`carrying`), and so has the machine (`machine_carries`).

Main statements: `Script.session_reports`, and `Script.session_outdated` for a session whose second
report lacks a frame.
-/

namespace Lisplet

open Lisplet.Action

/-! ## The shared error in a run -/

/-- The second error is what becomes of the first one when it leaves calls. -/
structure Failure.LeadsTo (e f : Failure) : Prop where
  fault : f.fault = e.fault
  report : f.report = e.report
  trace : e.trace <+: f.trace

namespace Failure.LeadsTo

variable {e f g : Failure}

theorem refl (e : Failure) : LeadsTo e e := ⟨rfl, rfl, List.prefix_rfl⟩

theorem trans (h : LeadsTo e f) (h' : LeadsTo f g) : LeadsTo e g :=
  ⟨h'.fault.trans h.fault, h'.report.trans h.report, h.trace.trans h'.trace⟩

theorem push (h : LeadsTo e f) (frame : Frame) : LeadsTo e (f.push frame) :=
  ⟨h.fault, h.report, h.trace.trans (List.prefix_append _ _)⟩

end Failure.LeadsTo

/-- The error is either the one that the host raises again and again, with more frames, or another
one that nobody has reported on. -/
def Failure.Unreported (shared e : Failure) : Prop :=
  if e.shared then shared.LeadsTo e else e.report = none

theorem Failure.Unreported.push {shared e : Failure} (h : Unreported shared e) (frame : Frame) :
    Unreported shared (e.push frame) := by
  unfold Unreported at *
  show if e.shared then _ else _
  split
  · next hshared =>
    rw [if_pos hshared] at h
    exact h.push frame
  · next hshared =>
    rw [if_neg hshared] at h
    exact h

theorem Failure.Unreported.of_leadsTo {shared shared' e : Failure} (h : Unreported shared' e)
    (hshared : shared.LeadsTo shared') : Unreported shared e := by
  unfold Unreported at *
  split
  · next he =>
    rw [if_pos he] at h
    exact hshared.trans h
  · next he => rwa [if_neg he] at h

/-- The error that the host raises again and again, `shared` before, may have more frames now, and
nobody has reported on an error. -/
def Outcome.Carries {α : Type} (shared : Failure) : Outcome α → Prop
  | .done _ t => shared.LeadsTo t.shared
  | .failed e t => shared.LeadsTo t.shared ∧ shared.Unreported e
  | .exhausted => True

theorem Outcome.Carries.of_leadsTo {α : Type} {shared shared' : Failure} {o : Outcome α}
    (h : o.Carries shared') (hshared : shared.LeadsTo shared') : o.Carries shared := by
  cases o with
  | done v t => exact hshared.trans h
  | failed e t => exact ⟨hshared.trans h.1, h.2.of_leadsTo hshared⟩
  | exhausted => trivial

namespace Action

variable {α β : Type}

/-- The action reports on no error. -/
def Carries (a : Action α) : Prop := ∀ s, (a s).Carries s.shared

namespace Carries

theorem of_candid {a : Action α} (ha : Candid a) : Carries a := by
  intro s
  have hs := ha s
  cases hrun : a s with
  | done v t =>
    rw [hrun] at hs
    rw [← show t.shared = s.shared from hs]
    exact .refl _
  | failed e t =>
    rw [hrun] at hs
    obtain ⟨ht, hraised, hown⟩ := hs
    refine ⟨ht ▸ .refl _, ?_⟩
    unfold Failure.Unreported
    split
    · next hshared =>
      rw [hown hshared]
      exact ⟨rfl, rfl, List.prefix_rfl⟩
    · next hshared =>
      cases hraised with
      | fresh fault => rfl
      | badStep what hframe => rfl
      | shared h => exact absurd h hshared
  | exhausted => trivial

theorem bind {a : Action α} {f : α → Action β} (ha : Carries a) (hf : ∀ v, Carries (f v)) :
    Carries (a >>= f) := by
  intro s
  have hs := ha s
  rw [bind_apply]
  cases hrun : a s with
  | done v t =>
    rw [hrun] at hs
    exact (hf v t).of_leadsTo hs
  | failed e t => rwa [hrun] at hs
  | exhausted => trivial

theorem framed {a : Action α} (ha : Carries a) (frame : Frame) : Carries (framed frame a) := by
  intro s
  have hs := ha s
  unfold Action.framed
  cases hrun : a s with
  | done v t => rwa [hrun] at hs
  | failed e t =>
    rw [hrun] at hs
    exact ⟨hs.1, hs.2.push frame⟩
  | exhausted => trivial

/-- An error that is handled keeps its frames. -/
theorem catching {a : Action α} (ha : Carries a) (caught : ErrorKind → Bool) (instead : α) :
    Carries (catching caught instead a) := by
  intro s
  have hs := ha s
  unfold Action.catching
  cases hrun : a s with
  | done v t => rwa [hrun] at hs
  | failed e t =>
    rw [hrun] at hs
    dsimp only
    split
    · show s.shared.LeadsTo (t.keep e).shared
      unfold Store.keep
      split
      · next hshared =>
        have he := hs.2
        rwa [Failure.Unreported, if_pos hshared] at he
      · exact hs.1
    · exact hs
  | exhausted => trivial

end Carries

end Action

/-- Carrying errors along, as a property of the first of two actions. -/
def carrying : Congruence where
  rel a _ := Carries a
  candid := Carries.of_candid
  bind := Carries.bind

theorem SequenceMethod.indexOfElement_carries {m : Machine} (h : m.Related carrying m)
    (v value : Value) : Carries (indexOfElement m v value) :=
  Carries.catching (positionOf_related h v value) _ _

/-- Whatever is evaluated, nobody reports on an error on the way. -/
theorem machine_carries (fuel : Nat) : (machine fuel).Related carrying (machine fuel) := by
  induction fuel with
  | zero =>
    have hnone : ∀ {α : Type}, Carries (exhausted : Action α) :=
      fun {α} => .of_candid Action.Reads.exhausted.candid
    exact ⟨fun hstep => Cursor.fold_related hstep 0, fun _ _ => hnone, fun _ _ _ => hnone,
      fun _ _ => hnone, fun _ _ _ _ => hnone⟩
  | succ fuel ih =>
    refine ⟨fun hstep => Cursor.fold_related hstep (fuel + 1), Machine.evalStep_related ih,
      Machine.invokeStep_related ih,
      Machine.callStep_related_of_search (Host.offered_respects _) ih
        (SequenceMethod.indexOfElement_carries ih),
      fun scope head operands line => ?_⟩
    exact Carries.framed (Machine.application_related ih scope head operands) _

/-! ## What a report says -/

/-- The text is the message that the error was raised with and one entry for each frame of its
trace, in order. -/
def Failure.Says (s : Store) (f : Failure) (text : String) : Prop :=
  ∃ message lines, s.messageOf { f with report := none } = .ok message ∧
    List.Forall₂ (fun frame line => s.frameText frame = .ok line) f.trace lines ∧
    text = if lines = [] then message
      else message ++ " " ++ String.join (lines.map ("\n at " ++ ·)) ++ " \n\n -----"

theorem mapM_eq_ok {α β : Type} {f : α → Except Fault β} {xs : List α} {ys : List β} :
    xs.mapM f = .ok ys ↔ List.Forall₂ (fun x y => f x = .ok y) xs ys := by
  induction xs generalizing ys with
  | nil =>
    rw [List.mapM_nil, List.forall₂_nil_left_iff]
    exact ⟨fun h => (Except.ok.inj h).symm, fun h => h ▸ rfl⟩
  | cons x xs ih =>
    rw [List.mapM_cons, List.forall₂_cons_left_iff]
    cases hx : f x with
    | error fault => exact ⟨fun h => (by cases h), fun ⟨y, _, h, _⟩ => (by cases h)⟩
    | ok y =>
      cases hxs : xs.mapM f with
      | error fault =>
        refine ⟨fun h => (by cases h), fun ⟨_, zs, _, hzs, _⟩ => ?_⟩
        cases hxs.symm.trans (ih.mpr hzs)
      | ok zs =>
        constructor
        · intro h
          exact ⟨y, zs, rfl, ih.mp hxs, (Except.ok.inj h).symm⟩
        · rintro ⟨_, zs', hy, hzs, rfl⟩
          obtain rfl := Except.ok.inj hy
          obtain rfl := Except.ok.inj (hxs.symm.trans (ih.mpr hzs))
          rfl

theorem join_entries (line : String) (lines : List String) :
    String.join ((line :: lines).map ("\n at " ++ ·)) =
      "\n at " ++ "\n at ".intercalate (line :: lines) := by
  induction lines generalizing line with
  | nil => simp [String.join_cons]
  | cons next lines ih =>
    rw [List.map_cons, String.join_cons, ih, String.intercalate_cons_cons, String.append_assoc,
      String.append_assoc]

namespace Failure

variable {s t : Store} {e f : Failure} {report text : String}

/-- A report that is composed says what the error is. -/
theorem says_iff : f.Says s text ↔ ({ f with report := none } : Failure).format s = .ok text := by
  have hformat : ({ f with report := none } : Failure).format s =
      s.messageOf { f with report := none } >>= fun message =>
        f.trace.mapM s.frameText >>= fun lines =>
          pure (if lines.isEmpty then message
            else message ++ " \n at " ++ "\n at ".intercalate lines ++ " \n\n -----") := by
    unfold format Store.traceText
    refine congrArg _ (funext fun message => congrArg _ (funext fun lines => ?_))
    split <;> rfl
  have htext : ∀ (message : String) (lines : List String),
      (if lines = [] then message
        else message ++ " " ++ String.join (lines.map ("\n at " ++ ·)) ++ " \n\n -----") =
      if lines.isEmpty then message
        else message ++ " \n at " ++ "\n at ".intercalate lines ++ " \n\n -----" := by
    intro message lines
    cases lines with
    | nil => rfl
    | cons line lines =>
      have hfirst : " \n at " = " " ++ "\n at " := rfl
      rw [if_neg (List.cons_ne_nil _ _), if_neg (by simp), join_entries, hfirst]
      simp only [String.append_assoc]
  rw [hformat]
  unfold Says
  cases s.messageOf { f with report := none } with
  | error fault => exact ⟨fun ⟨_, _, h, _⟩ => (by cases h), fun h => (by cases h)⟩
  | ok message =>
    cases hlines : f.trace.mapM s.frameText with
    | error fault =>
      refine ⟨fun ⟨_, lines, _, h, _⟩ => ?_, fun h => (by cases h)⟩
      cases hlines.symm.trans (mapM_eq_ok.mpr h)
    | ok lines =>
      constructor
      · rintro ⟨_, lines', hmessage, hlines', rfl⟩
        obtain rfl := Except.ok.inj hmessage
        obtain rfl := Except.ok.inj (hlines.symm.trans (mapM_eq_ok.mpr hlines'))
        exact congrArg Except.ok (htext _ _).symm
      · intro h
        exact ⟨message, lines, rfl, mapM_eq_ok.mp hlines,
          (Except.ok.inj h).symm.trans (htext message lines).symm⟩

end Failure

/-! ## Texts and the shared error -/

namespace Store

/-- The text of a value does not depend on what has become of the shared error. -/
theorem textsIn_shared (s : Store) (e : Failure) (fuel : Nat) :
    shownIn { s with shared := e } fuel = s.shownIn fuel ∧
      nodeShownIn { s with shared := e } fuel = s.nodeShownIn fuel ∧
      plainIn { s with shared := e } fuel = s.plainIn fuel := by
  induction fuel with
  | zero =>
    refine ⟨?_, ?_, ?_⟩ <;> funext path v
    · rw [shownIn, shownIn]
    · rw [nodeShownIn, nodeShownIn]
    · rw [plainIn, plainIn]
  | succ fuel ih =>
    obtain ⟨hshown, hnode, hplain⟩ := ih
    refine ⟨?_, ?_, ?_⟩ <;> funext path v
    · unfold shownIn
      rw [hshown, hnode, hplain]
      rfl
    · unfold nodeShownIn
      rw [hshown, hnode, hplain]
    · unfold plainIn
      rw [hshown, hplain]
      rfl

theorem plain_shared (s : Store) (e : Failure) : plain { s with shared := e } = s.plain := by
  unfold plain
  rw [(s.textsIn_shared e _).2.2]

theorem format_keep (s : Store) (e f : Failure) : f.format (s.keep e) = f.format s := by
  unfold keep
  split
  · unfold Failure.format messageOf traceText frameText
    rw [plain_shared]
  · rfl

end Store

theorem Failure.attach_keep (s : Store) (e f : Failure) : f.attach (s.keep e) = f.attach s := by
  unfold attach
  rw [s.format_keep e f]

theorem Failure.says_keep {s : Store} {e f : Failure} {text : String} :
    f.Says (s.keep e) text ↔ f.Says s text := by
  rw [says_iff, says_iff, s.format_keep]

/-! ## Reporting -/

/-- The error that something ended with, and the report on it. -/
def Ending.error? {α : Type} : Ending α → Option (String × Failure)
  | .raised report f | .recorded report f => some (report, f)
  | _ => none

/-- The report can be read again, and always if the error has frames. -/
def Failure.Reads (t : Store) (f : Failure) (report : String) : Prop :=
  f.attach t = .ok (report, f) ∧ ∀ u, f.trace ≠ [] → f.attach u = .ok (report, f)

/-- What has been reported at the end, in the store `t`, if the error that the host raises again and
again was `shared` before. -/
inductive Reporting (shared : Failure) (t : Store) : Option (String × Failure) → Prop
  | silent (ht : shared.LeadsTo t.shared) : Reporting shared t none
  /-- Nobody has reported on the error before. -/
  | first {report : String} {f : Failure} (hentries : f.Says t report) (hreads : f.Reads t report)
    (hreport : ∀ text, f.report = some text → text = report)
    (ht : if f.shared then t.shared = f else shared.LeadsTo t.shared) :
    Reporting shared t (some (report, f))
  /-- The error has its report from before. -/
  | again {report : String} {f : Failure} (hshared : f.shared = true) (hf : shared.LeadsTo f)
    (hreport : f.report = some report) (ht : t.shared = f) :
    Reporting shared t (some (report, f))

namespace Failure

variable {s t : Store} {e f : Failure} {report : String}

theorem attach_of_report (s : Store) (h : f.report = some report) :
    f.attach s = .ok (report, f) := by
  unfold attach
  rw [h]

/-- A report that has been composed is kept if there are frames. -/
theorem attach_first (hnone : e.report = none) (h : e.attach s = .ok (report, f)) :
    f.Says s report ∧ f.Reads s report ∧ f.shared = e.shared ∧
      ∀ text, f.report = some text → text = report := by
  have hformat : e.format s = .ok report ∧
      (if e.trace.isEmpty then e else { e with report := some report }) = f := by
    unfold attach at h
    rw [hnone] at h
    cases hformat : e.format s with
    | error fault =>
      rw [hformat] at h
      cases h
    | ok text =>
      rw [hformat] at h
      obtain ⟨rfl, rfl⟩ := Prod.mk.inj (Except.ok.inj h)
      exact ⟨rfl, rfl⟩
  obtain ⟨hformat, rfl⟩ := hformat
  have hbare : ({ e with report := none } : Failure) = e := hnone ▸ rfl
  split
  · next hempty =>
    refine ⟨?_, ⟨h.trans ?_, fun u hne => ?_⟩, rfl, fun text htext => ?_⟩
    · rw [says_iff, hbare]
      exact hformat
    · rw [if_pos hempty]
    · exact absurd (List.isEmpty_iff.mp hempty) hne
    · cases hnone.symm.trans htext
  · refine ⟨?_, ⟨attach_of_report s rfl, fun u _ => attach_of_report u rfl⟩, rfl,
      fun text htext => ?_⟩
    · rw [says_iff]
      show ({ e with report := none } : Failure).format s = _
      rw [hbare]
      exact hformat
    · exact (Option.some.inj htext).symm

/-- A new error with a wording of its own is reported by it. -/
theorem format_fresh {fault : Fault} (h : fault.arguments = [.str fault.text]) (s : Store) :
    (fresh fault).format s = .ok fault.text := by
  have harguments : (fresh fault).arguments = [.str fault.text] := h
  have hmessage : s.messageOf (fresh fault) = .ok fault.text := by
    unfold Store.messageOf
    rw [harguments]
    rfl
  unfold format
  rw [hmessage]
  rfl

/-- A report that cannot be composed fails with an error that has a wording of its own. -/
theorem attach_errors (s : Store) (e : Failure) : ErrorsAmong Store.textErrors (e.attach s) := by
  have hmessage : ErrorsAmong Store.textErrors (s.messageOf e) := by
    unfold Store.messageOf
    split
    · exact .ok _
    · exact s.plain_errors _
  have hframe : ∀ frame, ErrorsAmong Store.textErrors (s.frameText frame) := fun frame =>
    (s.plain_errors frame.line).bind fun _ => .ok _
  have hformat : ErrorsAmong Store.textErrors (e.format s) := by
    refine hmessage.bind fun message => (ErrorsAmong.mapM hframe).bind fun lines => ?_
    split <;> exact .ok _
  unfold attach
  split
  · exact .ok _
  · exact hformat.bind fun text => .ok _

end Failure

theorem Reporting.of_leadsTo {shared shared' : Failure} {t : Store}
    {report? : Option (String × Failure)} (h : Reporting shared' t report?)
    (hshared : shared.LeadsTo shared') : Reporting shared t report? := by
  cases h with
  | silent ht => exact .silent (hshared.trans ht)
  | first hentries hreads hreport ht =>
    refine .first hentries hreads hreport ?_
    split
    · next h => rwa [if_pos h] at ht
    · next h =>
      rw [if_neg h] at ht
      exact hshared.trans ht
  | again hf hfrom hreport ht => exact .again hf (hshared.trans hfrom) hreport ht

/-- What becomes of the shared error when an error is remembered. -/
theorem Store.keep_shared {s : Store} {shared e : Failure} (hs : shared.LeadsTo s.shared)
    (he : shared.Unreported e) : shared.LeadsTo (s.keep e).shared := by
  unfold keep
  split
  · next hshared => rwa [Failure.Unreported, if_pos hshared] at he
  · exact hs

theorem Store.settle_reporting {α : Type} {shared e : Failure} {u : Store}
    (hu : shared.LeadsTo u.shared) (he : shared.Unreported e) (throwing : Bool) :
    Reporting shared (u.settle throwing e : Ending α × Store).2
      (u.settle throwing e : Ending α × Store).1.error? := by
  unfold settle
  cases hattach : e.attach u with
  | error fault =>
    obtain ⟨-, hown⟩ := e.attach_errors u fault hattach
    have hformat : ∀ s, (Failure.fresh fault).format s = .ok fault.text :=
      Failure.format_fresh hown
    refine .first ?_ ⟨?_, fun _ hne => absurd rfl hne⟩ (fun text htext => by cases htext) ?_
    · exact Failure.says_iff.mpr (hformat _)
    · show ((Failure.fresh fault).format _ >>= fun text => .ok (text, Failure.fresh fault)) = _
      rw [hformat]
      rfl
    · exact u.keep_shared hu he
  | ok attached =>
    obtain ⟨report, f⟩ := attached
    have hreporting : Reporting shared (u.keep f) (some (report, f)) := by
      cases hreport : e.report with
      | none =>
        obtain ⟨hentries, ⟨hread, hreads⟩, hshared, htext⟩ := Failure.attach_first hreport hattach
        have hkept : f.attach (u.keep f) = .ok (report, f) := (f.attach_keep u f).trans hread
        refine .first (Failure.says_keep.mpr hentries) ⟨hkept, hreads⟩ htext ?_
        unfold keep
        split
        · rfl
        · exact hu
      | some text =>
        obtain ⟨rfl, rfl⟩ :=
          Prod.mk.inj (Except.ok.inj ((Failure.attach_of_report u hreport).symm.trans hattach))
        have hshared : e.shared = true := by
          by_contra hnot
          rw [Failure.Unreported, if_neg hnot] at he
          cases he.symm.trans hreport
        rw [Failure.Unreported, if_pos hshared] at he
        refine .again hshared he hreport ?_
        rw [keep, if_pos hshared]
    dsimp only
    split <;> exact hreporting

theorem Action.Carries.attempt {α : Type} {a : Action α} (ha : Carries a) (throwing : Bool)
    (s : Store) :
    Reporting s.shared (s.attempt throwing a).2 (s.attempt throwing a).1.error? := by
  have hs := ha s
  unfold Store.attempt
  cases hrun : a s with
  | done v t =>
    rw [hrun] at hs
    exact .silent hs
  | failed e u =>
    rw [hrun] at hs
    exact Store.settle_reporting hs.1 hs.2 throwing
  | exhausted => exact .silent (.refl _)

namespace Script

variable {script : Script} {source : String} {s t : Store}

theorem read_candid (source : String) : Candid (read source) := by
  intro s
  unfold read
  split
  · rfl
  · exact ⟨rfl, .fresh _, fun h => by cases h⟩

/-- A run that ends with an error reports on it for the first time, or the error has its report from
before. -/
theorem exec_reporting (script : Script) (source : String) (s : Store) :
    Reporting s.shared (script.exec source s).2 (script.exec source s).1.error? := by
  have hread := (Carries.of_candid (read_candid source)).attempt true s
  unfold exec execIn
  split
  · next p t heq =>
    rw [heq] at hread
    have hshared : s.shared.LeadsTo t.shared := by
      cases hread with
      | silent ht => exact ht
    have hevaluate : Carries (script.evaluate p) :=
      Machine.block_related (machine_carries defaultFuel) _ _
    exact (hevaluate.attempt script.throwing t).of_leadsTo hshared
  all_goals
    next heq =>
    rw [heq] at hread
    exact hread

/-! ## Sessions -/

/-- Runs sources one after the other and gives the ending of each with the store after it. -/
def session (script : Script) : List String → Store → List (Ending Value × Store)
  | [], _ => []
  | source :: rest, s =>
    script.exec source s :: script.session rest (script.exec source s).2

/-- The shared error, before it got these frames, ended a run in the past, which reported on it with
this text. -/
def Reported (past : List (Ending Value × Store)) (text : String) (f : Failure) : Prop :=
  ∃ ending t e, (ending, t) ∈ past ∧ ending.error? = some (text, e) ∧ e.shared = true ∧
    e.LeadsTo f ∧ e.Says t text

theorem Reported.of_leadsTo {past : List (Ending Value × Store)} {text : String} {e f : Failure}
    (h : Reported past text e) (hf : e.LeadsTo f) : Reported past text f := by
  obtain ⟨ending, t, e', hmem, herror, hshared, he, hentries⟩ := h
  exact ⟨ending, t, e', hmem, herror, hshared, he.trans hf, hentries⟩

/-- Whatever report the shared error has comes from a run in the past. -/
def Remembers (past : List (Ending Value × Store)) (s : Store) : Prop :=
  ∀ text, s.shared.report = some text → Reported past text s.shared

theorem Remembers.of_leadsTo {past : List (Ending Value × Store)} (h : Remembers past s)
    (ht : s.shared.LeadsTo t.shared) : Remembers past t :=
  fun text htext => (h text (ht.report.symm.trans htext)).of_leadsTo ht

theorem Remembers.snoc {past : List (Ending Value × Store)} (h : Remembers past s)
    (last : Ending Value × Store) : Remembers (past ++ [last]) s := by
  intro text htext
  obtain ⟨ending, t, e, hmem, herror⟩ := h text htext
  exact ⟨ending, t, e, List.mem_append_left _ hmem, herror⟩

/-- One run more. -/
theorem Remembers.exec {past : List (Ending Value × Store)} (h : Remembers past s)
    (script : Script) (source : String) :
    Remembers (past ++ [script.exec source s]) (script.exec source s).2 := by
  have hreporting := script.exec_reporting source s
  generalize hlast : script.exec source s = last at hreporting ⊢
  obtain ⟨ending, t⟩ := last
  dsimp only at hreporting ⊢
  cases herror : ending.error? with
  | none =>
    rw [herror] at hreporting
    cases hreporting with
    | silent ht => exact (h.of_leadsTo ht).snoc _
  | some error =>
    rw [herror] at hreporting
    cases hreporting with
    | @first report f hentries hreads hreport ht =>
      by_cases hshared : f.shared = true
      · rw [if_pos hshared] at ht
        intro text htext
        rw [ht] at htext ⊢
        obtain rfl := hreport text htext
        exact ⟨ending, t, f, by simp, herror, hshared, .refl f, hentries⟩
      · rw [if_neg hshared] at ht
        exact (h.of_leadsTo ht).snoc _
    | @again report f hshared hf hreport ht =>
      rw [← ht] at hf
      exact (h.of_leadsTo hf).snoc _

/-- What a report says, after these runs. -/
theorem Remembers.report {past : List (Ending Value × Store)} (h : Remembers past s)
    {report : String} {f : Failure} (hreporting : Reporting s.shared t (some (report, f))) :
    f.Reads t report ∧ (f.Says t report ∨ f.shared = true ∧ Reported past report f) := by
  cases hreporting with
  | first hentries hreads hreport ht => exact ⟨hreads, .inl hentries⟩
  | again hshared hf hreport ht =>
    refine ⟨⟨f.attach_of_report t hreport, fun u _ => f.attach_of_report u hreport⟩,
      .inr ⟨hshared, ?_⟩⟩
    exact (h report (hf.report.symm.trans hreport)).of_leadsTo hf

theorem session_remembers {past before after : List (Ending Value × Store)} {sources : List String}
    (hs : Remembers past s) {ending : Ending Value}
    (h : script.session sources s = before ++ (ending, t) :: after) {report : String} {f : Failure}
    (herror : ending.error? = some (report, f)) :
    f.Reads t report ∧
      (f.Says t report ∨ f.shared = true ∧ Reported (past ++ before) report f) := by
  induction sources generalizing past before s with
  | nil => cases before <;> cases h
  | cons source rest ih =>
    unfold session at h
    cases before with
    | nil =>
      have hreporting := script.exec_reporting source s
      rw [(List.cons.inj h).1, herror] at hreporting
      rw [List.append_nil]
      exact hs.report hreporting
    | cons last before =>
      obtain ⟨rfl, hrest⟩ := List.cons.inj h
      have hnext := ih (hs.exec script source) hrest
      rwa [List.append_assoc] at hnext

/-- Reports in a session of runs on one script, in either mode. An error that ends a run is reported
with the message that it was raised with and one entry for each frame of its trace, in order, and
its report can be read again. The one exception is the error that the host raises again and again.
If it has ended an earlier run of the session, it keeps the report from then, which has an entry for
each frame that it had then. -/
theorem session_reports {script : Script} {sources : List String} {s t : Store}
    (hs : s.shared.report = none) {before after : List (Ending Value × Store)}
    {ending : Ending Value} (h : script.session sources s = before ++ (ending, t) :: after)
    {report : String} {f : Failure} (herror : ending.error? = some (report, f)) :
    f.Reads t report ∧ (f.Says t report ∨ f.shared = true ∧ Reported before report f) := by
  have hstart : Remembers [] s := fun text htext => by cases hs.symm.trans htext
  exact session_remembers hstart h herror

/-- A script that can call the function that raises the same error again and again. -/
def sharingScript : Script := ⟨⟨1⟩, true⟩

/-- The store with that script, in which nothing has been run. -/
def sharingStore : Store :=
  ((Store.initial Settings.alwaysForbidden).addScope
    [("fail-shared", .function HostFunction.failShared.ref)] (.scope coreScope)).2

/-- Two runs that end with the same error. -/
def sharingSession : List (Ending Value × Store) :=
  sharingScript.session ["(fail-shared)", "(fail-shared)"] sharingStore

/-- What is reported in the two runs, and what would be reported if it were composed anew. -/
theorem sharingSession_reports :
    sharingSession.map (fun run => run.1.error?.map fun error =>
      (error.1, (({ error.2 with report := none } : Failure).format run.2).toOption)) =
    [some ("host: shared \n at fail-shared (1) \n\n -----",
        some "host: shared \n at fail-shared (1) \n\n -----"),
      some ("host: shared \n at fail-shared (1) \n\n -----",
        some "host: shared \n at fail-shared (1)\n at fail-shared (1) \n\n -----")] := by
  decide +kernel

theorem session_reports_sharing :
    sharingStore.shared.report = none ∧
    ∃ first ending t report f,
      sharingScript.session ["(fail-shared)", "(fail-shared)"] sharingStore =
        [first] ++ (ending, t) :: [] ∧ ending.error? = some (report, f) ∧ f.Reads t report ∧
      (f.Says t report ∨ f.shared = true ∧ Reported [first] report f) := by
  obtain ⟨first, runs, hruns, -, hrest⟩ := List.map_eq_cons_iff.mp sharingSession_reports
  obtain ⟨⟨ending, t⟩, others, rfl, hlast, hothers⟩ := List.map_eq_cons_iff.mp hrest
  obtain rfl := List.map_eq_nil_iff.mp hothers
  obtain ⟨⟨report, f⟩, herror, -⟩ := Option.map_eq_some_iff.mp hlast
  have hsession : sharingScript.session ["(fail-shared)", "(fail-shared)"] sharingStore =
      [first] ++ (ending, t) :: [] := hruns
  obtain ⟨hreads, hentries⟩ := session_reports rfl hsession herror
  exact ⟨rfl, first, ending, t, report, f, hsession, herror, hreads, hentries⟩

/-- The second report lacks a frame. -/
theorem session_outdated :
    ∃ ending t report f, (ending, t) ∈ sharingSession ∧ ending.error? = some (report, f) ∧
      ¬ f.Says t report := by
  obtain ⟨first, runs, hruns, -, hrest⟩ := List.map_eq_cons_iff.mp sharingSession_reports
  obtain ⟨⟨ending, t⟩, others, rfl, hlast, -⟩ := List.map_eq_cons_iff.mp hrest
  obtain ⟨⟨report, f⟩, herror, htexts⟩ := Option.map_eq_some_iff.mp hlast
  obtain ⟨rfl, hformat⟩ := Prod.mk.inj htexts
  refine ⟨ending, t, _, f, by simp [hruns], herror, fun hentries => ?_⟩
  rw [Failure.says_iff] at hentries
  dsimp only at hformat
  rw [hentries] at hformat
  exact absurd (Option.some.inj hformat) (by decide)

end Script

end Lisplet
