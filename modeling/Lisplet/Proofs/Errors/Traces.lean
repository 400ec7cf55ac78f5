import Lisplet.Proofs.Evaluation.Hosts
import Lisplet.Script
import Lisplet.Settings

/-!
# Traces

An error that leaves a call takes a frame for the call along. A run is observed by a machine that
knows which calls are under way and stops where an error that satisfies a test leaves an evaluation,
an invocation or a call. What the observed machine finds is compared with what the run does by
itself: an error is the one that the run ends with, and its trace is made up of the frames of all
calls that were under way. The only thing that handles an error on its way is the search for a value
in a sequence, which takes an error about a value to say that there is no such place.
-/

namespace Lisplet

open Lisplet.Action

/-! ## What is under way -/

/-- Something that is under way. -/
inductive Activity where
  /-- A call that is being evaluated, with its items and its line. -/
  | call (items : List Value) (line : Value)
  /-- The search for a value in a sequence. -/
  | search

/-- The frame that an error takes along from an activity that it leaves. -/
def Activity.frame? : Activity → Option Frame
  | .call items line => some ⟨firstIdent items, line⟩
  | .search => none

/-- The frames of all calls that are under way, innermost first. -/
def framesOf (under : List Activity) : List Frame := under.filterMap Activity.frame?

namespace Failure

/-- The error after it has left all that was under way. -/
def leaving (e : Failure) (under : List Activity) : Failure :=
  { e with trace := e.trace ++ framesOf under }

/-- Nothing that is under way handles the error. -/
def Unhandled (e : Failure) (under : List Activity) : Prop :=
  e.kind.isValue = true → Activity.search ∉ under

variable {e : Failure} {inner under : List Activity}

theorem leaving_nil (e : Failure) : e.leaving [] = e := by
  show { e with trace := e.trace ++ [] } = e
  rw [List.append_nil]

theorem leaving_call (e : Failure) (inner : List Activity) (items : List Value) (line : Value) :
    e.leaving (inner ++ [.call items line]) = (e.leaving inner).push ⟨firstIdent items, line⟩ := by
  unfold leaving push framesOf
  rw [List.filterMap_append, List.append_assoc]
  rfl

theorem leaving_search (e : Failure) (inner : List Activity) :
    e.leaving (inner ++ [.search]) = e.leaving inner := by
  unfold leaving framesOf
  rw [List.filterMap_append]
  show { e with trace := e.trace ++ (_ ++ []) } = _
  rw [List.append_nil]

theorem Unhandled.of_append {outer : List Activity} (h : e.Unhandled (inner ++ outer)) :
    e.Unhandled inner :=
  fun hvalue hmem => h hvalue (List.mem_append_left _ hmem)

theorem Unhandled.of_search (h : e.Unhandled (inner ++ [.search])) : e.kind.isValue = false := by
  rw [Bool.eq_false_iff]
  exact fun hvalue => h hvalue (List.mem_append_right _ (List.mem_singleton_self _))

/-- The error that stops an observed run, after it has left some calls. -/
def stopped (trace : List Frame) : Failure := ⟨.plain .language "stopped", trace, some "", false⟩

end Failure

/-! ## Observing -/

/-- What an observed run looks out for: errors, and what is under way when they leave something. -/
abbrev Lookout := List Activity → Failure → Bool

namespace Action

variable {α : Type}

/-- Stops where an error that is looked out for leaves an action. -/
def observed (test : Lookout) (under : List Activity) (a : Action α) : Action α := fun s =>
  match a s with
  | .failed e t => .failed (if test under e then .stopped [] else e) t
  | outcome => outcome

end Action

/-- A call of the value is a search for a value in a sequence. -/
def Store.searches (s : Store) (f : Value) : Bool :=
  (f.functionRef?.bind s.function?).any (·.code.isSearch)

/-- What is under way while a value is called. -/
def Store.calling (s : Store) (f : Value) (under : List Activity) : List Activity :=
  if s.searches f then .search :: under else under

/-- The machine that has so many steps left while something is under way, and that stops where an
error that is looked out for leaves one of them. An error has left a call only after its frame has
been added, so that the call is still under way before. -/
def observedMachine (host : Host) (test : Lookout) : (fuel : Nat) → (under : List Activity) → Machine
  | 0, _ =>
    ⟨0, fun _ _ => .exhausted, fun _ _ _ => .exhausted, fun _ _ => .exhausted,
      fun _ _ _ _ => .exhausted⟩
  | fuel + 1, under =>
    { fuel := fuel + 1
      eval := fun scope operand =>
        observed test under ((observedMachine host test fuel under).evalStep scope operand)
      invoke := fun scope f operands =>
        observed test under ((observedMachine host test fuel under).invokeStep scope f operands)
      call := fun f args => observed test under fun s =>
        (observedMachine host test fuel (s.calling f under)).callStep host f args s
      apply := fun scope head operands line =>
        let inside := .call (head :: operands) line :: under
        framed ⟨firstIdent (head :: operands), line⟩ <| observed test inside
          ((observedMachine host test fuel inside).application scope head operands) }

/-! ## Following an error -/

variable {test : Lookout} {under : List Activity}

/-- The error was raised inside something that it has left since, and was not looked out for. -/
def Failure.Passed (test : Lookout) (under : List Activity) (e : Failure) : Prop :=
  ∃ inner origin, origin.Raised ∧ test (inner ++ under) origin = false ∧ e = origin.leaving inner

/-- The error was raised just now, or inside something that it has left since. -/
def Failure.Known (test : Lookout) (under : List Activity) (e : Failure) : Prop :=
  e.Raised ∨ e.Passed test under

namespace Outcome

variable {α : Type}

/-- The first run stopped at an error that the second run ends with, if nothing handles it. -/
def Stops (test : Lookout) (under : List Activity) (first second : Outcome α) : Prop :=
  ∃ trace t, first = .failed (.stopped trace) t ∧
    ∃ inner e, test (inner ++ under) e = true ∧
      (e.Unhandled inner → ∃ u, second = .failed (e.leaving inner) u)

/-- The first run goes like the second one and no error of another origin occurs, or it stopped. -/
def Tracks (P : Failure → Prop) (test : Lookout) (under : List Activity)
    (first second : Outcome α) : Prop :=
  (first = second ∧ ∀ e t, second = .failed e t → P e) ∨ Stops test under first second

namespace Tracks

variable {β : Type} {P Q : Failure → Prop} {first second : Outcome α}

theorem mono (h : Tracks P test under first second) (hPQ : ∀ e, P e → Q e) :
    Tracks Q test under first second :=
  h.imp_left fun ⟨heq, hP⟩ => ⟨heq, fun e t he => hPQ e (hP e t he)⟩

theorem of_done (v : α) (t : Store) : Tracks P test under (.done v t) (.done v t) := by
  refine .inl ⟨rfl, fun e t' he => ?_⟩
  cases he

theorem of_exhausted : Tracks P test under (.exhausted : Outcome α) .exhausted := by
  refine .inl ⟨rfl, fun e t he => ?_⟩
  cases he

theorem of_failed {e : Failure} (he : P e) (t : Store) :
    Tracks P test under (.failed e t : Outcome α) (.failed e t) := by
  refine .inl ⟨rfl, fun e' t' heq => ?_⟩
  cases heq
  exact he

theorem bind {a b : Action α} {f g : α → Action β} {s : Store}
    (h : Tracks P test under (a s) (b s)) (hfg : ∀ v t, Tracks P test under (f v t) (g v t)) :
    Tracks P test under ((a >>= f) s) ((b >>= g) s) := by
  rcases h with ⟨heq, hP⟩ | ⟨trace, t, hstop, inner, e, htest, hfail⟩
  · rw [bind_apply, bind_apply, heq]
    cases hb : b s with
    | done v t => exact hfg v t
    | failed e t => exact of_failed (hP e t hb) t
    | exhausted => exact of_exhausted
  · refine .inr ⟨trace, t, Action.bind_of_failed hstop, inner, e, htest, fun hunhandled => ?_⟩
    obtain ⟨u, hu⟩ := hfail hunhandled
    exact ⟨u, Action.bind_of_failed hu⟩

/-- What is observed does not let an error pass that is looked out for. -/
theorem observed {a b : Action α} {s : Store}
    (h : Tracks (Failure.Known test under) test under (a s) (b s)) :
    Tracks (Failure.Passed test under) test under (observed test under a s) (b s) := by
  unfold Action.observed
  rcases h with ⟨heq, hP⟩ | ⟨trace, t, hstop, hevent⟩
  · rw [heq]
    cases hb : b s with
    | done v t => exact of_done v t
    | exhausted => exact of_exhausted
    | failed e t =>
      dsimp only
      split
      · next htest =>
        refine .inr ⟨[], t, rfl, [], e, htest, fun _ => ⟨t, ?_⟩⟩
        rw [Failure.leaving_nil]
      · next htest =>
        refine of_failed ?_ t
        rcases hP e t hb with hraised | hpassed
        · exact ⟨[], e, hraised, Bool.eq_false_iff.mpr htest, e.leaving_nil.symm⟩
        · exact hpassed
  · rw [hstop]
    dsimp only
    split
    · exact .inr ⟨[], t, rfl, hevent⟩
    · exact .inr ⟨trace, t, rfl, hevent⟩

/-- An error that leaves a call takes its frame along. -/
theorem framed {a b : Action α} {s : Store} {items : List Value} {line : Value}
    (h : Tracks (Failure.Passed test (.call items line :: under)) test (.call items line :: under)
      (a s) (b s)) :
    Tracks (Failure.Passed test under) test under (framed ⟨firstIdent items, line⟩ a s)
      (framed ⟨firstIdent items, line⟩ b s) := by
  have hinner : ∀ inner e, test (inner ++ .call items line :: under) e =
      test ((inner ++ [.call items line]) ++ under) e := by
    intro inner e
    rw [List.append_assoc]
    rfl
  unfold Action.framed
  rcases h with ⟨heq, hP⟩ | ⟨trace, t, hstop, inner, e, htest, hfail⟩
  · rw [heq]
    cases hb : b s with
    | done v t => exact of_done v t
    | exhausted => exact of_exhausted
    | failed e t =>
      obtain ⟨inner, origin, hraised, htest, rfl⟩ := hP e t hb
      refine of_failed ⟨inner ++ [.call items line], origin, hraised, ?_, ?_⟩ t
      · rw [← hinner]
        exact htest
      · exact (origin.leaving_call inner items line).symm
  · rw [hstop]
    refine .inr ⟨trace ++ [⟨firstIdent items, line⟩], t, rfl, inner ++ [.call items line], e, ?_,
      fun hunhandled => ?_⟩
    · rw [← hinner]
      exact htest
    · obtain ⟨u, hu⟩ := hfail hunhandled.of_append
      rw [hu]
      exact ⟨u, by rw [e.leaving_call]⟩

/-- An error that the search handles is gone, and any other error leaves it as it is. -/
theorem catching {a b : Action α} {s : Store} {instead : α}
    (h : Tracks (Failure.Known test (.search :: under)) test (.search :: under) (a s) (b s)) :
    Tracks (Failure.Known test under) test under (catching ErrorKind.isValue instead a s)
      (catching ErrorKind.isValue instead b s) := by
  have hinner : ∀ inner e, test (inner ++ .search :: under) e =
      test ((inner ++ [.search]) ++ under) e := by
    intro inner e
    rw [List.append_assoc]
    rfl
  unfold Action.catching
  rcases h with ⟨heq, hP⟩ | ⟨trace, t, hstop, inner, e, htest, hfail⟩
  · rw [heq]
    cases hb : b s with
    | done v t => exact of_done v t
    | exhausted => exact of_exhausted
    | failed e t =>
      dsimp only
      split
      · exact of_done instead (t.keep e)
      · refine of_failed ?_ t
        rcases hP e t hb with hraised | ⟨inner, origin, hraised, htest, rfl⟩
        · exact .inl hraised
        · refine .inr ⟨inner ++ [.search], origin, hraised, ?_, ?_⟩
          · rw [← hinner]
            exact htest
          · exact (origin.leaving_search inner).symm
  · rw [hstop]
    refine .inr ⟨trace, t, rfl, inner ++ [.search], e, ?_, fun hunhandled => ?_⟩
    · rw [← hinner]
      exact htest
    · obtain ⟨u, hu⟩ := hfail hunhandled.of_append
      have hkind : (e.leaving inner).kind.isValue = false := hunhandled.of_search
      rw [hu, e.leaving_search]
      dsimp only
      rw [hkind]
      exact ⟨u, rfl⟩

end Tracks

end Outcome

/-- One action tracks another one while something is under way. -/
def tracking (test : Lookout) (under : List Activity) : Congruence where
  rel a b := ∀ s, (a s).Tracks (Failure.Known test under) test under (b s)
  candid h _ := .inl ⟨rfl, fun _ _ he => .inl (h.raised he)⟩
  bind h hfg s := (h s).bind hfg

/-- Errors that leave an action as they were raised are known. -/
theorem Action.RaisesOutright.tracking {α : Type} {a : Action α} (ha : RaisesOutright a) :
    (tracking test under).rel a a :=
  fun s => .inl ⟨rfl, fun e t he => .inl (ha s e t he)⟩

/-- What a host does is tracked if it handles no errors. -/
theorem Host.PassesErrors.respects {host : Host} (hhost : host.PassesErrors) :
    host.Respects (tracking test under) :=
  fun h f args => (hhost f args).related (fun ha => ha.tracking) h

/-! ## Machines -/

theorem SequenceMethod.indexOfElement_tracks {m m' : Machine}
    (h : m.Related (tracking test (.search :: under)) m') (v value : Value) :
    (tracking test under).rel (indexOfElement m v value) (indexOfElement m' v value) :=
  fun s => (SequenceMethod.positionOf_related h v value s).catching

namespace Machine

theorem callFunction_some (host : Host) (m : Machine) {r : FunctionRef} {s : Store}
    {cell : FunctionCell} (hcell : s.function? r = some cell) (args : List Value) :
    m.callFunction host r args s = m.callCode host cell.code args s := by
  have hread : Action.gets (·.function? r) s = .done (some cell) s :=
    congrArg (Outcome.done · s) hcell
  exact Action.bind_of_done hread

theorem callFunction_none (host : Host) (m : Machine) {r : FunctionRef} {s : Store}
    (hnone : s.function? r = none) (args : List Value) :
    m.callFunction host r args s = .done .undefined s := by
  have hread : Action.gets (·.function? r) s = .done none s := congrArg (Outcome.done · s) hnone
  exact Action.bind_of_done hread

/-- A step of a call, for which the machines are related with whatever is under way. -/
theorem callStep_tracks {host : Host} (hhost : host.PassesErrors) {m' : Machine}
    {machines : List Activity → Machine}
    (h : ∀ under, (machines under).Related (tracking test under) m') (f : Value)
    (args : List Value) (s : Store) :
    ((machines (s.calling f under)).callStep host f args s).Tracks (Failure.Known test under) test
      under (m'.callStep host f args s) := by
  cases hf : f.functionRef? with
  | none =>
    have hcalling : s.calling f under = under := by
      unfold Store.calling Store.searches
      rw [hf]
      rfl
    rw [hcalling]
    exact callStep_related host (h under) hf args s
  | some r =>
    obtain ⟨args', hargs⟩ := exists_callStep_eq hf args
    rw [hargs, hargs]
    cases hcell : s.function? r with
    | none =>
      rw [callFunction_none host _ hcell, callFunction_none host _ hcell]
      exact .of_done _ s
    | some cell =>
      have hsearches : s.searches f = cell.code.isSearch := by
        unfold Store.searches
        rw [hf, Option.bind_some, hcell, Option.any_some]
      rw [callFunction_some host _ hcell, callFunction_some host _ hcell]
      -- The activity of a search is that of its callbacks; what it does itself is outside of it.
      have hrespects : host.Respects (tracking test under) := hhost.respects
      refine callCode_related hrespects cell.code args' (fun hcode => ?_) (fun hcode => ?_) s
      · unfold Store.calling
        rw [hsearches, hcode]
        exact h under
      · unfold Store.calling
        rw [hsearches, hcode]
        exact SequenceMethod.indexOfElement_tracks (h (.search :: under))

end Machine

/-- The observed machine does what the machine does, up to where it stops. -/
theorem observedMachine_related {host : Host} (hhost : host.PassesErrors) (test : Lookout)
    (fuel : Nat) (under : List Activity) :
    (observedMachine host test fuel under).Related (tracking test under) (host.machine fuel) := by
  induction fuel generalizing under with
  | zero =>
    exact ⟨fun hstep => Cursor.fold_related hstep 0, fun _ _ _ => .of_exhausted,
      fun _ _ _ _ => .of_exhausted, fun _ _ _ => .of_exhausted, fun _ _ _ _ _ => .of_exhausted⟩
  | succ fuel ih =>
    have hknown : ∀ e, Failure.Passed test under e → Failure.Known test under e := fun _ => .inr
    refine ⟨fun hstep => Cursor.fold_related hstep (fuel + 1), fun scope operand s => ?_,
      fun scope f operands s => ?_, fun f args s => ?_, fun scope head operands line s => ?_⟩
    · exact (Machine.evalStep_related (ih under) scope operand s).observed.mono hknown
    · exact (Machine.invokeStep_related (ih under) scope f operands s).observed.mono hknown
    · exact (Outcome.Tracks.observed (Machine.callStep_tracks hhost ih f args s)).mono hknown
    · exact (Machine.application_related (ih _) scope head operands s).observed.framed.mono hknown

namespace Outcome

/-- The outcome is that of an observed run that stopped. -/
def isStopped {α : Type} : Outcome α → Bool
  | .failed ⟨.plain .language "stopped", _, some "", false⟩ _ => true
  | _ => false

theorem exists_of_isStopped {α : Type} {o : Outcome α} (h : o.isStopped = true) :
    ∃ trace t, o = .failed (.stopped trace) t := by
  unfold isStopped at h
  split at h
  · exact ⟨_, _, rfl⟩
  · cases h

end Outcome

/-- The run ended with this number. -/
def Ending.isInt (i : Int) : Ending Value → Bool
  | .value (.int j) => i == j
  | _ => false

theorem Ending.eq_of_isInt {i : Int} {ending : Ending Value} (h : ending.isInt i = true) :
    ending = .value (.int i) := by
  unfold isInt at h
  split at h
  · rw [eq_of_beq h]
  · cases h

/-- No error that a run passes on is the one that stops an observed run. -/
theorem Failure.Raised.ne_stopped {e : Failure} (h : e.Raised) (inner : List Activity)
    (trace : List Frame) : e.leaving inner ≠ .stopped trace := by
  intro heq
  have hreport : e.report = some "" := congrArg Failure.report heq
  have hshared : e.shared = false := congrArg Failure.shared heq
  cases h with
  | fresh fault => cases hreport
  | badStep what hframe => cases hreport
  | shared h => exact Bool.false_ne_true (hshared.symm.trans h)

/-! ## Scripts -/

namespace Script

/-- Evaluates a program, and stops where an error that is looked out for leaves something. -/
def evaluateObserved (host : Host) (script : Script) (test : Lookout) (p : Program Value) :
    Action Value :=
  observed test [] ((observedMachine host test defaultFuel []).block (.scope script.scope)
    (itemsTuple p.items 0))

/-- An error that is looked out for leaves something while a source is run. -/
def Meets (host : Host) (script : Script) (source : String) (s : Store) (test : Lookout) : Prop :=
  ∃ trace t, (read source >>= script.evaluateObserved host test) s = .failed (.stopped trace) t

/-- This very error leaves something while a source is run, and just this is under way then. -/
def Raises (host : Host) (script : Script) (source : String) (s : Store) (under : List Activity)
    (e : Failure) : Prop :=
  ∃ test : Lookout, (∀ inside f, test inside f = true → inside = under ∧ f = e) ∧
    script.Meets host source s test

variable {host : Host} {script : Script} {source : String} {p : Program Value} {s t : Store}
  {e : Failure}

theorem evaluateObserved_tracks (hhost : host.PassesErrors) (script : Script) (test : Lookout)
    (p : Program Value) (s : Store) :
    (script.evaluateObserved host test p s).Tracks (Failure.Passed test []) test []
      (script.evaluateIn host p s) :=
  (Machine.block_related (observedMachine_related hhost test defaultFuel []) _ _ s).observed

theorem read_ne_stopped (trace : List Frame) : read source s ≠ .failed (.stopped trace) t := by
  intro h
  unfold read at h
  split at h
  · cases h
  · cases h

/-- An error that is met and not handled is the one that the evaluation ends with. -/
theorem Meets.exists_evaluate (hhost : host.PassesErrors) (h : script.Meets host source s test) :
    ∃ p u, read source s = .done p u ∧ ∃ under e, test under e = true ∧
      (e.Unhandled under → ∃ t, script.evaluateIn host p u = .failed (e.leaving under) t) := by
  obtain ⟨trace, t, hstop⟩ := h
  rcases bind_eq_failed.mp hstop with hstop | ⟨p, u, hread, hstop⟩
  · exact absurd hstop (read_ne_stopped trace)
  · refine ⟨p, u, hread, ?_⟩
    rcases evaluateObserved_tracks hhost script test p u with
      ⟨heq, hpassed⟩ | ⟨_, _, _, under, e, htest, he⟩
    · obtain ⟨inner, origin, hraised, _, hleft⟩ := hpassed _ t (heq.symm.trans hstop)
      exact absurd hleft.symm (hraised.ne_stopped inner trace)
    · rw [List.append_nil] at htest
      exact ⟨under, e, htest, he⟩

/-- The error that an evaluation ends with was met as it was raised. -/
theorem meets_of_evaluate (hhost : host.PassesErrors) (hread : read source s = .done p t)
    {u : Store} (h : script.evaluateIn host p t = .failed e u)
    (htest : ∀ under origin, origin.Raised → e = origin.leaving under → test under origin = true) :
    script.Meets host source s test := by
  rcases evaluateObserved_tracks hhost script test p t with ⟨_, hpassed⟩ | ⟨trace, v, hstop, _⟩
  · obtain ⟨inner, origin, hraised, hfalse, heq⟩ := hpassed e u h
    rw [List.append_nil, htest inner origin hraised heq] at hfalse
    cases hfalse
  · exact ⟨trace, v, (Action.bind_of_done hread).trans hstop⟩

theorem exec_of_failed (hread : read source s = .done p t) {u : Store}
    (h : script.evaluateIn host p t = .failed e u) :
    script.execIn host source s = u.settle script.throwing e := by
  unfold execIn Store.attempt
  rw [hread]
  dsimp only
  rw [h]

/-- The trace of an error is the stack of calls, in every host that handles no errors of what it
calls. An error that leaves something while a source is run, and that no search handles, is the
error that the run ends with, after the frames of all calls that were under way have been added in
order. Conversely an error that a run ends with was met as it was raised, with the frames of the
calls that were under way then in addition; it has none at that point unless it is that of a step of
a chain, which has one. The error that the host raises again and again has those from before. -/
theorem trace_eq_stack {host : Host} (hhost : host.PassesErrors) (script : Script)
    (source : String) (s : Store) :
    (∀ under e, script.Raises host source s under e → e.Unhandled under →
      ∃ t : Store, script.execIn host source s = t.settle script.throwing (e.leaving under)) ∧
    (∀ p t e u, read source s = .done p t → script.evaluateIn host p t = .failed e u →
      ∃ test : Lookout, script.Meets host source s test ∧ ∀ under origin, test under origin = true →
        origin.Raised ∧ e = origin.leaving under) := by
  refine ⟨fun under e ⟨test, honly, hmeets⟩ hunhandled => ?_, fun p t e u hread hfail => ?_⟩
  · obtain ⟨p, t, hread, inside, f, htest, hends⟩ := hmeets.exists_evaluate hhost
    obtain ⟨rfl, rfl⟩ := honly inside f htest
    obtain ⟨u, hfail⟩ := hends hunhandled
    exact ⟨u, exec_of_failed hread hfail⟩
  · classical
    refine ⟨fun under origin => decide (origin.Raised ∧ e = origin.leaving under), ?_, ?_⟩
    · exact meets_of_evaluate hhost hread hfail fun under origin hraised heq =>
        decide_eq_true ⟨hraised, heq⟩
    · exact fun under origin h => of_decide_eq_true h

/-! ## Two runs -/

/-- The store with a script that has these globals and that nothing has been run in. -/
def storeWith (globals : List (String × Value)) : Store :=
  ((Store.initial Settings.alwaysForbidden).addScope globals (.scope coreScope)).2

/-- The script in it. -/
def newScript : Script := ⟨⟨1⟩, true⟩

theorem meets_of_isStopped {test : Lookout}
    (h : ((read source >>= script.evaluateObserved host test) s).isStopped = true) :
    script.Meets host source s test :=
  Outcome.exists_of_isStopped h

/-- A script that can ask the host to call a function. -/
def callbackStore : Store := storeWith [("apply", .function HostFunction.apply.ref)]

/-- The two calls of a callback which calls what is not bound. -/
def callbackCalls : List Activity :=
  [.call [.node (.leaf .identifier "x" ⟨1, 33⟩)] (.int 1),
    .call [.node (.leaf .identifier "apply" ⟨1, 5⟩),
      .node (.group .call [.leaf .identifier "fn" ⟨1, 19⟩, .group .array [] ⟨1, 25⟩,
        .group .call [.leaf .identifier "x" ⟨1, 33⟩] ⟨1, 31⟩] ⟨1, 17⟩)] (.int 1)]

/-- Looks out for the error that the head of the call in the callback is not bound. -/
def unboundInCallback : Lookout
  | [.call [.node (.leaf .identifier "x" ⟨1, 33⟩)] (.int 1),
      .call [.node (.leaf .identifier "apply" ⟨1, 5⟩),
        .node (.group .call [.leaf .identifier "fn" ⟨1, 19⟩, .group .array [] ⟨1, 25⟩,
          .group .call [.leaf .identifier "x" ⟨1, 33⟩] ⟨1, 31⟩] ⟨1, 17⟩)] (.int 1)],
    ⟨.undefined "x", [], none, false⟩ => true
  | _, _ => false

theorem unboundInCallback_only {under : List Activity} (h : unboundInCallback under e = true) :
    under = callbackCalls ∧ e = .fresh (.undefined "x") := by
  unfold unboundInCallback at h
  split at h
  · exact ⟨rfl, rfl⟩
  · cases h

/-- A callback of the host that fails has the call of the host function in its trace. -/
theorem trace_eq_stack_callback : Host.offered.PassesErrors ∧
    ∃ t : Store, newScript.exec "(apply (fn [] (x)))" callbackStore =
      t.settle true ⟨.undefined "x", [⟨some "x", .int 1⟩, ⟨some "apply", .int 1⟩], none, false⟩ := by
  have hmeets : newScript.Meets .offered "(apply (fn [] (x)))" callbackStore unboundInCallback :=
    meets_of_isStopped (by decide +kernel)
  refine ⟨Host.offered_passesErrors, ?_⟩
  refine (trace_eq_stack Host.offered_passesErrors newScript "(apply (fn [] (x)))" callbackStore).1
    callbackCalls (.fresh (.undefined "x"))
    ⟨unboundInCallback, fun _ _ => unboundInCallback_only, hmeets⟩ fun hvalue => ?_
  cases hvalue

/-- A function whose method looks for a text in vain, and a search that asks it for a place. -/
def vainSearch : String :=
  "(def t \"abc\") (def o (jsfn [x] x)) (aset o :index (fn [v] (t.index \"z\"))) " ++
    "((aget [1] :indexOf :func) o 5)"

/-- Looks out for the new error that the text is not found, in the calls of the method and of the
search. -/
def textNotFound : Lookout
  | under, ⟨.substringNotFound, [], none, false⟩ =>
    (framesOf under).map Frame.ident == [some "t.index", some "aget"]
  | _, _ => false

/-- A search handles an error about a value, so that the run goes on without it. -/
theorem search_handles_error :
    newScript.Meets .offered vainSearch (storeWith []) textNotFound ∧
    (∀ under e, textNotFound under e = true → e = .fresh .substringNotFound ∧
      (framesOf under).map Frame.ident = [some "t.index", some "aget"]) ∧
    (newScript.exec vainSearch (storeWith [])).1 = .value (.int (-1)) := by
  refine ⟨meets_of_isStopped (by decide +kernel), fun under e h => ?_, ?_⟩
  · unfold textNotFound at h
    split at h
    · exact ⟨rfl, eq_of_beq h⟩
    · cases h
  · exact Ending.eq_of_isInt (by decide +kernel)

end Script

end Lisplet
