import Lisplet.Proofs.Isolation.Calls
import Lisplet.Proofs.Isolation.Walks
import Lisplet.Proofs.Syntax.RoundTrip

/-!
# Runs

A run is watched by a machine that stops at the first state that satisfies a test, whenever something
is evaluated, invoked or called and whenever that ends. A test that nothing satisfies gives the
machine itself. The states where the various tests stop a run are those that it visits, and of two
tests the one that more states satisfy does not stop a run later than the other.
-/

namespace Lisplet

open Lisplet.Action

variable {n : Nat}

/-! ## Watching -/

namespace Action

variable {α : Type} {test test' : Store → Bool}

/-- The error that stops a watched run. -/
def paused : Failure := .fresh (.plain pauseKind "paused")

/-- Stops at a state that satisfies a test. -/
def pause (test : Store → Bool) : Action Unit := fun s =>
  if test s then .failed paused s else .done () s

/-- An action that is watched where it starts and where it ends. -/
def watched (test : Store → Bool) (a : Action α) : Action α := do
  pause test
  let v ← a
  pause test
  return v

theorem watched_never (a : Action α) : watched (fun _ => false) a = a := by
  show (pure () >>= fun _ => a >>= fun v => pure () >>= fun _ => pure v) = a
  simp only [pure_bind, bind_pure]

/-- A test that fewer states satisfy stops later. -/
theorem pause_follows (h : ∀ s, test' s = true → test s = true) :
    Follows n (pause test) (pause test') Any := by
  intro s hs _
  have hsecure : (pause test' s).Secure Any s := by
    unfold pause
    split
    · exact ⟨hs, .refl s⟩
    · exact ⟨hs, .refl s, trivial⟩
  by_cases htest : test s = true
  · refine .inr ⟨paused, s, ?_, rfl, hs, .refl s, hsecure⟩
    exact if_pos htest
  · refine .inl ⟨?_, hsecure⟩
    unfold pause
    rw [if_neg htest, if_neg fun htest' => htest (h s htest')]

theorem watched_follows {Q : Nat → α → Prop} [Upward Q] {a b : Action α}
    (h : ∀ s, test' s = true → test s = true) (hab : Follows n a b Q) :
    Follows n (watched test a) (watched test' b) Q := by
  refine (pause_follows h).seq fun _ => hab.bind fun _ _ v hv => ?_
  exact (pause_follows h).bind fun _ hle _ _ => (Secure.ret (Upward.mono hv hle)).follows

end Action

/-- The machine that has so many steps left and is watched at each of them. -/
def watchedMachine (test : Store → Bool) : (fuel : Nat) → Machine
  | 0 =>
    ⟨0, fun _ _ => .exhausted, fun _ _ _ => .exhausted, fun _ _ => .exhausted,
      fun _ _ _ _ => .exhausted⟩
  | fuel + 1 =>
    let m := watchedMachine test fuel
    ⟨fuel + 1, fun scope operand => watched test (m.evalStep scope operand),
      fun scope f operands => watched test (m.invokeStep scope f operands),
      fun f args => watched test (m.callStep .offered f args),
      fun scope head operands line => watched test (m.applyStep scope head operands line)⟩

theorem watchedMachine_never (fuel : Nat) : watchedMachine (fun _ => false) fuel = machine fuel := by
  induction fuel with
  | zero => rfl
  | succ fuel ih =>
    simp only [watchedMachine, ih, watched_never]
    rfl

theorem watchedMachine_follows {test test' : Store → Bool}
    (h : ∀ s, test' s = true → test s = true) (fuel : Nat) :
    (watchedMachine test fuel).Follows (watchedMachine test' fuel) := by
  induction fuel with
  | zero =>
    exact ⟨rfl, fun _ _ => Secure.exhausted.follows, fun _ _ _ => Secure.exhausted.follows,
      fun _ _ => Secure.exhausted.follows, fun _ _ _ _ => Secure.exhausted.follows⟩
  | succ fuel ih =>
    refine ⟨rfl, fun hscope hop => ?_, fun hscope _ hops => ?_, fun hf hargs => ?_,
      fun hscope hhead hops _ => ?_⟩
    · exact watched_follows h (Machine.evalStep_follows ih hscope hop)
    · exact watched_follows h (Machine.invokeStep_follows ih hscope hops)
    · exact watched_follows h (Machine.callStep_follows ih hf hargs)
    · exact watched_follows h (Machine.applyStep_follows ih _ hscope hhead hops)

/-! ## Sources -/

mutual

/-- A tree without nodes of the host has no values inside it. -/
theorem Node.confined_of_built {P : LeafKind → List Char → Prop} :
    ∀ {e : Node Value}, e.Built P → e.Confined n
  | .leaf _ _ _, _ => trivial
  | .group _ _ _, h => Node.confined_of_allBuilt h.2

theorem Node.confined_of_allBuilt {P : LeafKind → List Char → Prop} :
    ∀ {items : List (Node Value)}, Node.AllBuilt P items →
      Node.EveryOf (Value.Permitted n) items
  | [], _ => trivial
  | _ :: _, h => ⟨Node.confined_of_built h.1, Node.confined_of_allBuilt h.2⟩

end

namespace Script

/-- All values inside a program are confined. -/
def ProgramConfined (n : Nat) (p : Program Value) : Prop := ∀ e ∈ p.items, Node.Confined n e

theorem read_secure (source : String) : Secure n (read source) ProgramConfined := by
  intro s hs hn
  unfold read
  cases hparse : Reader.parse s.nextId source with
  | ok p =>
    refine ⟨{ hs with }, .of_scopes_eq rfl, fun e he => ?_⟩
    exact Node.confined_of_built (Node.allBuilt_iff.mp (Reader.built_of_parse hparse) e he)
  | error e => exact ⟨hs, .refl s⟩

/-- Runs a source in a script, watched by a test. -/
def runWatched (test : Store → Bool) (script : Script) (source : String) : Action Value := do
  let p ← read source
  watched test
    ((watchedMachine test defaultFuel).block (.scope script.scope) (itemsTuple p.items 0))

theorem runWatched_follows {test test' : Store → Bool} (h : ∀ s, test' s = true → test s = true)
    {script : Script} (hscript : (Value.scope script.scope).Confined n) (source : String) :
    Follows n (script.runWatched test source) (script.runWatched test' source) Value.Confined := by
  refine (read_secure source).follows.bind fun _ hle p hp => watched_follows h ?_
  exact Machine.block_follows (watchedMachine_follows h defaultFuel) (hscript.mono hle)
    (itemsTuple_confined hp 0)

theorem evaluate_secure {script : Script} (hscript : (Value.scope script.scope).Confined n)
    {p : Program Value} (hp : ProgramConfined n p) :
    Secure n (script.evaluate p) Value.Confined := by
  have hmachine : (machine defaultFuel).Follows (machine defaultFuel) := by
    rw [← watchedMachine_never]
    exact watchedMachine_follows (fun _ hs => hs) defaultFuel
  exact (Machine.block_follows hmachine hscript (itemsTuple_confined hp 0)).secure

end Script

end Lisplet
