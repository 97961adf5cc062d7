import Nucleus.Proofs.System

/-!
# Scripts

Whole operations one after the other, on a machine that was just booted, as a function: a script is
a list of operations with the cores they are called on, and `System.play` carries it out. It gives
nothing if an operation is called out of place, or does not return.

`System.runs_of_play` says that what is played is a run. `oneRunning` is a script that others go on
from.
-/

namespace Nucleus

variable {G : Guest}

namespace System

/-- Carry out a whole operation. -/
def perform (s : System G) (core : CoreId) (op : Op G) : Option (Segment G × System G) :=
  if s.machine.kernel.manages core = true ∧ op.Valid s.machine.kernel then
    (op.call (s.machine.on core)).ending?.map fun (m, a) =>
      (⟨core, op, true, s.machine.kernel, m.kernel, some a⟩, ⟨m, s.tasks⟩)
  else none

/-- Carry out a script; its history, the latest segment first, and the system it leaves. -/
def play (s : System G) : List (CoreId × Op G) → Option (List (Segment G) × System G)
  | [] => some ([], s)
  | (core, op) :: script => do
    let (seg, s') ← s.perform core op
    let (history, s'') ← s'.play script
    return (history ++ [seg], s'')

theorem step_of_perform {s s' : System G} {core : CoreId} {op : Op G} {seg : Segment G}
    (h : s.perform core op = some (seg, s')) : Step s seg s' := by
  simp only [perform] at h
  split at h
  next hv =>
    obtain ⟨⟨m, a⟩, hrun, heq⟩ := Option.map_eq_some_iff.mp h
    cases heq
    exact .call core op false hv.1 hv.2 nofun (Run.rests_of_ending? hrun)
  next => cases h

/-- One run after the other. -/
theorem Runs.trans {s₀ s₁ s₂ : System G} {past later : List (Segment G)} (h₁ : Runs s₀ past s₁)
    (h₂ : Runs s₁ later s₂) : Runs s₀ (later ++ past) s₂ := by
  induction h₂ with
  | start => exact h₁
  | step _ next ih => exact .step ih next

/-- A run has been at every point of its history. -/
theorem Runs.split {s₀ s : System G} {newer older : List (Segment G)}
    (run : Runs s₀ (newer ++ older) s) : ∃ s₁, Runs s₀ older s₁ ∧ Runs s₁ newer s := by
  induction newer generalizing s with
  | nil => exact ⟨s, run, .start⟩
  | cons seg newer ih =>
    cases run with
    | step run next =>
      obtain ⟨s₁, hrun, hnewer⟩ := ih run
      exact ⟨s₁, hrun, .step hnewer next⟩

/-- **What is played is a run.** -/
theorem runs_of_play {s s' : System G} {script : List (CoreId × Op G)} {history : List (Segment G)}
    (h : s.play script = some (history, s')) : Runs s history s' := by
  induction script generalizing s history with
  | nil =>
    cases h
    exact .start
  | cons call script ih =>
    obtain ⟨⟨seg, s₁⟩, hperform, h⟩ := Option.bind_eq_some_iff.mp h
    obtain ⟨⟨later, s₂⟩, hplay, h⟩ := Option.bind_eq_some_iff.mp h
    cases h
    exact Runs.trans (.step .start (step_of_perform hperform)) (ih hplay)

end System

/-- The machine that a boot leaves, if it succeeds. -/
def Machine.boot? (hardware : Hardware) (config : Config) : Option (Machine G) :=
  match (Call.boot hardware config {}).ending? with
  | some (m, .ok ()) => some m
  | _ => none

theorem Machine.booted_of_boot? {hardware : Hardware} {config : Config} {m : Machine G}
    (h : Machine.boot? hardware config = some m) : m.Booted := by
  simp only [Machine.boot?] at h
  split at h
  next m' hrun =>
    cases h
    exact ⟨hardware, config, {}, rfl, Run.rests_of_ending? hrun⟩
  next => cases h

/-- A script in two parts that can be played on a booted machine, and what is then found. -/
theorem System.exists_play (hardware : Hardware) (config : Config)
    (first second : List (CoreId × Op G))
    (test : List (Segment G) → System G → List (Segment G) → System G → Bool)
    (h : (do
      let m ← Machine.boot? hardware config
      let (past, s) ← System.play ⟨m, []⟩ first
      let (later, s') ← s.play second
      return test past s later s') = some true) :
    ∃ m past s later s', Machine.boot? hardware config = some m ∧
      System.play ⟨m, []⟩ first = some (past, s) ∧ s.play second = some (later, s') ∧
      test past s later s' = true := by
  obtain ⟨m, hm, h⟩ := Option.bind_eq_some_iff.mp h
  obtain ⟨⟨past, s⟩, hfirst, h⟩ := Option.bind_eq_some_iff.mp h
  obtain ⟨⟨later, s'⟩, hsecond, h⟩ := Option.bind_eq_some_iff.mp h
  exact ⟨m, past, s, later, s', hm, hfirst, hsecond, Option.some.inj h⟩

/-- Does the handler run the deferred calls of the core? -/
def Handler.isDrainOf (c : CoreId) : Handler G → Bool
  | drain d => d == c
  | tick .. | routine .. => false

theorem Handler.eq_some_of_isDrainOf {c : CoreId} {h : Option (Handler G)}
    (hh : h.any (·.isDrainOf c) = true) : h = some (.drain c) := by
  obtain ⟨h, rfl, hdrain⟩ := (Option.any_eq_true _ _).mp hh
  cases h with
  | drain d => exact congrArg (some ∘ Handler.drain) (beq_iff_eq.mp hdrain)
  | tick | routine => cases hdrain

/-- Make a thread, start it on a core, and start scheduling there: the thread runs, and the idle
thread is ready. -/
def oneRunning : List (CoreId × Op ⟨Unit, Unit⟩) :=
  [(0, .createThread () "worker"), (0, .startThread 0 1), (0, .bootstrap 0)]

end Nucleus
