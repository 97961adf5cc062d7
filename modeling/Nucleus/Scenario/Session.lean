import Nucleus.Scenario.Play

/-!
# Sessions

A session boots a kernel and plays cues on it, one after the other. A cue is a step and, if one
is given, the race that comes in at its first masking of interrupts. Each cue leaves a report:
its answer, and what was shown, logged, and asked of the chip meanwhile, and the machine
afterwards. A session ends early when the machine stops; a transfer of control ends the step
only, because whoever was entered may come back with an interrupt.
-/

namespace Nucleus.Scenario

/-- A step of a scenario, and what comes in between at its first masking of interrupts. -/
structure Cue where
  /-- the step -/
  step : Step
  /-- the race -/
  race : Option (List Step) := none

/-- Forget what the last step left to be observed. -/
def World.fresh (w : World) (race : Option (List Step)) : World :=
  { w with
    machine.chip := w.machine.chip.clearJournal
    machine.log := []
    seen := []
    race }

/-- What is to be observed after a step. -/
def World.report (w : World) (result : Except Halt Answer) : Report where
  result
  seen := w.seen.reverse
  log := w.machine.notices
  journal := w.machine.chip.acts
  state := w.view

/-- Play a cue and report. -/
def observe (fuel : Nat) (w : World) (cue : Cue) : World × Report :=
  match (answer fuel (host fuel) cue.step).run (w.fresh cue.race) with
  | .ok a w' => (w', w'.report (.ok a))
  | .error (.skip why) w' => (w', w'.report (.ok (.skipped why)))
  | .error (.halt why) w' => (w', w'.report (.error why))

/-- Does the scenario end here? A transfer of control ends a step only. -/
def Report.isLast (r : Report) : Bool :=
  match r.result with
  | .ok _ => false
  | .error (.transfer _ _) => false
  | .error _ => true

/-- Play cues up to the one that stops the machine. -/
def playAll (fuel : Nat) (w : World) : List Cue → List Report
  | [] => []
  | cue :: cues =>
    let (w', r) := observe fuel w cue
    if r.isLast then [r] else r :: playAll fuel w' cues

/-- What a session starts from. -/
structure Setup where
  /-- the chip -/
  hardware : Hardware
  /-- the configuration -/
  config : Config
  /-- the scripts that thread bodies may run -/
  scripts : List (List Step)

/-- How a boot went: the machine afterwards, and whether it failed. A boot runs no client code and
nobody else is there yet. -/
def Setup.boot (s : Setup) : Ending guest (Outcome Unit) :=
  (Call.boot s.hardware s.config {}).alone .passive

/-- The world after a boot. -/
def Setup.world (s : Setup) (m : Machine guest) : World :=
  { machine := m, scripts := s.scripts, carried := m.kernel.cores.map fun _ => 0 }

/-- Fuel that no scenario of a sensible size uses up. -/
def defaultFuel : Nat := 100000

end Nucleus.Scenario
