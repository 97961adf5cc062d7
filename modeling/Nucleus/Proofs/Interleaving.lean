import Nucleus.Proofs.Script

/-!
# Operations in their smallest steps

In the runs of `System.Runs` an operation is carried out whole, but for client code and for one
window of a wait. Here every operation is stopped at each of its windows: a step is a single
*stretch* of an operation, from one window to the next, and between two stretches of it any number
of others may begin and go on, on any core. A stretch that would wait for a lock cannot be carried
out until the lock is given back.

* `System.Stretch` carries out one stretch, and `System.Weaves` is a run in stretches.
* `System.weave?` carries out a script of stretches, and `System.weaves_of_weave?` says that what it
  does is such a run.
-/

namespace Nucleus

variable {G : Guest}

namespace System

/-- One stretch is carried out, and tells of itself. -/
inductive Stretch (s : System G) : Segment G → System G → Prop where
  /-- an operation is called on a managed core -/
  | call (core : CoreId) (op : Op G) {m : Machine G} {r : op.Result ⊕ Call G op.Result}
    (managed : s.machine.kernel.manages core = true) (valid : op.Valid s.machine.kernel)
    (rests : (op.call (s.machine.on core)).Rests true m r) :
    Stretch s ⟨core, op, true, s.machine.kernel, m.kernel, r.getLeft?⟩
      ⟨m, Task.left core op r ++ s.tasks⟩
  /-- an operation in progress goes on -/
  | resume (task : Task G) (older newer : List (Task G)) {m : Machine G}
    {r : task.op.Result ⊕ Call G task.op.Result} (tasks : s.tasks = newer ++ task :: older)
    (rests : (task.rest (s.machine.on task.core)).Rests true m r) :
    Stretch s ⟨task.core, task.op, false, s.machine.kernel, m.kernel, r.getLeft?⟩
      ⟨m, newer ++ (Task.left task.core task.op r ++ older)⟩

/-- A run in stretches from a system, with its history, the latest stretch first. -/
inductive Weaves (s₀ : System G) : List (Segment G) → System G → Prop where
  /-- nothing has happened -/
  | start : Weaves s₀ [] s₀
  /-- one more stretch -/
  | step {history : List (Segment G)} {s s' : System G} {seg : Segment G}
    (run : Weaves s₀ history s) (next : Stretch s seg s') : Weaves s₀ (seg :: history) s'

/-- A stretch tells of the kernel state before and after. -/
theorem Stretch.kernels {s s' : System G} {seg : Segment G} (h : Stretch s seg s') :
    seg.before = s.machine.kernel ∧ seg.after = s'.machine.kernel := by
  cases h <;> exact ⟨rfl, rfl⟩

end System

/-! ## Scripts of stretches -/

/-- Where the next stretch of a call ends, if it comes to no client code. -/
def Run.stretch? {α : Type} : Run G α → Option (Machine G × (α ⊕ Call G α))
  | done m a => some (m, .inl a)
  | window m _ resume => some (m, .inr resume)
  | _ => none

theorem Run.rests_of_stretch? {α : Type} {x : Run G α} {n : Machine G} {r : α ⊕ Call G α}
    (h : x.stretch? = some (n, r)) : x.Rests true n r := by
  cases x with
  | done m a =>
    cases h
    exact .done _ _
  | window m w resume =>
    cases h
    exact .pause rfl
  | halt | interrupt | enter => cases h

/-- What to do next. -/
inductive Move (G : Guest) where
  /-- call an operation on a core -/
  | begin (core : CoreId) (op : Op G)
  /-- go on with an operation in progress -/
  | goOn (i : Nat)

namespace System

/-- Carry out a stretch. -/
def move? (s : System G) : Move G → Option (Segment G × System G)
  | .begin core op =>
    if s.machine.kernel.manages core = true ∧ op.Valid s.machine.kernel then
      (op.call (s.machine.on core)).stretch?.map fun (m, r) =>
        (⟨core, op, true, s.machine.kernel, m.kernel, r.getLeft?⟩,
          ⟨m, Task.left core op r ++ s.tasks⟩)
    else none
  | .goOn i => s.tasks[i]?.bind fun task =>
    (task.rest (s.machine.on task.core)).stretch?.map fun (m, r) =>
      (⟨task.core, task.op, false, s.machine.kernel, m.kernel, r.getLeft?⟩,
        ⟨m, s.tasks.take i ++ (Task.left task.core task.op r ++ s.tasks.drop (i + 1))⟩)

/-- Carry out a script; its history, the latest stretch first, and the system it leaves. -/
def weave? (s : System G) : List (Move G) → Option (List (Segment G) × System G)
  | [] => some ([], s)
  | move :: script => do
    let (seg, s') ← s.move? move
    let (history, s'') ← s'.weave? script
    return (history ++ [seg], s'')

theorem stretch_of_move? {s s' : System G} {move : Move G} {seg : Segment G}
    (h : s.move? move = some (seg, s')) : Stretch s seg s' := by
  cases move with
  | begin core op =>
    simp only [move?] at h
    split at h
    next hv =>
      obtain ⟨⟨m, r⟩, hrun, heq⟩ := Option.map_eq_some_iff.mp h
      cases heq
      exact .call core op hv.1 hv.2 (Run.rests_of_stretch? hrun)
    next => cases h
  | goOn i =>
    obtain ⟨task, htask, h⟩ := Option.bind_eq_some_iff.mp h
    obtain ⟨⟨m, r⟩, hrun, heq⟩ := Option.map_eq_some_iff.mp h
    cases heq
    obtain ⟨hi, rfl⟩ := List.getElem?_eq_some_iff.mp htask
    refine .resume s.tasks[i] (s.tasks.drop (i + 1)) (s.tasks.take i) ?_
      (Run.rests_of_stretch? hrun)
    rw [← List.drop_eq_getElem_cons hi, List.take_append_drop]

/-- One run after the other. -/
theorem Weaves.trans {s₀ s₁ s₂ : System G} {past later : List (Segment G)} (h₁ : Weaves s₀ past s₁)
    (h₂ : Weaves s₁ later s₂) : Weaves s₀ (later ++ past) s₂ := by
  induction h₂ with
  | start => exact h₁
  | step _ next ih => exact .step ih next

/-- **What a script does is a run in stretches.** -/
theorem weaves_of_weave? {s s' : System G} {script : List (Move G)} {history : List (Segment G)}
    (h : s.weave? script = some (history, s')) : Weaves s history s' := by
  induction script generalizing s history with
  | nil =>
    cases h
    exact .start
  | cons move script ih =>
    obtain ⟨⟨seg, s₁⟩, hmove, h⟩ := Option.bind_eq_some_iff.mp h
    obtain ⟨⟨later, s₂⟩, hrest, h⟩ := Option.bind_eq_some_iff.mp h
    cases h
    exact (Weaves.step .start (stretch_of_move? hmove)).trans (ih hrest)

/-- A script that can be carried out on a booted machine, and what is then found. -/
theorem exists_weave (hardware : Hardware) (config : Config) (script : List (Move G))
    (test : Machine G → List (Segment G) → System G → Bool)
    (h : (do
      let m ← Machine.boot? hardware config
      let (history, s) ← System.weave? ⟨m, []⟩ script
      return test m history s) = some true) :
    ∃ m history s, Machine.boot? hardware config = some m ∧
      System.weave? ⟨m, []⟩ script = some (history, s) ∧ test m history s = true := by
  obtain ⟨m, hm, h⟩ := Option.bind_eq_some_iff.mp h
  obtain ⟨⟨history, s⟩, hscript, h⟩ := Option.bind_eq_some_iff.mp h
  exact ⟨m, history, s, hm, hscript, Option.some.inj h⟩

end System

end Nucleus
