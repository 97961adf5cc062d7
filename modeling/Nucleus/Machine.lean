import Nucleus.Chip
import Nucleus.Kernel
import Nucleus.Notice

/-!
# Machines and calls

A *machine* is the kernel state, the chip under it, and the log. A *call* is what a kernel
operation does to a machine. A call does not run to its end in one go: it exposes every moment at
which something else may happen, as a value of `Run`:

* `done`: it has returned;
* `halt`: the machine has stopped, or control has left for good;
* `window`: a moment at which whole operations of other cores, or an interrupt, may come in
  between; the rest of the call goes on with whatever machine they leave;
* `interrupt`, `enter`: client code is to be run, and the call goes on with what it answers.

So a call is sequential code with its interleaving points kept, and both readings of it, alone and
in company, are functions on the same value. Windows stand where interrupts have just been masked
and a lock has not yet been taken, between two unlocked accesses to shared state, and where the
interrupt flag has been put back and a lock is still to be given back.

Locks are taken in scopes: `locked l body` masks interrupts, takes `l`, runs `body`, gives `l`
back, and puts the interrupt flag back. `overheld l body` does the last two the other way round, so
that an interrupt may come in while `l` is held. A lock that is held already is never waited for
here: the one who could give it back is the waiting call itself, so the machine has stopped.
Directories and the table of handlers have locks of their own, which are held for a single access,
with the interrupt flag left alone and nothing asked of the chip: such an access is one step.
-/

namespace Nucleus

/-- The spin locks of the kernel. -/
inductive Lock where
  /-- the queues of a core's scheduler -/
  | queues (core : CoreId)
  /-- the waiters of an event -/
  | waiters (event : EventId)
  /-- the deferred calls of a core -/
  | dpcs (core : CoreId)
  deriving DecidableEq

/-- The invariants of the kernel whose violation stops the machine. -/
inductive Panic where
  /-- nothing is ready on a core that has to switch -/
  | noRunnable (core : CoreId)
  /-- a delay with nothing switched in -/
  | delayWithoutThread (core : CoreId)
  /-- a core that was told to schedule cannot -/
  | startFailed (core : CoreId) (why : KernelError)
  /-- a call from a core that is not managed -/
  | unmanagedCore (core : CoreId)
  /-- a trap that nobody handles -/
  | unhandled (irq : SystemIrq)
  /-- a core number for which there is no owner word -/
  | coreOverflow
  /-- a tick of a core that has counted as many as it can -/
  | tickOverflow (core : CoreId)
  deriving DecidableEq

/-- The text of a panic. -/
def Panic.message : Panic → String
  | noRunnable c => "no runnable thread on core " ++ toString c
  | delayWithoutThread c => "delay called with no running thread on core " ++ toString c
  | startFailed c why => "scheduler start failed on core " ++ toString c ++ ": " ++ why.message
  | unmanagedCore c => "core " ++ toString c ++ " is not managed by this kernel"
  | unhandled irq => irq.unhandledMessage
  | coreOverflow | tickOverflow _ => "attempt to add with overflow"

/-- The two ways in which the chip takes control for good. -/
inductive Transfer where
  /-- enter the first thread of a core -/
  | startSchedule
  /-- resume a context at interrupt return -/
  | restoreContext
  deriving DecidableEq

/-- The identifier of a transfer. -/
def Transfer.name : Transfer → String
  | startSchedule => "start_schedule"
  | restoreContext => "restore_context"

/-- Why a call never returns. -/
inductive Halt where
  /-- an invariant is broken -/
  | panic (why : Panic)
  /-- control has left for a context -/
  | transfer (how : Transfer) (context : Context)
  /-- it waits for a lock that it holds -/
  | deadlock (lock : Lock)
  /-- it spins in the body of an idle thread -/
  | idle
  /-- it was given too little fuel -/
  | exhausted
  deriving DecidableEq

/-- The kernel, the chip under it, and the log. -/
structure Machine (G : Guest) where
  /-- the kernel state -/
  kernel : Kernel G := {}
  /-- the chip, with the locks that are held -/
  chip : Chip Lock := {}
  /-- the log, the latest first -/
  log : List Notice := []

/-- The log, in order. -/
def Machine.notices {G : Guest} (m : Machine G) : List Notice := m.log.reverse

/-- The moments at which others may come in between. -/
inductive Window where
  /-- interrupts are masked; the lock is not yet taken -/
  | masked
  /-- outside of a masked stretch: between two unlocked accesses, or before a lock is given back
  late -/
  | unlocked
  deriving DecidableEq

/-- A call in progress. -/
inductive Run (G : Guest) (α : Type) : Type where
  /-- it has returned `a` -/
  | done (m : Machine G) (a : α)
  /-- it never returns -/
  | halt (m : Machine G) (why : Halt)
  /-- others may come in between -/
  | window (m : Machine G) (w : Window) (resume : Machine G → Run G α)
  /-- client code of a core is to be run with a context -/
  | interrupt (m : Machine G) (home : CoreId) (code : G.Routine) (context : Context)
    (resume : Machine G → Context → Run G α)
  /-- a thread body is to be run with an argument -/
  | enter (m : Machine G) (code : G.Entry) (argument : UInt64)
    (resume : Machine G → Outcome Unit → Run G α)

variable {G : Guest} {α β γ : Type}

namespace Run

/-- Go on with `f` where the call returns. -/
protected def bind : Run G α → (α → Machine G → Run G β) → Run G β
  | done m a, f => f a m
  | halt m why, _ => halt m why
  | window m w resume, f => window m w fun m' => (resume m').bind f
  | interrupt m home code c resume, f =>
    interrupt m home code c fun m' c' => (resume m' c').bind f
  | enter m code a resume, f => enter m code a fun m' r => (resume m' r).bind f

@[simp] theorem done_bind (m : Machine G) (a : α) (f : α → Machine G → Run G β) :
    (done m a).bind f = f a m := rfl

@[simp] theorem halt_bind (m : Machine G) (why : Halt) (f : α → Machine G → Run G β) :
    (halt m why : Run G α).bind f = halt m why := rfl

@[simp] theorem window_bind (m : Machine G) (w : Window) (resume : Machine G → Run G α)
    (f : α → Machine G → Run G β) :
    (window m w resume).bind f = window m w fun m' => (resume m').bind f := rfl

@[simp] theorem interrupt_bind (m : Machine G) (home : CoreId) (code : G.Routine) (c : Context)
    (resume : Machine G → Context → Run G α) (f : α → Machine G → Run G β) :
    (interrupt m home code c resume).bind f =
      interrupt m home code c fun m' c' => (resume m' c').bind f := rfl

@[simp] theorem enter_bind (m : Machine G) (code : G.Entry) (a : UInt64)
    (resume : Machine G → Outcome Unit → Run G α) (f : α → Machine G → Run G β) :
    (enter m code a resume).bind f = enter m code a fun m' r => (resume m' r).bind f := rfl

theorem bind_done (x : Run G α) : (x.bind fun a m => done m a) = x := by
  induction x with
  | done m a => rfl
  | halt m why => rfl
  | window m w resume ih => exact congrArg (window m w) (funext ih)
  | interrupt m home code c resume ih =>
    exact congrArg (interrupt m home code c) (funext fun m' => funext (ih m'))
  | enter m code a resume ih => exact congrArg (enter m code a) (funext fun m' => funext (ih m'))

theorem bind_assoc (x : Run G α) (f : α → Machine G → Run G β) (g : β → Machine G → Run G γ) :
    (x.bind f).bind g = x.bind fun a m => (f a m).bind g := by
  induction x with
  | done m a => rfl
  | halt m why => rfl
  | window m w resume ih => exact congrArg (window m w) (funext ih)
  | interrupt m home code c resume ih =>
    exact congrArg (interrupt m home code c) (funext fun m' => funext (ih m'))
  | enter m code a resume ih => exact congrArg (enter m code a) (funext fun m' => funext (ih m'))

end Run

/-- A kernel operation: what it does from a machine. -/
def Call (G : Guest) (α : Type) : Type := Machine G → Run G α

namespace Call

/-- Return at once. -/
protected def pure (a : α) : Call G α := fun m => .done m a

/-- One operation after the other. -/
protected def bind (x : Call G α) (f : α → Call G β) : Call G β := fun m => (x m).bind f

instance : Monad (Call G) where
  pure := Call.pure
  bind := Call.bind

instance : LawfulMonad (Call G) := LawfulMonad.mk' (Call G)
  (fun x => funext fun m => Run.bind_done (x m))
  (fun _ _ => rfl)
  (fun x f g => funext fun m => Run.bind_assoc (x m) f g)

@[simp] theorem pure_apply (a : α) (m : Machine G) : (pure a : Call G α) m = .done m a := rfl

@[simp] theorem bind_apply (x : Call G α) (f : α → Call G β) (m : Machine G) :
    (x >>= f) m = (x m).bind f := rfl

/-! ## Primitive calls -/

/-- Read the machine. -/
def look (f : Machine G → α) : Call G α := fun m => .done m (f m)

/-- Read the kernel state. -/
def read (f : Kernel G → α) : Call G α := look fun m => f m.kernel

/-- Change the kernel state. -/
def change (f : Kernel G → Kernel G) : Call G Unit :=
  fun m => .done { m with kernel := f m.kernel } ()

/-- Ask the chip for something. -/
def command (f : Chip Lock → Chip Lock) : Call G Unit :=
  fun m => .done { m with chip := f m.chip } ()

/-- Write to the log. -/
def note (n : Notice) : Call G Unit := fun m => .done { m with log := n :: m.log } ()

/-- Never return. -/
def stop (why : Halt) : Call G α := fun m => .halt m why

/-- Let others come in between. -/
def pause (w : Window) : Call G Unit := fun m => .window m w fun m' => .done m' ()

/-- Run client code of a core with a context. -/
def interrupt (home : CoreId) (code : G.Routine) (context : Context) : Call G Context :=
  fun m => .interrupt m home code context fun m' c => .done m' c

/-- Run a thread body with an argument. -/
def enter (code : G.Entry) (argument : UInt64) : Call G (Outcome Unit) :=
  fun m => .enter m code argument fun m' r => .done m' r

/-- Mask interrupts; the flag before. Others may come in as soon as the flag is cleared. -/
def mask : Call G Bool := do
  let was ← look (·.chip.interrupts)
  command (·.mask)
  pause .masked
  return was

/-- Take a lock. -/
def acquire (l : Lock) : Call G Unit := fun m =>
  if l ∈ m.chip.held then .halt m (.deadlock l) else .done { m with chip := m.chip.acquire l } ()

/-- Processor section: run `body` with interrupts masked, then put the interrupt flag back. -/
def masked (body : Call G α) : Call G α := do
  let was ← mask
  let a ← body
  command (·.restore was)
  return a

/-- Spin section: run `body` with interrupts masked and a lock held; the lock is given back
before the interrupt flag is put back. -/
def locked (l : Lock) (body : Call G α) : Call G α := masked do
  acquire l
  let a ← body
  command (·.release l)
  return a

/-- Processor section whose lock outlives it: run `body` with interrupts masked and a lock held,
then put the interrupt flag back, and give the lock back after that. Others may come in before the
lock is given back. -/
def overheld (l : Lock) (body : Call G α) : Call G α := do
  let a ← masked do
    acquire l
    body
  pause .unlocked
  command (·.release l)
  return a

/-! ### What the primitive calls do to a machine -/

@[simp] theorem look_apply (f : Machine G → α) (m : Machine G) : look f m = .done m (f m) := rfl

@[simp] theorem read_apply (f : Kernel G → α) (m : Machine G) :
    read f m = .done m (f m.kernel) := rfl

@[simp] theorem change_apply (f : Kernel G → Kernel G) (m : Machine G) :
    change f m = .done { m with kernel := f m.kernel } () := rfl

@[simp] theorem command_apply (f : Chip Lock → Chip Lock) (m : Machine G) :
    command f m = .done { m with chip := f m.chip } () := rfl

@[simp] theorem note_apply (n : Notice) (m : Machine G) :
    note n m = .done { m with log := n :: m.log } () := rfl

@[simp] theorem stop_apply (why : Halt) (m : Machine G) :
    (stop why : Call G α) m = .halt m why := rfl

@[simp] theorem pause_apply (w : Window) (m : Machine G) :
    pause w m = .window m w fun m' => .done m' () := rfl

@[simp] theorem mask_apply (m : Machine G) :
    mask m = .window { m with chip := m.chip.mask } .masked fun m' =>
      .done m' m.chip.interrupts := rfl

theorem acquire_apply_of_mem {l : Lock} {m : Machine G} (h : l ∈ m.chip.held) :
    acquire l m = .halt m (.deadlock l) := if_pos h

theorem acquire_apply_of_not_mem {l : Lock} {m : Machine G} (h : l ∉ m.chip.held) :
    acquire l m = .done { m with chip := m.chip.acquire l } () := if_neg h

@[simp] theorem masked_apply (body : Call G α) (m : Machine G) :
    masked body m = .window { m with chip := m.chip.mask } .masked fun m' =>
      (body m').bind fun a m'' =>
        .done { m'' with chip := m''.chip.restore m.chip.interrupts } a := rfl

theorem overheld_apply (l : Lock) (body : Call G α) (m : Machine G) :
    overheld l body m = (masked (acquire l >>= fun _ => body) m).bind fun a m' =>
      .window m' .unlocked fun m'' => .done { m'' with chip := m''.chip.release l } a := rfl

end Call

end Nucleus
