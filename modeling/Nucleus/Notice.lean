import Nucleus.Error
import Nucleus.Irq
import Nucleus.Object
import Nucleus.Time

/-!
# The kernel's log

What the kernel says about itself, as facts; level and text are functions of the fact. Threads
are shown by their number counted from one, in the order in which they were made.
-/

namespace Nucleus

/-- The levels of the log. -/
inductive Level where
  /-- the machine is about to stop -/
  | error
  /-- something went wrong that the kernel copes with -/
  | warn
  /-- a step in the life of an object -/
  | debug
  /-- a step of the machinery -/
  | trace
  deriving DecidableEq, Repr

/-- The tag of a level. -/
def Level.name : Level → String
  | error => "ERROR"
  | warn => "WARN"
  | debug => "DEBUG"
  | trace => "TRACE"

/-- The number by which people know a thread. -/
def ThreadId.number (t : ThreadId) : Nat := t + 1

/-- A fact for the log. -/
inductive Notice where
  /-- the kernel is up -/
  | booted (processors : Nat) (slice : TimeSpan)
  /-- a thread was made -/
  | threadCreated (t : ThreadId) (description : String)
  /-- a call came from a core that the kernel does not manage -/
  | unmanagedCore (core : CoreId)
  /-- a thread entered the rotation of a core -/
  | threadStarted (core : CoreId) (t : ThreadId) (description : String)
  /-- a thread was taken out of everything -/
  | threadKilled (core : CoreId) (t : ThreadId)
  /-- a delay with nothing switched in -/
  | delayWithoutThread (core : CoreId)
  /-- a thread fell asleep -/
  | sleeps (core : CoreId) (t : ThreadId) (wake : Nat)
  /-- a wakeup for a thread that does not wait -/
  | notWaiting (core : CoreId) (t : ThreadId)
  /-- a tick woke a thread -/
  | tickWakes (core : CoreId) (tick : Nat) (t : ThreadId)
  /-- nothing to switch to -/
  | readyEmpty (core : CoreId)
  /-- a core is ready for scheduling -/
  | bootstrapped (core : CoreId) (slice : TimeSpan)
  /-- a core cannot begin to schedule -/
  | cannotStart (core : CoreId) (why : KernelError)
  /-- an interrupt that nobody handles -/
  | noHandler (irq : SystemIrq)
  /-- a deferred call is run -/
  | runningDpc
  /-- a trap that nobody handles -/
  | fatalTrap (irq : SystemIrq)
  /-- the body of a thread failed -/
  | faulted (t : ThreadId) (description : String) (why : KernelError)
  /-- a thread ends -/
  | exiting (t : ThreadId) (description : String) (code : ExitCode)
  /-- a signal could not be handed to a waiter -/
  | waiterNotWoken (t : ThreadId) (why : KernelError)
  /-- an object got a name -/
  | objectCreated (kind : ObjectKind) (name : String)

namespace Notice

/-- The level of a fact. -/
def level : Notice → Level
  | unmanagedCore _ | delayWithoutThread _ | readyEmpty _ | cannotStart _ _ | noHandler _
  | fatalTrap _ => .error
  | notWaiting _ _ | faulted _ _ _ | waiterNotWoken _ _ => .warn
  | sleeps _ _ _ | tickWakes _ _ _ | runningDpc => .trace
  | _ => .debug

/-- A text between single quotes. -/
def quoted (s : String) : String := "'" ++ s ++ "'"

/-- The head of a scheduler's line. -/
def sched (core : CoreId) : String := "sched[" ++ toString core ++ "]: "

/-- A thread in a line. -/
def threadText (t : ThreadId) : String := "thread " ++ toString (ThreadId.number t)

/-- The text of a fact. -/
def message : Notice → String
  | booted n slice =>
    "kernel: " ++ toString n ++ " processor(s), slice " ++ toString slice.nanos ++ " ns"
  | threadCreated t d => "kernel: created " ++ threadText t ++ " " ++ quoted d
  | unmanagedCore c => "kernel: running on unmanaged core " ++ toString c
  | threadStarted c t d => sched c ++ "started " ++ threadText t ++ " " ++ quoted d
  | threadKilled c t => sched c ++ "killed " ++ threadText t
  | delayWithoutThread c => sched c ++ "delay without a running thread"
  | sleeps c t wake => sched c ++ threadText t ++ " sleeps until tick " ++ toString wake
  | notWaiting c t => sched c ++ "undelay of " ++ threadText t ++ " which is not waiting"
  | tickWakes c tick t => sched c ++ "tick " ++ toString tick ++ " wakes " ++ threadText t
  | readyEmpty c => sched c ++ "ready list is empty"
  | bootstrapped c slice => sched c ++ "bootstrapped, slice " ++ toString slice.nanos ++ " ns"
  | cannotStart c why => sched c ++ "cannot start: " ++ why.message
  | noHandler irq => "irq: no handler for " ++ irq.name
  | runningDpc => "irq: running dpc"
  | fatalTrap irq => "kernel: fatal trap: " ++ irq.unhandledMessage
  | faulted t d why => threadText t ++ " " ++ quoted d ++ " faulted: " ++ why.message
  | exiting t d code => threadText t ++ " " ++ quoted d ++ " exiting with " ++ toString code
  | waiterNotWoken t why => "event: waiter " ++ threadText t ++ " not woken: " ++ why.message
  | objectCreated kind name => "object: created " ++ kind.name ++ " " ++ quoted name

end Notice

end Nucleus
