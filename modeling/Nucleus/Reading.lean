import Nucleus.Machine

/-!
# A call by itself

The plain reading of a call: nobody comes in between, so every window is passed through, and what
is left is how the call ends and the machine it leaves. Client code is given as a function on
machines.
-/

namespace Nucleus

/-- How a call ends. -/
inductive Ending (G : Guest) (α : Type) where
  /-- it returned `a` -/
  | returned (m : Machine G) (a : α)
  /-- it never returns -/
  | stopped (m : Machine G) (why : Halt)

/-- What client code does to a machine. -/
structure Client (G : Guest) where
  /-- what a routine of a core does, given a context -/
  routine : CoreId → G.Routine → Context → Machine G → Machine G × Context
  /-- what a thread body does, given an argument -/
  entry : G.Entry → UInt64 → Machine G → Machine G × Outcome Unit

variable {G : Guest} {α β : Type}

/-- Client code that does nothing. -/
def Client.passive : Client G where
  routine _ _ context m := (m, context)
  entry _ _ m := (m, .ok ())

namespace Ending

/-- Go on with `f` where the call returned. -/
protected def bind : Ending G α → (α → Machine G → Ending G β) → Ending G β
  | returned m a, f => f a m
  | stopped m why, _ => stopped m why

/-- The machine that is left. -/
def machine : Ending G α → Machine G
  | returned m _ => m
  | stopped m _ => m

@[simp] theorem returned_bind (m : Machine G) (a : α) (f : α → Machine G → Ending G β) :
    (returned m a).bind f = f a m := rfl

@[simp] theorem stopped_bind (m : Machine G) (why : Halt) (f : α → Machine G → Ending G β) :
    (stopped m why : Ending G α).bind f = stopped m why := rfl

end Ending

namespace Run

/-- Carry a call through with nobody coming in between. -/
def alone (client : Client G) : Run G α → Ending G α
  | done m a => .returned m a
  | halt m why => .stopped m why
  | window m _ resume => (resume m).alone client
  | interrupt m home code c resume =>
    let (m', c') := client.routine home code c m
    (resume m' c').alone client
  | enter m code a resume =>
    let (m', r) := client.entry code a m
    (resume m' r).alone client

@[simp] theorem alone_done (client : Client G) (m : Machine G) (a : α) :
    (done m a).alone client = .returned m a := rfl

@[simp] theorem alone_halt (client : Client G) (m : Machine G) (why : Halt) :
    (halt m why : Run G α).alone client = .stopped m why := rfl

@[simp] theorem alone_window (client : Client G) (m : Machine G) (w : Window)
    (resume : Machine G → Run G α) :
    (window m w resume).alone client = (resume m).alone client := rfl

/-- One call after the other, each by itself. -/
theorem alone_bind (client : Client G) (x : Run G α) (f : α → Machine G → Run G β) :
    (x.bind f).alone client = (x.alone client).bind fun a m => (f a m).alone client := by
  induction x with
  | done m a => rfl
  | halt m why => rfl
  | window m w resume ih => exact ih m
  | interrupt m home code c resume ih => exact ih _ _
  | enter m code a resume ih => exact ih _ _

end Run

end Nucleus
