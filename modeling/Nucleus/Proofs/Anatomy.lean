import Nucleus.Proofs.Returns
import Nucleus.Proofs.Script

/-!
# What calls are built from

Every operation is put together from a handful of primitive calls, in sequence and in masked and
locked stretches. `Call.Built` says so once for each call, `Op.built_call` for all operations, and
what holds of the primitive calls and is kept by the ways to put them together then holds of every
operation, by one induction. The reasons for which a call stops for good are part of what it is
built from, and `Op.MayStop` lists them.

Locks have ranks, and whoever holds a lock takes locks of higher rank only: first the lock of an
event, then the lock of a scheduler, last the lock of the deferred calls. Client code is run where
no lock is held. A call is *nested* if it gives back every lock before it puts the interrupt flag
back that it masked to take the lock, and *loose* if it gives back the lock of the deferred calls
afterwards; `Discipline` tells the two apart.

* `Run.Unlocks` says that a call gives back the locks that it takes and never waits for a lock that
  it holds, and `Call.Built.unlocks` that every built call does so.
* `System.Runs.unlocked` says that no lock is held between the segments of a run.
* `Run.Avoids` says that a call does not stop for good for a reason of some sort, and
  `Call.Built.avoids` for which reasons a built call stops.
* `Op.returns_call` says that an operation returns unless it may stop for good.
-/

namespace Nucleus

variable {G : Guest} {α β : Type}

/-- The place of a lock in the order in which locks are taken. -/
def Lock.rank : Lock → Nat
  | waiters _ => 1
  | queues _ => 2
  | dpcs _ => 3

theorem Lock.rank_pos (l : Lock) : 0 < l.rank := by
  cases l with
  | waiters e => exact Nat.zero_lt_one
  | queues c => exact Nat.zero_lt_two
  | dpcs c => exact Nat.zero_lt_succ 2

/-- A lock of higher rank is none of those that are held. -/
theorem Lock.not_mem_of_rank_lt {held : List Lock} {n : Nat} {l : Lock}
    (hheld : ∀ l ∈ held, l.rank ≤ n) (higher : n < l.rank) : l ∉ held := fun hl =>
  absurd (hheld l hl) (Nat.not_le.mpr higher)

/-- Once it is taken, it has the highest rank of them. -/
theorem Lock.rank_le_of_mem_cons {held : List Lock} {n : Nat} {l : Lock}
    (hheld : ∀ l ∈ held, l.rank ≤ n) (higher : n < l.rank) :
    ∀ l' ∈ l :: held, l'.rank ≤ l.rank := by
  intro l' hl'
  rcases List.mem_cons.mp hl' with rfl | hl'
  · exact Nat.le_refl _
  · exact Nat.le_trans (hheld l' hl') (Nat.le_of_lt higher)

/-- When a lock is given back that was taken with interrupts masked. -/
inductive Discipline where
  /-- every lock before the flag is put back that was masked to take it -/
  | nested
  /-- the lock of the deferred calls possibly afterwards -/
  | loose
  deriving DecidableEq

/-- The call is put together from primitive calls, gives back locks by the discipline, and stops for
good only for a reason in `S`. It may be carried out while locks are held, of ranks up to `n`. -/
inductive Call.Built (S : Halt → Prop) (D : Discipline) : {α : Type} → Nat → Call G α → Prop where
  /-- it returns at once -/
  | pure {α : Type} {n : Nat} (a : α) : Built S D n (pure a)
  /-- one call after the other -/
  | bind {α β : Type} {n : Nat} {x : Call G α} {f : α → Call G β} (hx : Built S D n x)
    (hf : ∀ a, Built S D n (f a)) : Built S D n (x >>= f)
  /-- it reads the kernel state -/
  | read {α : Type} {n : Nat} (f : Kernel G → α) : Built S D n (read f)
  /-- it asks for the executing core -/
  | current {n : Nat} : Built S D n (look (·.chip.current))
  /-- it asks for the context that is built next -/
  | nextContext {n : Nat} : Built S D n (look (·.chip.nextContext))
  /-- it changes the kernel state -/
  | change {n : Nat} (f : Kernel G → Kernel G) : Built S D n (change f)
  /-- it brings up the chip -/
  | bringUp {n : Nat} : Built S D n (command (·.record .bringUp))
  /-- it builds a context -/
  | mint {n : Nat} : Built S D n (command (·.mint))
  /-- it posts a core notification -/
  | notify {n : Nat} : Built S D n (command (·.notify))
  /-- it arms the tick -/
  | arm {n : Nat} (slice : TimeSpan) : Built S D n (command (·.arm slice))
  /-- it writes to the log -/
  | note {n : Nat} (notice : Notice) : Built S D n (note notice)
  /-- it stops for good, but not for want of a lock -/
  | stop {α : Type} {n : Nat} (why : Halt) (nobody : ∀ l, why ≠ .deadlock l) (allowed : S why) :
    Built S D n (stop why : Call G α)
  /-- a masked stretch -/
  | masked {α : Type} {n : Nat} {x : Call G α} (hx : Built S D n x) : Built S D n (masked x)
  /-- a locked stretch -/
  | locked {α : Type} {n : Nat} {x : Call G α} (l : Lock) (higher : n < l.rank)
    (hx : Built S D l.rank x) : Built S D n (locked l x)
  /-- a masked stretch whose lock is given back after it -/
  | overheld {α : Type} {n : Nat} {x : Call G α} (c : CoreId) (loose : D = .loose)
    (higher : n < (Lock.dpcs c).rank) (hx : Built S D (Lock.dpcs c).rank x) :
    Built S D n (overheld (.dpcs c) x)
  /-- it lets others come in between -/
  | pause (w : Window) : Built S D 0 (pause w)
  /-- it runs a routine -/
  | interrupt (home : CoreId) (code : G.Routine) (context : Context) :
    Built S D 0 (interrupt home code context)
  /-- it runs a thread body -/
  | enter (code : G.Entry) (argument : UInt64) : Built S D 0 (enter code argument)

/-! ## Every operation is built so -/

namespace Call

variable {S : Halt → Prop} {D : Discipline} {n : Nat}

theorem built_ite {b : Prop} [Decidable b] {x y : Call G α} (hx : x.Built S D n)
    (hy : y.Built S D n) : (if b then x else y).Built S D n := by
  split
  · exact hx
  · exact hy

/-- A look at the queues of a core takes the lock of the scheduler. -/
theorem built_inspect {f : RunQueues → α} (c : CoreId) (hn : n < 2) :
    (inspect c f : Call G α).Built S D n :=
  .locked _ hn (.read _)

/-- The question which core executes stops on a core that is not managed. -/
theorem built_currentCore (unmanaged : ∀ c, S (.panic (.unmanagedCore c))) :
    (currentCore : Call G CoreId).Built S D n :=
  .bind .current fun c => .bind (.read _) fun _ => built_ite (.pure c)
    (.bind (.note _) fun _ => .stop _ nofun (unmanaged c))

/-! ### Interrupts -/

/-- A switch stops if nobody is in the rotation. -/
theorem built_rotate (c : CoreId) (context : Context) (empty : S (.panic (.noRunnable c))) :
    (rotate c context : Call G Context).Built S D n := by
  refine .bind (.read _) fun o => ?_
  cases o with
  | none => exact .bind (.note _) fun _ => .stop _ nofun empty
  | some next => exact .bind (.change _) fun _ => .pure _

/-- So does a voluntary one, which takes the lock of the scheduler. -/
theorem built_yieldThread (c : CoreId) (context : Context) (hn : n < 2)
    (empty : S (.panic (.noRunnable c))) : (yieldThread c context : Call G Context).Built S D n :=
  .locked _ hn (built_rotate c context empty)

theorem built_noteWoken (c : CoreId) (tick : Nat) (due : List Sleeper) :
    (noteWoken c tick due : Call G Unit).Built S D n := by
  induction due with
  | nil => exact .pure ()
  | cons s due ih => exact .bind (.note _) fun _ => ih

/-- A tick stops as well if the counter is full. -/
theorem built_onTick (c : CoreId) (context : Context) (hn : n < 2)
    (empty : S (.panic (.noRunnable c))) (overflow : S (.panic (.tickOverflow c))) :
    (onTick c context : Call G Context).Built S D n := by
  refine .locked _ hn (.bind ?_ fun _ => .bind (.read _) fun due => .bind (.change _) fun _ =>
    .bind (.read _) fun tick => .bind (built_noteWoken c tick due) fun _ =>
      built_rotate c context empty)
  exact .bind (.read _) fun _ => built_ite (.pure ()) (.stop _ nofun overflow)

/-- To queue a deferred call is nested: the lock of the queue is given back in time. -/
theorem built_registerDpc (c : CoreId) (d : Dpc G) (hn : n < 3) : (registerDpc c d).Built S D n :=
  .bind (.locked _ hn (.change _)) fun _ => .notify

/-- To count the deferred calls is loose, -/
theorem built_pendingDpcs (c : CoreId) (hn : n < 3) :
    (pendingDpcs c : Call G Nat).Built S .loose n :=
  .overheld c rfl hn (.read _)

/-- and so it is to take one. -/
theorem built_popDpc (c : CoreId) (hn : n < 3) :
    (popDpc c : Call G (Option (Dpc G))).Built S .loose n := by
  refine .overheld c rfl hn (.bind (.read _) fun ds => ?_)
  cases ds with
  | nil => exact .pure none
  | cons d rest => exact .bind (.change _) fun _ => .pure _

/-- A deferred call is a switch or client code. -/
theorem built_runDpc (d : Dpc G) (context : Context) (empty : ∀ d, S (.panic (.noRunnable d))) :
    (runDpc d context : Call G Context).Built S D 0 := by
  cases d with
  | reschedule d => exact built_yieldThread d context Nat.zero_lt_two (empty d)
  | routine home code => exact .interrupt home code context

/-- Deferred calls run where no lock is held: one of them may be client code. -/
theorem built_drain (fuel : Nat) (c : CoreId) (context : Context)
    (empty : ∀ d, S (.panic (.noRunnable d))) (exhausted : S .exhausted) :
    (drain fuel c context : Call G Context).Built S .loose 0 := by
  induction fuel generalizing context with
  | zero => exact .stop _ nofun exhausted
  | succ fuel ih =>
    refine .bind (built_popDpc c (Nat.zero_lt_succ 2)) fun o => ?_
    cases o with
    | none => exact .pure context
    | some d =>
      exact .bind (.note _) fun _ => .bind (built_runDpc d context empty) fun next => ih next

/-- Of the handlers, only the one that drains deferred calls is loose. -/
theorem built_runHandler (fuel : Nat) (h : Handler G) (context : Context)
    (drains : ∀ d, h = .drain d → D = .loose) (empty : ∀ d, S (.panic (.noRunnable d)))
    (overflow : ∀ d, S (.panic (.tickOverflow d))) (exhausted : S .exhausted) :
    (runHandler fuel h context : Call G Context).Built S D 0 := by
  cases h with
  | drain d =>
    obtain rfl := drains d rfl
    exact built_drain fuel d context empty exhausted
  | tick d => exact built_onTick d context Nat.zero_lt_two (empty d) (overflow d)
  | routine home code => exact .interrupt home code context

/-- A dispatch may run any handler. -/
theorem built_dispatch (fuel : Nat) (c : CoreId) (irq : SystemIrq) (context : Context)
    (empty : ∀ d, S (.panic (.noRunnable d))) (overflow : ∀ d, S (.panic (.tickOverflow d)))
    (exhausted : S .exhausted) :
    (dispatch fuel c irq context : Call G Dispatch).Built S .loose 0 := by
  refine .bind (.read _) fun o => ?_
  cases o with
  | none => exact .bind (.note _) fun _ => .pure _
  | some h =>
    exact .bind (built_runHandler fuel h context (fun _ _ => rfl) empty overflow exhausted)
      fun _ => .pure _

theorem built_registerIrq (c : CoreId) (irq : SystemIrq) (h : Handler G) :
    (registerIrq c irq h).Built S D n :=
  .bind (.read _) fun _ => .bind (.change _) fun _ => .pure _

/-! ### Threads -/

theorem built_claim (t : ThreadId) (c : CoreId) : (claim t c : Call G Bool).Built S D n :=
  .bind (.read _) fun _ => built_ite (.bind (.change _) fun _ => .pure true) (.pure false)

theorem built_disown (t : ThreadId) (c : CoreId) : (disown t c : Call G Bool).Built S D n :=
  .bind (.read _) fun _ => built_ite (.bind (.change _) fun _ => .pure true) (.pure false)

theorem built_owningCore (t : ThreadId) : (owningCore t : Call G (Option CoreId)).Built S D n := by
  refine .bind (.read _) fun o => ?_
  cases o with
  | none => exact .pure none
  | some c => exact .bind (.read _) fun _ => .pure _

/-- A start lets others come in before it takes the lock, -/
theorem built_startThread (c : CoreId) (t : ThreadId) :
    (startThread c t : Call G Bool).Built S D 0 :=
  .bind (.read _) fun _ => built_ite (.pure false) (.bind (.pause _) fun _ =>
    .bind (built_claim t c) fun _ => built_ite
      (.bind (.locked _ Nat.zero_lt_two (.change _)) fun _ => .bind (.read _) fun _ =>
        .bind (.note _) fun _ => .pure true)
      (.pure false))

/-- and the end of a thread takes the lock before it asks for a switch. -/
theorem built_killThread (c : CoreId) (t : ThreadId) :
    (killThread c t : Call G (Outcome Unit)).Built S D 0 := by
  refine .bind (built_disown t c) fun _ => built_ite ?_ (.pure _)
  refine .bind (.locked _ Nat.zero_lt_two (.bind (.change _) fun _ => .read _)) fun wasRunning =>
    .bind (.note _) fun _ => ?_
  cases wasRunning with
  | false => exact .pure _
  | true => exact .bind (built_registerDpc c _ (Nat.zero_lt_succ 2)) fun _ => .pure _

/-- Nobody can be put aside where nobody runs. -/
theorem built_park (c : CoreId) (span : TimeSpan) (nobody : S (.panic (.delayWithoutThread c))) :
    (park c span : Call G Unit).Built S D n := by
  refine .bind (.read _) fun o => ?_
  cases o with
  | none => exact .bind (.note _) fun _ => .stop _ nofun nobody
  | some t =>
    exact built_ite (.change _) (.bind (.read _) fun _ => .bind (.note _) fun _ => .change _)

/-- A delay takes the lock of the scheduler, gives it back, and asks for a switch. -/
theorem built_delay (c : CoreId) (span : TimeSpan) (hn : n < 2)
    (nobody : S (.panic (.delayWithoutThread c))) :
    (delay c span : Call G (Outcome Unit)).Built S D n := by
  have hyield : (requestYield c : Call G Unit).Built S D n := built_registerDpc c _ (by omega)
  unfold delay
  refine built_ite (.pure _) ?_
  cases span.isZero with
  | true => exact .bind hyield fun _ => .pure _
  | false =>
    exact .bind (.locked _ hn (built_park c span nobody)) fun _ => .bind hyield fun _ => .pure _

/-- Waking takes the lock of the scheduler. -/
theorem built_undelay (c : CoreId) (t : ThreadId) (hn : n < 2) :
    (undelay c t : Call G Bool).Built S D n :=
  .locked _ hn (.bind (.read _) fun _ => built_ite (.bind (.change _) fun _ => .pure true)
    (.bind (.note _) fun _ => .pure false))

/-- Scheduling begins with a start, under no lock, and then a switch under the lock. -/
theorem built_bootstrap (c : CoreId) : (bootstrap c : Call G (Outcome Context)).Built S D 0 := by
  have hfirst : (switchFirst c : Call G (Option Context)).Built S D 2 := by
    refine .bind (.read _) fun o => ?_
    cases o with
    | none => exact .pure none
    | some t => exact .bind (.change _) fun _ => .bind (.read _) fun _ => .pure _
  have hinstall (context : Context) : Built (G := G) S D 0 (do
      discard <| registerIrq c .systemTick (.tick c)
      let slice ← read (·.slice)
      command (·.arm slice)
      note (.bootstrapped c slice)
      return .ok context : Call G (Outcome Context)) :=
    .bind (.bind (built_registerIrq c _ _) fun _ => .pure _) fun _ =>
      .bind (.read _) fun slice => .bind (.arm slice) fun _ => .bind (.note _) fun _ => .pure _
  -- what is left once the idle thread is in the rotation
  have hrest {next : Option Context → Call G (Outcome Context)} (hnone : (next none).Built S D 0)
      (hsome : ∀ context, (next (some context)).Built S D 0) :
      (locked (.queues c) (switchFirst c) >>= next).Built S D 0 := by
    refine .bind (.locked _ Nat.zero_lt_two hfirst) fun o => ?_
    cases o with
    | none => exact hnone
    | some context => exact hsome context
  refine .bind (.read _) fun _ => built_ite (.pure _) (.bind (.change _) fun _ =>
    .bind (.pause _) fun _ => .bind (.read _) fun o => ?_)
  cases o with
  | none => exact hrest (.pure _) hinstall
  | some idle =>
    exact .bind (.bind (built_startThread c idle) fun _ => .pure _) fun _ =>
      hrest (.pure _) hinstall

theorem built_newThread (entry : ThreadEntry G) (description : String) :
    (newThread entry description).Built S D n :=
  .bind (.read _) fun _ => .bind (.change _) fun _ => .pure _

theorem built_createThread (entry : G.Entry) (description : String) :
    (createThread entry description).Built S D n := by
  refine .bind (built_newThread _ _) fun t => .bind ?_ fun _ => .bind (.note _) fun _ => .pure t
  exact .bind .nextContext fun _ => .bind .mint fun _ => .change _

/-- A start on the executing core, which has to be a managed one. -/
theorem built_startThreadHere (t : ThreadId) (argument : UInt64)
    (unmanaged : ∀ c, S (.panic (.unmanagedCore c))) :
    (startThreadHere t argument : Call G Bool).Built S D 0 :=
  .bind (.read _) fun _ => built_ite (.pure false) (.bind (.pause _) fun _ =>
    .bind (.change _) fun _ => .bind (.pause _) fun _ =>
      .bind (built_currentCore unmanaged) fun c => built_startThread c t)

/-- The exit of a thread ends in the end of the thread. -/
theorem built_exitThread (t : ThreadId) (code : ExitCode) :
    (exitThread t code : Call G (Outcome Unit)).Built S D 0 := by
  refine .bind (built_owningCore t) fun o => ?_
  cases o with
  | none => exact .pure _
  | some c =>
    exact .bind (.pause _) fun _ => .bind (.change _) fun _ => .bind (.pause _) fun _ =>
      .bind (.read _) fun _ => .bind (.note _) fun _ => built_killThread c t

/-- The thread in the slot exits, on a managed core. -/
theorem built_exitThreadHere (code : ExitCode) (unmanaged : ∀ c, S (.panic (.unmanagedCore c))) :
    (exitThreadHere code : Call G (Outcome Unit)).Built S D 0 := by
  refine .bind (built_currentCore unmanaged) fun c =>
    .bind (built_inspect c Nat.zero_lt_two) fun o => ?_
  cases o with
  | none => exact .pure _
  | some t => exact built_exitThread t code

/-- Waking by way of the owner takes the lock of its scheduler. -/
theorem built_undelayThread (t : ThreadId) (hn : n < 2) :
    (undelayThread t : Call G (Outcome Bool)).Built S D n := by
  refine .bind (built_owningCore t) fun o => ?_
  cases o with
  | none => exact .pure _
  | some c => exact .bind (built_undelay c t hn) fun _ => .pure _

/-- The body of an idle thread never returns. -/
theorem built_runThread (t : ThreadId) (idle : S .idle) :
    (runThread t : Call G (Outcome Unit)).Built S D 0 := by
  refine .bind (.read _) fun o => ?_
  cases o with
  | none => exact .pure _
  | some th =>
    refine .bind ?_ fun ended => ?_
    · cases th.entry with
      | idle => exact .stop _ nofun idle
      | guest code => exact .enter code th.argument
    · cases ended with
      | ok u => exact built_exitThread t 0
      | error why => exact .bind (.note _) fun _ => built_exitThread t why.code

/-! ### Events -/

theorem built_tryConsume (e : EventId) : (tryConsume e : Call G Bool).Built S D n := by
  refine .bind (.read _) fun _ => built_ite (.bind (.read _) fun auto => ?_) (.pure false)
  cases auto with
  | false => exact .pure true
  | true => exact .bind (.change _) fun _ => .pure true

/-- A waiter is woken under the lock of a scheduler, which may be taken under that of the event. -/
theorem built_release (w : WaitId) (hn : n < 2) : (release w : Call G Bool).Built S D n := by
  refine .bind (.change _) fun _ => .bind (.read _) fun o => ?_
  cases o with
  | none => exact .pure false
  | some entry =>
    refine .bind (built_undelayThread entry.thread hn) fun o => ?_
    cases o with
    | ok b => exact .pure true
    | error why => exact .bind (.note _) fun _ => .pure false

/-- Waiters are released one after the other, each with its own scheduler. -/
theorem built_releaseOne (e : EventId) (waiters : WaitQueue) (hn : n < 2) :
    (releaseOne e waiters : Call G Bool).Built S D n := by
  induction waiters with
  | nil => exact .pure false
  | cons w rest ih =>
    exact .bind (.change _) fun _ => .bind (built_release w hn) fun _ => built_ite (.pure true) ih

theorem built_releaseAll (waiters : WaitQueue) (hn : n < 2) :
    (releaseAll waiters : Call G Unit).Built S D n := by
  induction waiters with
  | nil => exact .pure ()
  | cons w rest ih => exact .bind (.bind (built_release w hn) fun _ => .pure _) fun _ => ih

/-- A signal takes the lock of the event. -/
theorem built_signalEvent (e : EventId) : (signalEvent e : Call G Unit).Built S D 0 := by
  refine .locked _ Nat.zero_lt_one (.bind (.read _) fun waiters => .bind (.read _) fun _ =>
    built_ite (.bind (built_releaseOne e waiters Nat.one_lt_two) fun woken => ?_) ?_)
  · exact built_ite (.pure ()) (.change _)
  · exact .bind (.change _) fun _ => .bind (.change _) fun _ =>
      built_releaseAll waiters Nat.one_lt_two

/-- The running thread is queued under the lock of the event, and put aside under that of its
scheduler. -/
theorem built_queueRunning (e : EventId) (c : CoreId) (span : TimeSpan)
    (nobody : S (.panic (.delayWithoutThread c))) :
    (queueRunning e c span : Call G (Outcome (Option WaitId))).Built S D 1 := by
  refine .bind (built_inspect c Nat.one_lt_two) fun o => ?_
  cases o with
  | none => exact .pure _
  | some t =>
    refine .bind (.read _) fun w => .bind (.change _) fun _ => .bind (.change _) fun _ =>
      .bind (built_delay c span Nat.one_lt_two nobody) fun o => ?_
    cases o with
    | ok u => exact .pure _
    | error why => exact .bind (.change _) fun _ => .pure _

/-- What the first half of a wait does under the lock. -/
theorem built_enqueueLocked (e : EventId) (c : CoreId) (span : TimeSpan)
    (nobody : S (.panic (.delayWithoutThread c))) :
    (do
      if ← tryConsume e then return .ok none
      if span.isZero then return .error .timeout
      queueRunning e c span : Call G (Outcome (Option WaitId))).Built S D 1 :=
  .bind (built_tryConsume e) fun _ => built_ite (.pure _)
    (built_ite (.pure _) (built_queueRunning e c span nobody))

/-- The first half of a wait takes the lock of the event, on a managed core. -/
theorem built_enqueueWait (e : EventId) (span : TimeSpan)
    (unmanaged : ∀ c, S (.panic (.unmanagedCore c)))
    (nobody : ∀ c, S (.panic (.delayWithoutThread c))) :
    (enqueueWait e span : Call G (Outcome (Option WaitId))).Built S D 0 :=
  built_ite (.pure _) (.bind (built_tryConsume e) fun _ => built_ite (.pure _)
    (.bind (built_currentCore unmanaged) fun c =>
      .locked _ Nat.zero_lt_one (built_enqueueLocked e c span (nobody c))))

/-- So does the second half. -/
theorem built_completeWait (e : EventId) (w : WaitId) :
    (completeWait e w : Call G (Outcome Unit)).Built S D 0 :=
  .locked _ Nat.zero_lt_one (.bind (.change _) fun _ => .bind (.read _) fun _ =>
    built_ite (.bind (.change _) fun _ => .pure _) (.pure _))

/-- A wait takes it twice. -/
theorem built_waitEvent (e : EventId) (span : TimeSpan)
    (unmanaged : ∀ c, S (.panic (.unmanagedCore c)))
    (nobody : ∀ c, S (.panic (.delayWithoutThread c))) :
    (waitEvent e span : Call G (Outcome Unit)).Built S D 0 := by
  refine .bind (built_enqueueWait e span unmanaged nobody) fun o => ?_
  rcases o with why | _ | w
  · exact .pure _
  · exact .pure _
  · exact built_completeWait e w

/-! ### Names -/

theorem built_createObject (x : ObjectId) (name : String) (parent : Parent) :
    (createObject x name parent : Call G (Outcome Accessor)).Built S D n := by
  refine .bind (.read _) fun o => ?_
  cases o with
  | error why => exact .pure _
  | ok objects =>
    exact .bind (.change _) fun _ => .bind (.note _) fun _ => .bind (.read _) fun _ => .pure _

theorem built_newDirectory : (newDirectory : Call G ObjectId).Built S D n :=
  .bind (.read _) fun _ => .bind (.change _) fun _ => .pure _

theorem built_newDevice (d : Device) : (newDevice d : Call G ObjectId).Built S D n :=
  .bind (.read _) fun _ => .bind (.change _) fun _ => .pure _

theorem built_newEvent (autoReset : Bool) : (newEvent autoReset : Call G EventId).Built S D n :=
  .bind (.read _) fun _ => .bind (.change _) fun _ => .pure _

/-! ### Booting -/

/-- Cores are made under no lock, -/
theorem built_addCores (description : String) (count : Nat) :
    (addCores description count : Call G Unit).Built S D n := by
  induction count with
  | zero => exact .pure ()
  | succ count ih =>
    refine .bind (.read _) fun _ => .bind (built_newThread _ _) fun t => .bind ?_ fun _ =>
      .bind (.change _) fun _ => ih
    exact .bind .nextContext fun _ => .bind .mint fun _ => .change _

/-- and so nothing is locked while the kernel is brought up. -/
theorem built_boot (hardware : Hardware) (config : Config) :
    (boot hardware config : Call G (Outcome Unit)).Built S D n := by
  refine .bind .bringUp fun _ => ?_
  cases hardware.fault with
  | some why => exact .pure _
  | none =>
    exact built_ite (.pure _) (built_ite (.pure _) (.bind (.change _) fun _ =>
      .bind (built_addCores _ _) fun _ => .bind (.note _) fun _ => .pure _))

end Call

/-- Does the operation put the running thread of the core aside, or of the executing core? -/
def Op.MayDelay (c : CoreId) : Op G → Prop
  | delay d _ => d = c
  | delayHere _ | enqueueWait _ _ | waitEvent _ _ => True
  | _ => False

/-- Does the operation ask for the executing core? -/
def Op.AsksCore : Op G → Prop
  | startThreadHere .. | exitThreadHere _ | delayHere _ | registerDpcHere _ | dispatchHere ..
  | enqueueWait .. | waitEvent .. => True
  | _ => False

/-- For which reasons may the operation stop for good? Want of a lock is none of them. -/
def Op.MayStop (op : Op G) : Halt → Prop
  | .panic (.noRunnable c) => op.scope = .turning c ∨ op.scope = .dispatching
  | .panic (.tickOverflow c) => op.scope = .turning c ∨ op.scope = .dispatching
  | .panic (.delayWithoutThread c) => op.MayDelay c
  | .panic (.unmanagedCore _) => op.AsksCore
  | .exhausted => op.scope = .dispatching
  | .idle => ∃ t, op = runThread t
  | _ => False

/-- Does the operation count the deferred calls, or run a handler that may take from them? -/
def Op.MayPeek : Op G → Prop
  | pendingDpcs _ | dispatch .. | dispatchHere .. => True
  | _ => False

/-- **Every operation is built from these**, and is nested unless it may look into the queue of
deferred calls. -/
theorem Op.built_call {D : Discipline} (op : Op G) (peeks : op.MayPeek → D = .loose) :
    op.call.Built op.MayStop D 0 := by
  open Call in
  cases op with
  | newThread entry description => exact built_newThread entry description
  | createThread entry description => exact built_createThread entry description
  | startThread c t => exact built_startThread c t
  | startThreadHere t argument => exact built_startThreadHere t argument fun _ => trivial
  | killThread c t => exact built_killThread c t
  | exitThread t code => exact built_exitThread t code
  | exitThreadHere code => exact built_exitThreadHere code fun _ => trivial
  | runThread t => exact built_runThread t ⟨t, rfl⟩
  | delay c span => exact built_delay c span Nat.zero_lt_two rfl
  | delayHere span =>
    exact .bind (built_currentCore fun _ => trivial) fun c =>
      built_delay c span Nat.zero_lt_two trivial
  | undelay c t => exact built_undelay c t Nat.zero_lt_two
  | undelayThread t => exact built_undelayThread t Nat.zero_lt_two
  | yieldThread c context => exact built_yieldThread c context Nat.zero_lt_two (.inl rfl)
  | onTick c context => exact built_onTick c context Nat.zero_lt_two (.inl rfl) (.inl rfl)
  | bootstrap c => exact built_bootstrap c
  | inspect c => exact built_inspect c Nat.zero_lt_two
  | registerDpc c d => exact built_registerDpc c d (Nat.zero_lt_succ 2)
  | registerDpcHere make =>
    exact .bind (built_currentCore fun _ => trivial) fun c =>
      built_registerDpc c (make c) (Nat.zero_lt_succ 2)
  | pendingDpcs c =>
    obtain rfl := peeks trivial
    exact built_pendingDpcs c (Nat.zero_lt_succ 2)
  | registerIrq c irq h => exact built_registerIrq c irq h
  | dispatch fuel c irq context =>
    obtain rfl := peeks trivial
    exact built_dispatch fuel c irq context (fun _ => .inr rfl) (fun _ => .inr rfl) rfl
  | dispatchHere fuel irq context =>
    obtain rfl := peeks trivial
    exact .bind (built_currentCore fun _ => trivial) fun c =>
      built_dispatch fuel c irq context (fun _ => .inr rfl) (fun _ => .inr rfl) rfl
  | newEvent autoReset => exact built_newEvent autoReset
  | signalEvent e => exact built_signalEvent e
  | resetEvent e => exact .change (·.setRaised e false)
  | waiterCount e => exact .locked _ Nat.zero_lt_one (.read _)
  | enqueueWait e span => exact built_enqueueWait e span (fun _ => trivial) fun _ => trivial
  | completeWait e w => exact built_completeWait e w
  | waitEvent e span => exact built_waitEvent e span (fun _ => trivial) fun _ => trivial
  | createObject x name parent => exact built_createObject x name parent
  | newDirectory => exact built_newDirectory
  | newDevice d => exact built_newDevice d
  | createDirectory name parent =>
    exact .bind built_newDirectory fun x => built_createObject x name parent
  | createEvent name autoReset parent =>
    exact .bind (built_newEvent autoReset) fun e => built_createObject (.event e) name parent

/-- Every operation is loose, whether it looks into a queue of deferred calls or not. -/
theorem Op.built_loose (op : Op G) : op.call.Built op.MayStop .loose 0 :=
  op.built_call fun _ => rfl

/-! ## Locks -/

namespace Run

/-- The call ends with the locks `held`, it never waits for a lock that it holds, and it runs client
code only while no lock is held. Whoever comes in between leaves the locks as they are. -/
def Unlocks (held : List Lock) : Run G α → Prop
  | done m _ => m.chip.held = held
  | halt _ why => ∀ l, why ≠ .deadlock l
  | window m _ resume => ∀ m', m'.chip.held = m.chip.held → (resume m').Unlocks held
  | interrupt m _ _ _ resume =>
    m.chip.held = [] ∧ ∀ m' c, m'.chip.held = [] → (resume m' c).Unlocks held
  | enter m _ _ resume =>
    m.chip.held = [] ∧ ∀ m' o, m'.chip.held = [] → (resume m' o).Unlocks held

variable {held held' : List Lock}

/-- The second call begins with the locks that the first has left. -/
theorem Unlocks.bind {x : Run G α} {f : α → Machine G → Run G β} (hx : x.Unlocks held)
    (hf : ∀ a m, m.chip.held = held → (f a m).Unlocks held') : (x.bind f).Unlocks held' := by
  induction x with
  | done m a => exact hf a m hx
  | halt m why => exact hx
  | window m w resume ih => exact fun m' hm' => ih m' (hx m' hm')
  | interrupt m home code c resume ih =>
    exact ⟨hx.1, fun m' c' hm' => ih m' c' (hx.2 m' c' hm')⟩
  | enter m code a resume ih => exact ⟨hx.1, fun m' o hm' => ih m' o (hx.2 m' o hm')⟩

/-- A call that gives its locks back does not wait for one that it holds. -/
theorem Unlocks.stop? {x : Run G α} {why : Halt} (hx : x.Unlocks held)
    (h : x.stop? = some why) (l : Lock) : why ≠ .deadlock l := by
  induction x with
  | halt m why' =>
    cases h
    exact hx l
  | window m w resume ih => exact ih m (hx m rfl) h
  | done | interrupt | enter => cases h

/-- The first window of the call, if it has one before client code, opens with the locks `held`. -/
def Opens (held : List Lock) : Run G α → Prop
  | done m _ => m.chip.held = held
  | window m _ _ => m.chip.held = held
  | _ => True

/-- The first window opens with the locks of the beginning, whichever call it belongs to. -/
theorem Opens.bind {x : Run G α} {f : α → Machine G → Run G β} (hx : x.Opens held)
    (hf : ∀ a m, (f a m).Opens m.chip.held) : (x.bind f).Opens held := by
  cases x with
  | done m a =>
    have hm : m.chip.held = held := hx
    exact hm ▸ hf a m
  | window m w resume => exact hx
  | halt | interrupt | enter => trivial

/-- A segment ends with no lock held, and so do those that are left: it ends with the call, in
client code, or at the first window. -/
theorem Unlocks.rests {p : Bool} {x : Run G α} {n : Machine G} {r : α ⊕ Call G α}
    (hx : x.Unlocks []) (ho : p = true → x.Opens []) (h : x.Rests p n r) :
    n.chip.held = [] ∧ ∀ rest, r = .inr rest → ∀ m, m.chip.held = [] → (rest m).Unlocks [] := by
  induction x with
  | done m a =>
    obtain ⟨rfl, rfl⟩ := rests_done.mp h
    exact ⟨hx, nofun⟩
  | halt m why => exact (rests_halt.mp h).elim
  | window m w resume ih =>
    cases p with
    | false => exact ih m (hx m rfl) nofun (rests_window.mp h)
    | true =>
      have hm : m.chip.held = [] := ho rfl
      obtain ⟨rfl, rfl⟩ := rests_window_pausing.mp h
      refine ⟨hm, ?_⟩
      rintro rest ⟨⟩ m' hm'
      exact hx m' (hm'.trans hm.symm)
  | interrupt m home code c resume ih =>
    obtain ⟨rfl, c', rfl⟩ := rests_interrupt.mp h
    refine ⟨hx.1, ?_⟩
    rintro rest ⟨⟩ m' hm'
    exact hx.2 m' c' hm'
  | enter m code a resume ih =>
    obtain ⟨rfl, o, rfl⟩ := rests_enter.mp h
    refine ⟨hx.1, ?_⟩
    rintro rest ⟨⟩ m' hm'
    exact hx.2 m' o hm'

end Run

variable {S : Halt → Prop} {D : Discipline} {n : Nat} {x : Call G α} {l : Lock} {m : Machine G}

/-- No lock is taken or given back before the first window. -/
theorem Call.Built.opens (hx : x.Built S D n) (m : Machine G) : (x m).Opens m.chip.held := by
  induction hx generalizing m with
  | bind _ _ ihx ihf => exact (ihx m).bind ihf
  | pure | read | current | nextContext | change | bringUp | mint | notify | arm | note => rfl
  | masked | locked | overheld | pause => rfl
  | stop | interrupt | enter => trivial

/-- A locked stretch gives its lock back, if the lock is free and the body gives back what it
takes. -/
theorem Call.unlocks_locked (free : l ∉ m.chip.held)
    (hx : ∀ m', m'.chip.held = l :: m.chip.held → (x m').Unlocks (l :: m.chip.held)) :
    (locked l x m).Unlocks m.chip.held := by
  intro m' hm'
  have hheld : m'.chip.held = m.chip.held := hm'
  have hstretch := (hx { m' with chip := m'.chip.acquire l } (congrArg (l :: ·) hheld)).bind
    (f := fun a m'' => .done { m'' with chip := m''.chip.release l } a) fun a m'' hm'' => by
      change m''.chip.held.erase l = m.chip.held
      rw [hm'', List.erase_cons_head]
  change Run.Unlocks _ (Run.bind (Run.bind (acquire l m') _) _)
  rw [acquire_apply_of_not_mem (hheld ▸ free)]
  exact hstretch.bind fun a m'' hm'' => hm''

/-- So does a stretch whose lock outlives it. -/
theorem Call.unlocks_overheld (free : l ∉ m.chip.held)
    (hx : ∀ m', m'.chip.held = l :: m.chip.held → (x m').Unlocks (l :: m.chip.held)) :
    (overheld l x m).Unlocks m.chip.held := by
  have hstretch : (masked (acquire l >>= fun _ => x) m).Unlocks (l :: m.chip.held) := by
    intro m' hm'
    have hheld : m'.chip.held = m.chip.held := hm'
    change Run.Unlocks _ (Run.bind (Run.bind (acquire l m') _) _)
    rw [acquire_apply_of_not_mem (hheld ▸ free)]
    exact (hx { m' with chip := m'.chip.acquire l } (congrArg (l :: ·) hheld)).bind
      fun a m'' hm'' => hm''
  refine hstretch.bind fun a m' hm' m'' hm'' => ?_
  change m''.chip.held.erase l = m.chip.held
  rw [hm'', hm', List.erase_cons_head]

/-- **A call gives back the locks that it takes**, and it never waits for a lock that it holds: the
locks that are held around it have lower ranks than those it takes. -/
theorem Call.Built.unlocks (hx : x.Built S D n) (hm : ∀ l ∈ m.chip.held, l.rank ≤ n) :
    (x m).Unlocks m.chip.held := by
  -- where no lock has a rank as low as is asked, none is held
  have hnone {m : Machine G} (hm : ∀ l ∈ m.chip.held, l.rank ≤ 0) : m.chip.held = [] := by
    refine List.eq_nil_iff_forall_not_mem.mpr fun l hl => ?_
    have := hm l hl
    have := l.rank_pos
    omega
  -- inside a stretch the lock itself has the highest rank of those held
  have hinside {α : Type} {x : Call G α} {l : Lock} {m : Machine G}
      (ih : ∀ {m : Machine G}, (∀ l' ∈ m.chip.held, l'.rank ≤ l.rank) → (x m).Unlocks m.chip.held)
      {n : Nat} (hm : ∀ l ∈ m.chip.held, l.rank ≤ n) (higher : n < l.rank) (m' : Machine G)
      (hm' : m'.chip.held = l :: m.chip.held) : (x m').Unlocks (l :: m.chip.held) := by
    rw [← hm']
    refine ih ?_
    rw [hm']
    exact Lock.rank_le_of_mem_cons hm higher
  induction hx generalizing m with
  | pure | read | current | nextContext | change | bringUp | mint | notify | arm | note => rfl
  | stop why nobody => exact nobody
  | bind _ _ ihx ihf =>
    refine (ihx hm).bind fun a m' hm' => ?_
    rw [← hm']
    exact ihf a (by rwa [hm'])
  | masked _ ih =>
    intro m' hm'
    have hbody : (_ : Run G _).Unlocks m'.chip.held := ih (by rwa [hm'])
    refine hbody.bind fun a m'' hm'' => ?_
    exact hm''.trans hm'
  | locked l higher _ ih =>
    exact Call.unlocks_locked (Lock.not_mem_of_rank_lt hm higher) (hinside ih hm higher)
  | overheld c _ higher _ ih =>
    exact Call.unlocks_overheld (Lock.not_mem_of_rank_lt hm higher) (hinside ih hm higher)
  | pause w => exact fun m' hm' => hm'
  | interrupt home code context =>
    have hheld := hnone hm
    exact ⟨hheld, fun m' _ hm' => hm'.trans hheld.symm⟩
  | enter code argument =>
    have hheld := hnone hm
    exact ⟨hheld, fun m' _ hm' => hm'.trans hheld.symm⟩

/-! ## Stopping for good -/

namespace Run

variable {bad : Halt → Prop} {J : Kernel G → Prop} {calm calm' : Prop}

/-- A segment that begins in a kernel state with `J` does not stop for a bad reason, and if the call
returns at its end `Q` holds there; this is so for the present segment if it is `calm`, and for
every segment that is left. -/
def Avoids (bad : Halt → Prop) (J : Kernel G → Prop) (Q : α → Kernel G → Prop) :
    Prop → Run G α → Prop
  | calm, done m a => calm → Q a m.kernel
  | calm, halt _ why => calm → ¬ bad why
  | calm, window m _ resume =>
    (resume m).Avoids bad J Q calm ∧ ∀ m', (resume m').Avoids bad J Q (J m'.kernel)
  | _, interrupt _ _ _ _ resume => ∀ m' c, (resume m' c).Avoids bad J Q (J m'.kernel)
  | _, enter _ _ _ resume => ∀ m' o, (resume m' o).Avoids bad J Q (J m'.kernel)

/-- It may be asked of fewer segments. -/
theorem Avoids.imp {Q : α → Kernel G → Prop} {J' : Kernel G → Prop} {x : Run G α}
    (hx : x.Avoids bad J Q calm) (hJ : ∀ k, J' k → J k) (h : calm' → calm) :
    x.Avoids bad J' Q calm' := by
  induction x generalizing calm calm' with
  | done m a => exact fun hc => hx (h hc)
  | halt m why => exact fun hc => hx (h hc)
  | window m w resume ih => exact ⟨ih m hx.1 h, fun m' => ih m' (hx.2 m') (hJ _)⟩
  | interrupt m home code c resume ih => exact fun m' c' => ih m' c' (hx m' c') (hJ _)
  | enter m code a resume ih => exact fun m' o => ih m' o (hx m' o) (hJ _)

/-- One after the other: the second begins where the first has left the kernel. -/
theorem Avoids.bind {Q : α → Kernel G → Prop} {R : β → Kernel G → Prop} {x : Run G α}
    {f : α → Machine G → Run G β} (hx : x.Avoids bad J Q calm)
    (hf : ∀ a m, (f a m).Avoids bad J R (Q a m.kernel)) : (x.bind f).Avoids bad J R calm := by
  induction x generalizing calm with
  | done m a => exact (hf a m).imp (fun _ => id) hx
  | halt m why => exact hx
  | window m w resume ih => exact ⟨ih m hx.1, fun m' => ih m' (hx.2 m')⟩
  | interrupt m home code c resume ih => exact fun m' c' => ih m' c' (hx m' c')
  | enter m code a resume ih => exact fun m' o => ih m' o (hx m' o)

/-- By itself, a call that begins so does not stop for a bad reason. -/
theorem Avoids.stop? {Q : α → Kernel G → Prop} {x : Run G α} {why : Halt}
    (hx : x.Avoids bad J Q calm) (hc : calm) (h : x.stop? = some why) : ¬ bad why := by
  induction x with
  | halt m why' =>
    cases h
    exact hx hc
  | window m w resume ih => exact ih m hx.1 h
  | done | interrupt | enter => cases h

end Run

/-- Wherever it begins, the call does not stop for a bad reason in a segment that begins with
`J`. -/
def Call.Avoids (bad : Halt → Prop) (J : Kernel G → Prop) (Q : α → Kernel G → Prop)
    (x : Call G α) : Prop :=
  ∀ m, (x m).Avoids bad J Q (J m.kernel)

/-- Nor does what is left of it, once others have come in between. -/
theorem Run.Avoids.rests {bad : Halt → Prop} {J : Kernel G → Prop} {Q : α → Kernel G → Prop}
    {calm : Prop} {p : Bool} {x : Run G α} {n : Machine G} {rest : Call G α}
    (hx : x.Avoids bad J Q calm) (h : x.Rests p n (.inr rest)) : rest.Avoids bad J Q := by
  induction x with
  | done m a => cases h
  | halt m why => cases h
  | window m w resume ih =>
    cases p with
    | false => exact ih m hx.1 (rests_window.mp h)
    | true =>
      obtain ⟨-, hrest⟩ := rests_window_pausing.mp h
      obtain rfl := Sum.inr.inj hrest
      exact hx.2
  | interrupt m home code c resume ih =>
    obtain ⟨-, c', hrest⟩ := rests_interrupt.mp h
    obtain rfl := Sum.inr.inj hrest
    exact fun m' => hx m' c'
  | enter m code a resume ih =>
    obtain ⟨-, o, hrest⟩ := rests_enter.mp h
    obtain rfl := Sum.inr.inj hrest
    exact fun m' => hx m' o

namespace Call

variable {bad : Halt → Prop} {J : Kernel G → Prop} {Q : α → Kernel G → Prop} {x : Call G α}

/-- A masked stretch has a window, and does what its body does. -/
theorem avoids_masked (hx : x.Avoids bad J Q) : (masked x).Avoids bad J Q := by
  intro m
  rw [masked_apply]
  exact ⟨(hx { m with chip := m.chip.mask }).bind fun _ _ hn => hn,
    fun m' => (hx m').bind fun _ _ hn => hn⟩

/-- So does a locked stretch, unless it stops for want of the lock. -/
theorem avoids_locked {l : Lock} (hlock : ¬ bad (.deadlock l)) (hx : x.Avoids bad J Q) :
    (locked l x).Avoids bad J Q := by
  refine avoids_masked fun m => ?_
  by_cases hl : l ∈ m.chip.held
  · rw [bind_apply, acquire_apply_of_mem hl]
    exact fun _ => hlock
  · rw [bind_of_done (acquire_apply_of_not_mem hl)]
    exact (hx { m with chip := m.chip.acquire l }).bind fun _ _ hn => hn

/-- And one whose lock is given back late, if others who come in before that leave what is asked at
its end. -/
theorem avoids_overheld {l : Lock} (hlock : ¬ bad (.deadlock l)) (hx : x.Avoids bad J Q)
    (hQ : ∀ a k, J k → Q a k) : (overheld l x).Avoids bad J Q := by
  have hbody : Call.Avoids bad J Q (acquire l >>= fun _ => x) := by
    intro m
    by_cases hl : l ∈ m.chip.held
    · rw [bind_apply, acquire_apply_of_mem hl]
      exact fun _ => hlock
    · rw [bind_of_done (acquire_apply_of_not_mem hl)]
      exact hx { m with chip := m.chip.acquire l }
  intro m
  rw [overheld_apply]
  exact (avoids_masked hbody m).bind fun a m' => ⟨id, fun m'' => hQ a m''.kernel⟩

/-- The second call starts from what the first has kept. -/
theorem avoids_bind {f : α → Call G β} {R : β → Kernel G → Prop}
    (hx : x.Avoids bad J fun _ k => J k) (hf : ∀ a, (f a).Avoids bad J R) :
    (x >>= f).Avoids bad J R :=
  fun m => (hx m).bind fun a m' => hf a m'

/-- **A call stops for the reasons that it is built with**, and for want of a lock, wherever it
begins. -/
theorem Built.avoids {S : Halt → Prop} {D : Discipline} {n : Nat} (hx : x.Built S D n)
    (hS : ∀ why, S why → ¬ bad why) (hlock : ∀ l, ¬ bad (.deadlock l)) :
    x.Avoids bad (fun _ => True) fun _ _ => True := by
  induction hx with
  | pure | read | current | nextContext | change | bringUp | mint | notify | arm | note =>
    exact fun _ _ => trivial
  | bind _ _ ihx ihf => exact avoids_bind ihx ihf
  | stop why _ allowed => exact fun _ _ => hS why allowed
  | masked _ ih => exact avoids_masked ih
  | locked l _ _ ih => exact avoids_locked (hlock l) ih
  | overheld c _ _ _ ih => exact avoids_overheld (hlock (.dpcs c)) ih fun _ _ _ => trivial
  | pause w => exact fun _ => ⟨fun _ => trivial, fun _ _ => trivial⟩
  | interrupt | enter => exact fun _ _ _ _ => trivial

end Call

namespace Op

/-- By itself where no lock is held, an operation stops only for the reasons that it may stop
for. -/
theorem mayStop_of_stop? {op : Op G} {m : Machine G} {why : Halt} (free : m.chip.held = [])
    (h : (op.call m).stop? = some why) : op.MayStop why := by
  have hunlocks := op.built_loose.unlocks (m := m) (by rw [free]; nofun)
  have hlock (l : Lock) : why ≠ .deadlock l := hunlocks.stop? h l
  have havoids : op.call.Avoids (fun why => ¬ op.MayStop why ∧ ∀ l, why ≠ .deadlock l)
      (fun _ => True) fun _ _ => True :=
    op.built_loose.avoids (fun _ hS hbad => hbad.1 hS) fun l hbad => hbad.2 l rfl
  exact Classical.byContradiction fun hS => (havoids m).stop? trivial h ⟨hS, hlock⟩

/-- An operation that neither switches nor puts a thread aside, nor asks for the executing core, nor
runs the body of a thread, has no reason to stop for good. -/
theorem not_mayStop {op : Op G} (hturn : ∀ c, op.scope ≠ .turning c)
    (hdispatch : op.scope ≠ .dispatching) (hdelay : ∀ c, ¬ op.MayDelay c) (hcore : ¬ op.AsksCore)
    (hrun : ∀ t, op ≠ runThread t) (why : Halt) : ¬ op.MayStop why := by
  cases why with
  | panic why =>
    cases why with
    | noRunnable c => exact fun h => h.elim (hturn c) hdispatch
    | tickOverflow c => exact fun h => h.elim (hturn c) hdispatch
    | delayWithoutThread c => exact hdelay c
    | unmanagedCore c => exact hcore
    | startFailed | unhandled | coreOverflow => exact id
  | exhausted => exact hdispatch
  | idle => exact fun ⟨t, h⟩ => hrun t h
  | transfer | deadlock => exact id

/-- **An operation that runs no client code returns** where no lock is held, unless it may stop for
good. -/
theorem returns_call {here : CoreId} {op : Op G} {f : Effect G op.Result} {m : Machine G}
    (hf : op.effect here = some f) (free : m.chip.held = []) (hm : m.chip.current = here)
    (hstop : ∀ why, ¬ op.MayStop why) : (op.call m).Returns := by
  rcases (op.call m).ending?_or_stop? with h | ⟨why, h⟩ | ⟨n, rest, h⟩
  · exact h
  · exact absurd (mayStop_of_stop? free h) (hstop why)
  · obtain ⟨-, -, ha⟩ := does_call hf hm h
    cases ha

end Op

namespace System

variable {s₀ s s' : System G} {seg : Segment G} {history : List (Segment G)}

/-- No lock is held, and what is left of the operations in progress will hold none. -/
structure Unlocked (s : System G) : Prop where
  /-- no lock is held -/
  held : s.machine.chip.held = []
  /-- operations in progress give back what they take -/
  tasks : ∀ task ∈ s.tasks, ∀ m : Machine G, m.chip.held = [] → (task.rest m).Unlocks []

/-- An operation that runs no client code and returns is carried out, with its effect. -/
theorem exists_step_of_returns {core : CoreId} {op : Op G} {f : Effect G op.Result}
    (managed : s.machine.kernel.manages core = true) (valid : op.Valid s.machine.kernel)
    (effect : op.effect core = some f) (returns : (op.call (s.machine.on core)).Returns) :
    ∃ s', Step s ⟨core, op, true, s.machine.kernel, (f s.machine.kernel).1,
      some (f s.machine.kernel).2⟩ s' := by
  obtain ⟨n, a, hn⟩ := returns
  have hrests := Run.rests_of_ending? hn
  obtain ⟨-, hk, ha⟩ := Op.does_call effect (m := s.machine.on core) rfl hrests
  obtain rfl := Sum.inl.inj ha
  have hstep := Step.call core op false managed valid nofun hrests
  rw [hk] at hstep
  exact ⟨_, hstep⟩

/-- Where no lock is held, an operation that has no reason to stop is carried out, with its
effect. -/
theorem Unlocked.exists_step (hs : s.Unlocked) {core : CoreId} (op : Op G) {f : Effect G op.Result}
    (managed : s.machine.kernel.manages core = true)
    (valid : op.Valid s.machine.kernel) (effect : op.effect core = some f)
    (hstop : ∀ why, ¬ op.MayStop why) :
    ∃ s', Step s ⟨core, op, true, s.machine.kernel, (f s.machine.kernel).1,
      some (f s.machine.kernel).2⟩ s' :=
  exists_step_of_returns managed valid effect
    (Op.returns_call (m := s.machine.on core) effect hs.held rfl hstop)

/-- Nothing is locked and nobody under way after a boot. -/
theorem unlocked_start {m : Machine G} (free : m.chip.held = []) : Unlocked ⟨m, []⟩ :=
  ⟨free, forall_tasks_start⟩

/-- Each step gives back the locks that it takes. -/
theorem Step.unlocked (h : Step s seg s') (hs : s.Unlocked) : s'.Unlocked := by
  -- what a call does whose first segment may be stopped at a window
  have hcall {op : Op G} {core : CoreId} {p : Bool} {m : Machine G}
      {r : op.Result ⊕ Call G op.Result}
      (rests : (op.call (s.machine.on core)).Rests p m r) : m.chip.held = [] ∧
        ∀ rest, r = .inr rest → ∀ m, m.chip.held = [] → (rest m).Unlocks [] := by
    have hheld : (s.machine.on core).chip.held = [] := hs.held
    have hrun := op.built_loose.unlocks (m := s.machine.on core) (by rw [hheld]; nofun)
    have hopen := op.built_loose.opens (s.machine.on core)
    rw [hheld] at hrun hopen
    exact hrun.rests (fun _ => hopen) rests
  refine ⟨?_, h.tasks hs.tasks (fun _ _ _ _ rest _ rests => (hcall rests).2 rest rfl)
    fun task htask _ rest rests => ?_⟩
  · cases h with
    | call core op pausing managed valid mayPause rests => exact (hcall rests).1
    | resume task older newer tasks rests =>
      have htask : task ∈ s.tasks := by simp [tasks]
      exact ((hs.tasks task htask (s.machine.on task.core) hs.held).rests (p := false) nofun
        rests).1
  · exact ((htask (s.machine.on task.core) hs.held).rests (p := false) nofun rests).2 rest rfl

/-- **Between the segments of a run no lock is held.** -/
theorem Runs.unlocked (run : Runs s₀ history s) (hs : s₀.Unlocked) : s.Unlocked := by
  induction run with
  | start => exact hs
  | step _ next ih => exact next.unlocked ih

end System

/-- A boot leaves no lock held. -/
theorem Machine.held_of_boot? {hardware : Hardware} {config : Config} {m : Machine G}
    (h : Machine.boot? hardware config = some m) : m.chip.held = [] := by
  simp only [Machine.boot?] at h
  split at h
  next m' hrun =>
    cases h
    have hbuilt : (Call.boot hardware config : Call G (Outcome Unit)).Built (fun _ => False)
        .nested 0 :=
      Call.built_boot hardware config
    have hunlocks := hbuilt.unlocks (m := {}) (List.forall_mem_nil _)
    have hwhole : false ≠ true := Bool.false_ne_true
    exact (hunlocks.rests (fun hp => absurd hp hwhole) (Run.rests_of_ending? hrun)).1
  next => cases h

end Nucleus
