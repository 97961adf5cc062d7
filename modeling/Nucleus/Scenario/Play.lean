import Nucleus.Boot
import Nucleus.Reading
import Nucleus.Scenario.World

/-!
# Playing a scenario

The interpreter of scripts. A step looks up what it refers to, performs one kernel call, and turns
the outcome into an answer. While a call is in progress the scenario is its environment: it runs
client code that the call asks for, and what was put in as a *race* comes in between at the first
moment of the step at which interrupts have just been masked.

Scripts nest: races, thread bodies and programs play steps while a step is being played. `Host` is
what a level of nesting offers to the calls of that level; `host` builds it from the level below
and takes fuel for the depth. The same fuel bounds how many deferred calls one drain may run.
-/

namespace Nucleus.Scenario

/-- What the scenario offers to a call in progress. -/
structure Host where
  /-- play nested steps, up to the first that is refused -/
  nested : List Step → Play (Outcome Unit)
  /-- run a program of a core -/
  routine : CoreId → Program → Context → Play Context
  /-- run a thread body -/
  entry : Entry → UInt64 → Play (Outcome Unit)

variable {α : Type}

/-! ## Calls in progress -/

/-- Put the machine of a call in progress into the world. -/
def settle (m : Machine guest) : Play Unit := modify fun w => { w with machine := m }

/-- Interrupts have just been masked, or others may come in otherwise: the race comes in at the
first masking. -/
def interfere (h : Host) : Window → Play Unit
  | .unlocked => return ()
  | .masked => do
    if let some steps := (← get).race then
      modify fun w => { w with race := none }
      discard <| h.nested steps

/-- Carry a call through to its end. -/
def drive (h : Host) : Run guest α → Play α
  | .done m a => do
    settle m
    return a
  | .halt m why => do
    settle m
    throw (.halt why)
  | .window m w resume => do
    settle m
    interfere h w
    drive h (resume (← get).machine)
  | .interrupt m home code context resume => do
    settle m
    let c ← h.routine home code context
    drive h (resume (← get).machine c)
  | .enter m code argument resume => do
    settle m
    let r ← h.entry code argument
    drive h (resume (← get).machine r)

/-- Perform a call. -/
def perform (h : Host) (call : Call guest α) : Play α := do drive h (call (← get).machine)

/-! ## Turning outcomes into answers -/

/-- Done, or refused. -/
def answerDone : Outcome Unit → Answer
  | .ok () => .ok
  | .error why => .refused why

/-- Yes or no, or refused. -/
def answerTruth : Outcome Bool → Answer
  | .ok b => .truth b
  | .error why => .refused why

/-- Run the body of a step that gets hold of a handle, and append the slot; it stays empty unless
the body succeeds and there is a handle. -/
def keepingHandle (body : Play (Outcome (Option Handle))) : Play (Outcome (Option Handle)) := do
  let r ← tryCatch body fun stop => do keepHandle none; throw stop
  match r with
  | .ok h => keepHandle h
  | .error _ => keepHandle none
  return r

/-- A handle, or none, or refused. -/
def answerHandle : Outcome (Option Handle) → Play Answer
  | .ok (some h) => viewHandle h
  | .ok none => return .unit
  | .error why => return .refused why

/-- A step that gets hold of a handle. -/
def withHandle (body : Play (Outcome (Option Handle))) : Play Answer := do
  answerHandle (← keepingHandle body)

/-- The event that was made, if one was. -/
def madeEvent : Outcome (Option Handle) → Option EventId
  | .ok (some ⟨⟨.event e, _⟩, _⟩) => some e
  | _ => none

/-- A typed handle of an accessor. -/
def typed (r : Outcome Accessor) : Outcome (Option Handle) := r.map fun a => some { accessor := a }

/-- The configuration as the executing core sees it. -/
def infoAnswer (h : Host) : Play Answer := do
  let c ← perform h Call.currentCore
  let k ← kernel
  let idle := match k.idleOf? c with
    | some t => k.descriptionOf t
    | none => ""
  return .info k.cores.length c k.slice idle k.config (!k.manages k.cores.length)

/-- An object in words; as a thread, only if it is known to be one. -/
def describeObject (r : ObjectRef) : Play Answer := do
  let x ← objectOf r
  let known ← kindKnown r
  let k ← kernel
  let thread := match known, x with
    | true, .thread t => (k.threads[t]?).map (Describe.thread t)
    | _, _ => none
  return .description (Describe.link (k.objects.link? x)) thread Describe.dpc

/-- A wait entry in words. -/
def describeWait (i : WaitId) : Play Answer := do
  let k ← kernel
  match k.waits[i]? with
  | none => skip .noEntry
  | some entry =>
    match k.threads[entry.thread]? with
    | none => skip .noEntry
    | some th => return .text (Describe.wait (Describe.thread entry.thread th) entry.signaled)

/-- The link of an object. -/
def headerAnswer (x : ObjectId) : Play Answer := do
  let ns := (← kernel).objects
  let l := ns.link? x
  let parent ← match l with
    | some l => some <$> viewObject (.directory l.parent)
    | none => pure none
  return .header (ns.nameOf x) l.isSome parent (ns.valid x) x.kind (ns.opens x).isSome

/-! ## Steps -/

/-- Play steps several times over, each time up to the first that is refused. -/
def playAgain (h : Host) (steps : List Step) : Nat → Play Unit
  | 0 => return ()
  | n + 1 => do
    discard <| h.nested steps
    playAgain h steps n

/-- Play a step. -/
def playStep (fuel : Nat) (h : Host) : Step → Play Answer
  -- the chip and the kernel
  | .setCore c => do
    modify fun w => { w with machine.chip.current := c }
    return .unit
  | .setInterrupts on => do
    let was := (← get).machine.chip.interrupts
    modify fun w => { w with machine.chip.interrupts := on }
    return .truth was
  | .state => return .state (← get).view
  | .again n steps => do
    playAgain h steps n
    return .unit
  | .info => infoAnswer h
  -- threads
  | .create entry description => do
    let t ← perform h (Call.createThread (G := guest) entry description)
    modify fun w => { w with threads := w.threads ++ [t] }
    return .thread (threadRow (← kernel) t)
  | .detached entry description => do
    let t ← perform h (Call.newThread (.guest entry) description)
    modify fun w => { w with threads := w.threads ++ [t] }
    return .thread (threadRow (← kernel) t)
  | .thread t => do
    let t ← threadOf t
    return .threadInfo (threadRow (← kernel) t) ((← kernel).descriptionOf t)
  | .start t argument => do
    let t ← threadOf t
    return .truth (← perform h (Call.startThreadHere t argument))
  | .schedStart t core => do
    let t ← threadOf t
    let c ← coreOf core
    return .truth (← perform h (Call.startThread c t))
  | .run t => do
    let t ← threadOf t
    if (← kernel).cores.any (·.idle == t) then skip .idleNeverReturns
    return answerDone (← perform h (Call.runThread t))
  | .exit t code => do
    let t ← threadOf t
    return answerDone (← perform h (Call.exitThread t code))
  | .exitCurrent code => return answerDone (← perform h (Call.exitThreadHere code))
  | .kill t core => do
    let t ← threadOf t
    let c ← coreOf core
    return answerDone (← perform h (Call.killThread c t))
  | .undelay t => do
    let t ← threadOf t
    return answerTruth (← perform h (Call.undelayThread t))
  | .schedUndelay t core => do
    let t ← threadOf t
    let c ← coreOf core
    return .truth (← perform h (Call.undelay c t))
  | .claim t core => do
    let t ← threadOf t
    return .truth (← perform h (Call.claimFor t core))
  | .disown t core => do
    let t ← threadOf t
    return .truth (← perform h (Call.disownFor t core))
  | .delay span => return answerDone (← perform h (Call.delayHere span))
  | .schedDelay span core => do
    let c ← coreOf core
    return answerDone (← perform h (Call.delay c span))
  -- scheduling and interrupts
  | .bootstrap core => do
    let c ← coreOf core
    match ← perform h (Call.bootstrap c) with
    | .ok x =>
      carry c x
      return .context x
    | .error why => return .refused why
  | .startKernel => do
    let never ← perform h Call.startSchedulingHere
    nomatch never
  | .dispatch irq context => do
    let irq ← irqOf irq
    let c := (← get).machine.chip.current
    let x ← contextOf c context
    let d ← perform h (Call.dispatchHere fuel irq x)
    if let .resume next := d then carry c next
    return .dispatched d
  | .coreDispatch irq context core => do
    let irq ← irqOf irq
    let c ← coreOf core
    let x ← contextOf c context
    let d ← perform h (Call.dispatch fuel c irq x)
    if let .resume next := d then carry c next
    return .dispatched d
  | .trap irq context => do
    let irq ← irqOf irq
    let x ← contextOf (← get).machine.chip.current context
    let never ← perform h (Call.handleTrap fuel irq x)
    nomatch never
  | .yieldThread core context => do
    let c ← coreOf core
    let next ← perform h (Call.yieldThread c (← contextOf c context))
    carry c next
    return .context next
  | .onTick core context => do
    let c ← coreOf core
    let next ← perform h (Call.onTick c (← contextOf c context))
    carry c next
    return .context next
  | .dpc program => do
    perform h (Call.registerDpcHere fun c => .routine c program)
    return .unit
  | .coreDpc program core => do
    let c ← coreOf core
    perform h (Call.registerDpc c (.routine c program))
    return .unit
  | .pending core => do
    let c ← coreOf core
    return .count (← perform h (Call.pendingDpcs c))
  | .registerIrq irq program core => do
    let irq ← irqOf irq
    let c ← coreOf core
    let old ← perform h (Call.registerIrq c irq (.routine c program))
    keepPrevious old
    return .truth old.isSome
  | .callPrevious p context => do
    let handler ← previousOf p
    return .context (← perform h (Call.runHandler fuel handler context))
  | .reinstall p irq core => do
    let handler ← previousOf p
    let irq ← irqOf irq
    let c ← coreOf core
    let old ← perform h (Call.registerIrq c irq handler)
    keepPrevious old
    return .truth old.isSome
  -- events
  | .event autoReset => do
    let e ← perform h (Call.newEvent autoReset)
    keepEvent (some e)
    let k ← kernel
    return .newEvent (k.isRaised e) (k.isAutoReset e) (k.objects.valid (.event e))
  | .eventCreate name autoReset parent => do
    let body : Play (Outcome (Option Handle)) := do
      let parent ← parentOf parent
      return typed (← perform h (Call.createEvent name autoReset parent))
    let r ← tryCatch (keepingHandle body) fun stop => do keepEvent none; throw stop
    keepEvent (madeEvent r)
    answerHandle r
  | .set e => do
    let e ← eventOf e
    perform h (Call.signalEvent e)
    return .ok
  | .reset e => do
    let e ← eventOf e
    perform h (Call.resetEvent e)
    return .unit
  | .eventState e => do
    let e ← eventOf e
    let k ← kernel
    return .eventState (k.isRaised e) (k.isAutoReset e) (← perform h (Call.waiterCount e))
  | .wait e span => do
    let e ← eventOf e
    return answerDone (← perform h (Call.waitEvent e span))
  | .enqueue e span => do
    let body : Play (Outcome (Option WaitId)) := do
      let e ← eventOf e
      perform h (Call.enqueueWait e span)
    match ← tryCatch body fun stop => do keepWait none; throw stop with
    | .ok (some i) =>
      keepWait (some i)
      return .queued
    | .ok none =>
      keepWait none
      return .taken
    | .error why =>
      keepWait none
      return .refused why
  | .complete e i => do
    let e ← eventOf e
    let i ← waitOf i
    return answerDone (← perform h (Call.completeWait e i))
  -- names
  | .root => withHandle (return .ok (some { accessor := Namespace.rootAccessor }))
  | .makeDirectory name parent => withHandle do
    let parent ← parentOf parent
    return typed (← perform h (Call.createDirectory name parent))
  | .newDirectory => do
    let x ← perform h Call.newDirectory
    modify fun w => { w with bares := w.bares ++ [x] }
    return .unit
  | .newDevice valid inner => do
    let inner ← match inner with
      | some r => some <$> directoryOf r
      | none => pure none
    let x ← perform h (Call.newDevice { valid, inner })
    modify fun w => { w with bares := w.bares ++ [x] }
    return .unit
  | .publish object name parent => withHandle do
    let x ← nameableOf object
    let parent ← parentOf parent
    return typed (← perform h (Call.createObject x name parent))
  | .openObject kind path want parent => withHandle do
    let parent ← parentOf parent
    return typed ((← kernel).objects.openAt parent kind path want)
  | .tryOpen kind path want parent => withHandle do
    let parent ← parentOf parent
    return ((← kernel).objects.tryOpen parent kind path want).map fun found =>
      found.map fun a => { accessor := a }
  | .openFrom start kind path want => withHandle do
    let x ← objectOf start
    return typed ((← kernel).objects.openFrom x kind path want)
  | .parse start path want => do
    let x ← objectOf start
    let ns := (← kernel).objects
    match ns.opens x with
    | none => skip .notParseable
    | some d =>
      match ns.parse d path (AccessState.new want) with
      | .error why => return .refused why
      | .ok (y, access) => return .parsed (← viewObject y) access
  | .narrow i mask => withHandle do
    let a ← handleOf i
    return .ok (some { a with accessor := a.accessor.narrow mask })
  | .upcast i => withHandle do
    let a ← handleOf i
    return .ok (some { a with erased := true })
  | .cast i kind => withHandle do
    let a ← handleOf i
    return typed (a.accessor.cast kind)
  | .check i required => do
    let a ← handleOf i
    return answerDone (a.accessor.check required)
  | .handle i => do viewHandle (← handleOf i)
  | .fullPath object => do
    let x ← objectOf object
    match (← kernel).objects.fullPath? x with
    | some path => return .text path
    | none => throw (.halt .exhausted)
  | .header object => do headerAnswer (← objectOf object)
  | .names object => do
    let d ← directoryOf object
    let ns := (← kernel).objects
    return .names (((ns.directories[d]?).getD []).names)
  | .lookup object name => do
    let d ← directoryOf object
    match (← kernel).objects.child d name with
    | some x => return .object (← viewObject x)
    | none => return .unit
  -- descriptions
  | .describeWait i => do describeWait (← waitOf i)
  | .describeHandle i => do
    let a ← handleOf i
    return .text (Describe.handle a.accessor.granted)
  | .describeObject object => describeObject object
  | .malformed why => skip why

/-- Play a step; being passed over is an answer. -/
def answer (fuel : Nat) (h : Host) (step : Step) : Play Answer :=
  tryCatch (playStep fuel h step) fun stop =>
    match stop with
    | .skip why => return .skipped why
    | .halt why => throw (.halt why)

/-! ## Nesting -/

/-- Play nested steps; the first that is refused ends them. -/
def playNested (fuel : Nat) (h : Host) : List Step → Play (Outcome Unit)
  | [] => return .ok ()
  | step :: steps => do
    let a ← answer fuel h step
    exhibit (.answer a)
    match a with
    | .refused why => return .error why
    | _ => playNested fuel h steps

/-- Run a program of a core. -/
def runProgram (h : Host) (home : CoreId) : Program → Context → Play Context
  | [], c => return c
  | .put n :: rest, _ => runProgram h home rest n
  | .add n :: rest, c => runProgram h home rest (c + n)
  | .mul n :: rest, c => runProgram h home rest (c * n)
  | .see label :: rest, c => do
    exhibit (.mark label c)
    runProgram h home rest c
  | .dpc program :: rest, c => do
    perform h (Call.registerDpc home (.routine home program))
    runProgram h home rest c
  | .play step :: rest, c => do
    discard <| h.nested [step]
    runProgram h home rest c

/-- Run a thread body. -/
def runEntry (h : Host) (entry : Entry) (argument : UInt64) : Play (Outcome Unit) := do
  match entry with
  | .noop => return .ok ()
  | .fail => return .error (.ofIndex argument.toNat)
  | .script =>
    match (← get).scripts[argument.toNat]? with
    | some steps => h.nested steps
    | none => return .ok ()
  | .spawn =>
    let t ← perform h (Call.createThread (G := guest) Entry.noop "child")
    discard <| perform h (Call.startThreadHere t argument)
    return .ok ()

/-- What a level of nesting offers, by the depth that is left below it. -/
def host : Nat → Host
  | 0 =>
    { nested := fun _ => throw (.halt .exhausted)
      routine := fun _ _ _ => throw (.halt .exhausted)
      entry := fun _ _ => throw (.halt .exhausted) }
  | n + 1 =>
    { nested := fun steps => playNested n (host n) steps
      routine := fun home program c => runProgram (host n) home program c
      entry := fun entry argument => runEntry (host n) entry argument }

end Nucleus.Scenario
