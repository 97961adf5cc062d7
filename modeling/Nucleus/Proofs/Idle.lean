import Nucleus.Proofs.Interrupts

/-!
# The idle thread

A core stops for good when it has to switch and nobody is ready, and when it is told to put a thread
aside and nobody is switched in. Neither happens as long as a thread stands by: a thread of the
rotation that is neither ended nor put aside. That is what an idle thread is for. The slot is never
emptied, and no operation takes the thread out of the rotation but those that end it and those that
find it in the slot and put it aside.

* `Kernel.Manned` says that a thread stands by, and `Segment.ended` who is ended by a segment.
* `Op.survives_call` says that no operation stops for one of the two reasons while a thread stands
  by.
* `System.Step.manned` says that a segment leaves a thread standing by, unless it ends the thread or
  puts it aside.
* `manned_core_never_fatal` is about whole runs.
-/

namespace Nucleus

variable {G : Guest}

namespace Kernel

variable {k k' : Kernel G} {c d : CoreId} {t u : ThreadId}

/-! ## A thread that stands by -/

/-- A thread stands by on a core: it is in the rotation, and somebody is switched in. -/
structure Manned (k : Kernel G) (c : CoreId) (t : ThreadId) : Prop where
  /-- it is in the rotation -/
  ready : t ∈ (k.queues c).ready
  /-- somebody is switched in -/
  slot : (k.queues c).running ≠ none

/-- Whether a thread stands by can be told from the queues of its core. -/
theorem Manned.of_queues (h : k.Manned c t) (hq : k'.queues c = k.queues c) : k'.Manned c t := by
  refine ⟨?_, ?_⟩ <;> rw [hq]
  · exact h.ready
  · exact h.slot

/-- A thread stands in the rotation as often as before, or more often. -/
theorem mem_ready_of_count (h : t ∈ (k.queues c).ready)
    (hcount : k.count c .ready t ≤ k'.count c .ready t) : t ∈ (k'.queues c).ready :=
  k'.count_pos_iff.mp (Nat.lt_of_lt_of_le (k.count_pos_iff (i := .ready) |>.mpr h) hcount)

/-- A move of another thread leaves it in the rotation. -/
theorem mem_ready_moves {o : Option CoreId} {s : ThreadState} (hm : k.Moves k' u o s) (hne : u ≠ t)
    (h : t ∈ (k.queues c).ready) : t ∈ (k'.queues c).ready :=
  mem_ready_of_count h (Nat.le_of_eq (hm.count_of_ne c .ready t hne).symm)

/-- A change of a core outside its queues. -/
theorem mem_ready_updateCore {f : Core G → Core G} (hf : ∀ core, (f core).queues = core.queues)
    (h : t ∈ (k.queues c).ready) : t ∈ ((k.updateCore d f).queues c).ready := by
  rwa [queues_updateCore k hf]

/-- Nobody leaves a rotation where a core takes a thread, -/
theorem mem_ready_start (hd : k.manages d = true) (h : t ∈ (k.queues c).ready) :
    t ∈ (((k.setOwner u (some d)).makeReady d u).queues c).ready := by
  refine mem_ready_of_count h ?_
  rw [count_makeReady (k.setOwner u (some d)) hd]
  exact Nat.le_add_right _ _

/-- be it refused or not. -/
theorem mem_ready_startThread (hd : k.manages d = true) (h : t ∈ (k.queues c).ready) :
    t ∈ ((Effect.startThread d u k).1.queues c).ready := by
  simp only [Effect.startThread]
  split
  · exact h
  · split
    · exact mem_ready_start hd h
    · exact h

/-- The end of another thread leaves it in the rotation. -/
theorem mem_ready_killThread (hd : k.manages d = true) (hne : u ≠ t)
    (h : t ∈ (k.queues c).ready) : t ∈ ((Effect.killThread d u k).1.queues c).ready := by
  have hk := mem_ready_moves (moves_kill hd u) hne h
  simp only [Effect.killThread]
  split
  · dsimp only
    split
    · exact mem_ready_updateCore (fun _ => rfl) hk
    · exact hk
  · exact h

/-- Nobody leaves a rotation by being woken, -/
theorem mem_ready_wake (hp : (k.queues d).isParked u = true) (h : t ∈ (k.queues c).ready) :
    t ∈ ((k.wake d u).queues c).ready := by
  refine mem_ready_of_count h ?_
  rw [count_wake k (manages_of_isParked hp),
    if_neg fun h => (k.queues d).parkedIn_ne_ready u h.2.1.symm]
  exact Nat.le_add_right _ _

/-- or when a core begins to schedule. -/
theorem mem_ready_bootstrap (hd : k.manages d = true) (h : t ∈ (k.queues c).ready) :
    t ∈ ((Effect.install d (Effect.prepare d k)).1.queues c).ready := by
  have hmark : t ∈ ((k.updateCore d fun core => { core with started := true }).queues c).ready :=
    mem_ready_updateCore (fun _ => rfl) h
  have hprepared : t ∈ ((Effect.prepare d k).queues c).ready := by
    simp only [Effect.prepare, Effect.bringIdle]
    split
    · exact hmark
    · exact mem_ready_startThread ((k.manages_updateCore d d _).trans hd) hmark
  simp only [Effect.install, Effect.switchFirst]
  cases hu : ((Effect.prepare d k).queues d).ready.head? with
  | none => exact hprepared
  | some u =>
    have hd' := manages_of_mem_ready (List.mem_of_head? hu)
    have hswitched : t ∈ (((Effect.prepare d k).switchTo d u).queues c).ready :=
      mem_ready_of_count hprepared (Nat.le_of_eq (count_switchTo _ hd' u c .ready t).symm)
    exact mem_ready_updateCore (fun _ => rfl) hswitched

/-- **Only a kill takes a thread out of the rotation**, of all changes. -/
theorem mem_ready_apply {ch : Change G} (enabled : ch.Enabled k) (hkill : ∀ d, ch ≠ .kill d t)
    (h : t ∈ (k.queues c).ready) : t ∈ ((ch.apply k).queues c).ready := by
  cases ch with
  | start d u => exact mem_ready_start enabled.1 h
  | kill d u =>
    refine mem_ready_killThread enabled.1 ?_ h
    rintro rfl
    exact hkill d rfl
  | wake d u => exact mem_ready_wake enabled h
  | advance d => exact mem_ready_advance d h
  | turn d context =>
    exact mem_ready_of_count h (Nat.le_of_eq (k.count_turn d context c .ready t).symm)
  | bootstrap d => exact mem_ready_bootstrap enabled.1 h
  | defer | undefer => exact mem_ready_updateCore (fun _ => rfl) h
  | setHandler d irq handler => exact mem_ready_updateCore (fun _ => by cases irq <;> rfl) h
  | addThread | adjust | addEvent | setRaised | setWaiters | addWait | updateWait | setObjects =>
    exact h

/-- Nor does putting another thread aside, or a thread of another core. -/
theorem mem_ready_setAside (wake : Option Nat) (hr : d = c → (k.queues c).running ≠ some t)
    (h : t ∈ (k.queues c).ready) : t ∈ ((k.setAside d wake).queues c).ready := by
  cases hu : (k.queues d).running with
  | none =>
    simp only [setAside]
    rwa [hu]
  | some u =>
    refine mem_ready_of_count h ?_
    rw [count_setAside hu, if_neg]
    · exact Nat.le_add_right _ _
    · rintro ⟨rfl, -, rfl⟩
      exact hr rfl hu

/-- It stands by after every change that does not end it. -/
theorem Manned.apply (h : k.Manned c t) (ch : Change G) (enabled : ch.Enabled k)
    (hkill : ∀ d, ch ≠ .kill d t) : (ch.apply k).Manned c t :=
  ⟨mem_ready_apply enabled hkill h.ready, occupied_apply enabled h.slot⟩

/-- It stands by unless it is put aside itself. -/
theorem Manned.setAside (h : k.Manned c t) (wake : Option Nat)
    (hr : d = c → (k.queues c).running ≠ some t) : (k.setAside d wake).Manned c t :=
  ⟨mem_ready_setAside wake hr h.ready, by rw [running_setAside]; exact h.slot⟩

/-- It stands by after a tick, -/
theorem Manned.advance (h : k.Manned c t) (d : CoreId) : (k.advance d).Manned c t :=
  ⟨mem_ready_advance d h.ready, by rw [running_advance]; exact h.slot⟩

/-- after a switch, -/
theorem Manned.turn (h : k.Manned c t) (d : CoreId) (x : Context) :
    (Effect.yieldThread d x k).1.Manned c t :=
  h.apply (.turn d x) trivial nofun

/-- and whatever deferred calls are queued. -/
theorem Manned.setDpcs (h : k.Manned c t) (d : CoreId) (ds : List (Dpc G)) :
    (k.setDpcs d ds).Manned c t :=
  h.of_queues (k.queues_setDpcs d ds c)

end Kernel

/-! ## No call stops while a thread stands by -/

/-- The core has stopped because nobody was ready, or because nobody was switched in. -/
def Halt.FatalOn (c : CoreId) : Halt → Prop
  | panic (.noRunnable d) => d = c
  | panic (.delayWithoutThread d) => d = c
  | _ => False

namespace Call

variable {α β : Type} {c : CoreId} {t : ThreadId}

/-- The call does not stop the core while the thread stands by, and leaves the thread standing
by. -/
def Spares (c : CoreId) (t : ThreadId) (x : Call G α) : Prop :=
  x.Avoids (Halt.FatalOn c) (·.Manned c t) fun _ k => k.Manned c t

/-- The call does not stop the core while the thread stands by. -/
def Survives (c : CoreId) (t : ThreadId) (x : Call G α) : Prop :=
  x.Avoids (Halt.FatalOn c) (·.Manned c t) fun _ _ => True

/-- A call whose stops are not fatal on the core survives. -/
theorem survives_of_built {S : Halt → Prop} {D : Discipline} {n : Nat} {x : Call G α}
    (hx : x.Built S D n) (hS : ∀ why, S why → ¬ why.FatalOn c) : x.Survives c t :=
  fun m => (hx.avoids hS (fun _ => id) m).imp (fun _ _ => trivial) fun _ => trivial

/-- One call after the other, each of which leaves the thread standing by. -/
theorem Spares.bind {x : Call G α} {f : α → Call G β} (hx : x.Spares c t)
    (hf : ∀ a, (f a).Spares c t) : (x >>= f).Spares c t :=
  avoids_bind hx hf

/-- Once the thread may have been put aside, nothing may follow that stops. -/
theorem Survives.bind {D : Discipline} {n : Nat} {x : Call G α} {f : α → Call G β}
    (hx : x.Survives c t) (hf : ∀ a, (f a).Built (fun _ => False) D n) : (x >>= f).Survives c t :=
  fun m => (hx m).bind fun a m' =>
    ((hf a).avoids (fun _ => False.elim) (fun _ => id) m').imp (fun _ _ => trivial) id

/-- A call that spares the thread may come before one that survives. -/
theorem Spares.survives {x : Call G α} {f : α → Call G β} (hx : x.Spares c t)
    (hf : ∀ a, (f a).Survives c t) : (x >>= f).Survives c t :=
  avoids_bind hx hf

theorem spares_pure (a : α) : (pure a : Call G α).Spares c t := fun _ => id

theorem spares_read (f : Kernel G → α) : (read f).Spares c t := fun _ => id

theorem spares_note (notice : Notice) : (note notice : Call G Unit).Spares c t := fun _ => id

/-- A change spares the thread if it stands by afterwards. -/
theorem spares_change {f : Kernel G → Kernel G} (hf : ∀ k, k.Manned c t → (f k).Manned c t) :
    (change f).Spares c t :=
  fun m => hf m.kernel

theorem survives_pure (a : α) : (pure a : Call G α).Survives c t := fun _ _ => trivial

/-! ### Interrupts -/

/-- A core with a thread in its rotation has somebody to switch to. -/
theorem spares_rotate (d : CoreId) (x : Context) :
    (rotate d x : Call G Context).Spares c t := by
  intro m
  simp only [rotate]
  rw [bind_of_done (read_apply _ m)]
  simp only [Kernel.rotate]
  cases hn : (m.kernel.queues d).successor with
  | none =>
    intro (h : m.kernel.Manned c t) (hd : d = c)
    subst hd
    exact RunQueues.successor_ne_none (List.ne_nil_of_mem h.ready) hn
  | some next =>
    intro h
    have hturn := h.turn d x
    simp only [Effect.yieldThread, Kernel.rotate] at hturn
    rwa [hn] at hturn

/-- A switch spares it: there is somebody to switch to on that core, -/
theorem spares_yieldThread (d : CoreId) (x : Context) :
    (yieldThread d x : Call G Context).Spares c t :=
  avoids_locked id (spares_rotate d x)

theorem spares_noteWoken (d : CoreId) (tick : Nat) (due : List Sleeper) :
    (noteWoken d tick due : Call G Unit).Spares c t := by
  induction due with
  | nil => exact spares_pure ()
  | cons s due ih => exact (spares_note _).bind fun _ => ih

/-- and there is after a tick. -/
theorem spares_onTick (d : CoreId) (x : Context) : (onTick d x : Call G Context).Spares c t := by
  have hexpect : (expectTick d : Call G Unit).Spares c t := by
    refine (spares_read _).bind fun b => ?_
    cases b with
    | true => exact spares_pure ()
    | false => exact fun _ _ => id
  exact avoids_locked id (hexpect.bind fun _ => (spares_read _).bind fun due =>
    (spares_change fun _ h => h.advance d).bind fun _ => (spares_read _).bind fun tick =>
      (spares_noteWoken d tick due).bind fun _ => spares_rotate d x)

/-- Deferred calls are no matter of rotations, -/
theorem spares_popDpc (d : CoreId) : (popDpc d : Call G (Option (Dpc G))).Spares c t := by
  refine avoids_overheld id ((spares_read (·.dpcs d)).bind fun ds => ?_) fun _ _ => id
  cases ds with
  | nil => exact spares_pure none
  | cons call rest =>
    exact (spares_change fun _ h => h.setDpcs d rest).bind fun _ => spares_pure _

/-- Client code may come in at a routine; whatever it does, the thread stands by afterwards. -/
theorem spares_interrupt (home : CoreId) (code : G.Routine) (x : Context) :
    (interrupt home code x : Call G Context).Spares c t :=
  fun _ _ _ => id

/-- and one after the other switches, or is client code. -/
theorem spares_drain (fuel : Nat) (d : CoreId) (x : Context) :
    (drain fuel d x : Call G Context).Spares c t := by
  induction fuel generalizing x with
  | zero => exact fun _ _ => id
  | succ fuel ih =>
    refine (spares_popDpc d).bind fun o => ?_
    cases o with
    | none => exact spares_pure x
    | some call =>
      refine (spares_note _).bind fun _ => Spares.bind ?_ ih
      cases call with
      | reschedule e => exact spares_yieldThread e x
      | routine home code => exact spares_interrupt home code x

/-- Every handler spares it. -/
theorem spares_dispatch (fuel : Nat) (d : CoreId) (irq : SystemIrq) (x : Context) :
    (dispatch fuel d irq x : Call G Dispatch).Spares c t := by
  refine (spares_read _).bind fun o => ?_
  cases o with
  | none => exact (spares_note _).bind fun _ => spares_pure _
  | some h =>
    refine Spares.bind ?_ fun _ => spares_pure _
    cases h with
    | drain e => exact spares_drain fuel e x
    | tick e => exact spares_onTick e x
    | routine home code => exact spares_interrupt home code x

/-- The executing core is asked for, and nothing changes. -/
theorem spares_currentCore : (currentCore : Call G CoreId).Spares c t := by
  intro m
  by_cases hm : m.kernel.manages m.chip.current = true
  · rw [currentCore_apply hm]
    exact id
  · simp only [currentCore]
    rw [bind_of_done (look_apply _ m), bind_of_done (read_apply _ m), if_neg hm]
    exact fun _ => id

/-! ### Putting a thread aside -/

/-- A core with somebody switched in has somebody to put aside. -/
theorem survives_park (d : CoreId) (span : TimeSpan) :
    (park d span : Call G Unit).Survives c t := by
  intro m
  simp only [park]
  rw [bind_of_done (read_apply _ m)]
  cases hr : (m.kernel.queues d).running with
  | none =>
    intro (h : m.kernel.Manned c t) (hd : d = c)
    subst hd
    exact h.slot hr
  | some u =>
    dsimp only
    split
    · exact fun _ => trivial
    · exact fun _ => trivial

/-- A delay survives, though it may put the thread aside. -/
theorem survives_delay (d : CoreId) (span : TimeSpan) :
    (delay d span : Call G (Outcome Unit)).Survives c t := by
  have hyield (_ : Unit) :
      (do requestYield d; return .ok () : Call G (Outcome Unit)).Built (fun _ => False) .nested 0 :=
    .bind (built_registerDpc d _ (Nat.zero_lt_succ 2)) fun _ => .pure _
  unfold delay
  split
  · exact survives_pure _
  · cases span.isZero with
    | true => exact survives_of_built (hyield ()) fun _ => False.elim
    | false => exact Survives.bind (avoids_locked id (survives_park d span)) hyield

/-- Latches are no matter of rotations. -/
theorem spares_tryConsume (e : EventId) : (tryConsume e : Call G Bool).Spares c t := by
  refine (spares_read _).bind fun raised => ?_
  cases raised with
  | false => exact spares_pure false
  | true =>
    refine (spares_read (·.isAutoReset e)).bind fun auto => ?_
    cases auto with
    | false => exact spares_pure true
    | true =>
      exact (spares_change (f := (·.setRaised e false)) fun _ h => h.of_queues rfl).bind fun _ =>
        spares_pure true

/-- The running thread is queued first and then put aside. -/
theorem survives_queueRunning (e : EventId) (d : CoreId) (span : TimeSpan) :
    (queueRunning e d span : Call G (Outcome (Option WaitId))).Survives c t := by
  have hslot : (runningThread d : Call G (Option ThreadId)).Spares c t :=
    avoids_locked id (spares_read _)
  refine hslot.survives fun o => ?_
  cases o with
  | none => exact survives_pure _
  | some u =>
    have hadd : (change (·.addWait { thread := u }) : Call G Unit).Spares c t :=
      spares_change fun _ h => h.of_queues rfl
    have hpush (w : WaitId) :
        (change fun k => k.setWaiters e ((k.waitersOf e).push w) : Call G Unit).Spares c t :=
      spares_change fun _ h => h.of_queues rfl
    refine (spares_read (·.waits.length)).survives fun w => hadd.survives fun _ =>
      (hpush w).survives fun _ =>
        (survives_delay d span).bind (D := .nested) (n := 0) fun o => ?_
    cases o with
    | ok _ => exact .pure _
    | error why => exact .bind (.change _) fun _ => .pure _

/-- The first half of a wait survives, -/
theorem survives_enqueueWait (e : EventId) (span : TimeSpan) :
    (enqueueWait e span : Call G (Outcome (Option WaitId))).Survives c t := by
  have hlocked (d : CoreId) : (enqueueLocked e d span : Call G _).Survives c t := by
    refine (spares_tryConsume e).survives fun taken => ?_
    cases taken with
    | true => exact survives_pure _
    | false =>
      rw [if_neg Bool.false_ne_true]
      split
      · exact survives_pure _
      · exact survives_queueRunning e d span
  unfold enqueueWait enqueueWaitUndoing
  split
  · exact survives_pure _
  · refine (spares_tryConsume e).survives fun taken => ?_
    cases taken with
    | true => exact survives_pure _
    | false => exact spares_currentCore.survives fun d => avoids_locked id (hlocked d)

/-- and so does the whole of it. -/
theorem survives_waitEvent (e : EventId) (span : TimeSpan) :
    (waitEvent e span : Call G (Outcome Unit)).Survives c t := by
  refine (survives_enqueueWait e span).bind (n := 0) (D := .nested) fun o => ?_
  rcases o with why | _ | w
  · exact .pure _
  · exact .pure _
  · exact built_completeWait e w

end Call

namespace Op

/-- Few operations stop for one of the two reasons. -/
theorem not_fatalOn_of_mayStop {op : Op G} (hturn : ∀ c, op.scope ≠ .turning c)
    (hdispatch : op.scope ≠ .dispatching) (hdelay : ∀ c, ¬ op.MayDelay c) {c : CoreId} (why : Halt)
    (h : op.MayStop why) : ¬ why.FatalOn c := by
  cases why with
  | panic why =>
    cases why with
    | noRunnable d => exact absurd h fun h => h.elim (hturn d) hdispatch
    | delayWithoutThread d => exact absurd h (hdelay d)
    | startFailed | unmanagedCore | unhandled | coreOverflow | tickOverflow => exact id
  | transfer | deadlock | idle | exhausted => exact id

/-- **No operation stops a core while a thread stands by on it.** -/
theorem survives_call (op : Op G) (c : CoreId) (t : ThreadId) : op.call.Survives c t := by
  have hspares {α : Type} {x : Call G α} (hx : x.Spares c t) : x.Survives c t := by
    rw [← bind_pure x]
    exact hx.survives Call.survives_pure
  have hplain (hturn : ∀ d, op.scope ≠ .turning d) (hdispatch : op.scope ≠ .dispatching)
      (hdelay : ∀ d, ¬ op.MayDelay d) : op.call.Survives c t :=
    Call.survives_of_built op.built_loose (not_fatalOn_of_mayStop hturn hdispatch hdelay)
  cases op with
  | yieldThread d x => exact hspares (Call.spares_yieldThread d x)
  | onTick d x => exact hspares (Call.spares_onTick d x)
  | dispatch fuel d irq x => exact hspares (Call.spares_dispatch fuel d irq x)
  | dispatchHere fuel irq x =>
    exact Call.spares_currentCore.survives fun d => hspares (Call.spares_dispatch fuel d irq x)
  | delay d span => exact Call.survives_delay d span
  | delayHere span => exact Call.spares_currentCore.survives fun d => Call.survives_delay d span
  | enqueueWait e span => exact Call.survives_enqueueWait e span
  | waitEvent e span => exact Call.survives_waitEvent e span
  | _ => exact hplain nofun nofun nofun

end Op

/-! ## Who is ended -/

/-- The thread that an operation on core `here` with this answer has ended. -/
def Op.ends (k : Kernel G) (here : CoreId) : (op : Op G) → op.Result → Option ThreadId
  | killThread _ t, .ok () => some t
  | exitThread t _, .ok () => some t
  | exitThreadHere _, .ok () => (k.queues here).running
  | runThread t, .ok () => some t
  | _, _ => none

/-- The thread that the segment has ended. -/
def Segment.ended (seg : Segment G) : Option ThreadId :=
  seg.answer.bind (seg.op.ends seg.before seg.core)

namespace Effect

variable (k : Kernel G)

/-- A thread is ended, or nothing happens. -/
theorem killThread_cases (c : CoreId) (t : ThreadId) :
    (∃ why, killThread c t k = (k, .error why)) ∨ (killThread c t k).2 = .ok () := by
  simp only [killThread]
  split
  · exact .inr rfl
  · exact .inl ⟨_, rfl⟩

/-- An exit is refused and changes nothing, or ends the thread. -/
theorem exitThread_cases (t : ThreadId) (code : ExitCode) :
    (∃ why, exitThread t code k = (k, .error why)) ∨ (exitThread t code k).2 = .ok () := by
  simp only [exitThread]
  split
  · exact .inl ⟨_, rfl⟩
  next c hc =>
    -- the core that owns the thread does end it
    obtain ⟨d, ho, hd⟩ := Option.bind_eq_some_iff.mp hc
    split at hd
    · cases hd
      have ho' : (k.setExitCode t code).ownerOf t = some c :=
        (k.ownerOf_updateThread (f := ({ · with exitCode := code })) (fun _ => rfl) t).trans ho
      right
      simp only [killThread]
      rw [if_pos ho']
    · cases hd

end Effect

/-- An operation kills a thread only by ending it. -/
theorem Op.leads_effect_of_ends {here : CoreId} {op : Op G} {f : Effect G op.Result} {k : Kernel G}
    {t : ThreadId} (hf : op.effect here = some f) (hv : op.Valid k) (hh : k.manages here = true)
    (hend : op.ends k here (f k).2 ≠ some t) :
    Kernel.Leads (fun ch => ∀ d, ch ≠ .kill d t) (op.parks here (f k).2) k (f k).1 := by
  by_cases hmay : op.MayEnd t
  · cases op with
    | killThread c u =>
      cases hf
      obtain rfl : u = t := hmay
      rcases Effect.killThread_cases k c u with ⟨why, hk⟩ | hk
      · rw [hk]
        exact Kernel.Path.refl k
      · rw [hk] at hend
        exact absurd rfl hend
    | exitThread u code =>
      cases hf
      obtain rfl : u = t := hmay
      rcases Effect.exitThread_cases k u code with ⟨why, hk⟩ | hk
      · rw [hk]
        exact Kernel.Path.refl k
      · rw [hk] at hend
        exact absurd rfl hend
    | exitThreadHere code =>
      cases hf
      simp only [Effect.exitThreadHere] at hend ⊢
      cases hr : (k.queues here).running with
      | none => exact Kernel.Path.refl k
      | some u =>
        rw [hr] at hend
        dsimp only at hend ⊢
        rcases Effect.exitThread_cases k u code with ⟨why, hk⟩ | hk
        · rw [hk]
          exact Kernel.Path.refl k
        · -- another thread than this one is ended
          simp only [hk, Op.ends, hr] at hend
          refine Effect.path_exitThread k u code ?_ fun d d' hkill => ?_
          · rintro d ⟨⟩
          · cases hkill
            exact hend rfl
    | runThread => cases hf
    | _ => exact hmay.elim
  · refine (leads_effect hf hv hh).mono fun ch hch d hkill => hmay ?_
    rw [hkill] at hch
    exact hch.2

/-- What is left of a thread that runs is its end. -/
def Task.EndsBody : Task G → Prop
  | ⟨core, .runThread t, rest⟩ => ∃ code, rest.Does core (Effect.exitThread t code)
  | _ => True

/-- The body of a thread is handed control before anything is done. -/
theorem Call.rests_runThread {t : ThreadId} {m n : Machine G}
    {r : Outcome Unit ⊕ Call G (Outcome Unit)} (h : (runThread t m).Rests false n r) :
    n.kernel = m.kernel ∧ ∀ rest, r = .inr rest → ∀ here, ∃ code,
      rest.Does here (Effect.exitThread t code) := by
  simp only [runThread] at h
  rw [bind_of_done (read_apply _ m)] at h
  cases hth : m.kernel.threads[t]? with
  | none =>
    rw [hth] at h
    obtain ⟨rfl, rfl⟩ := Run.rests_done.mp h
    exact ⟨rfl, nofun⟩
  | some th =>
    rw [hth] at h
    dsimp only at h
    cases hentry : th.entry with
    | idle =>
      rw [hentry] at h
      exact (Run.rests_halt.mp h).elim
    | guest code =>
      rw [hentry] at h
      obtain ⟨rfl, o, rfl⟩ := Run.rests_enter.mp h
      refine ⟨rfl, ?_⟩
      rintro rest ⟨⟩ here
      cases o with
      | ok _ => exact ⟨0, does_exitThread t 0⟩
      | error why =>
        exact ⟨why.code, does_bind (does_note _) fun _ => does_exitThread t why.code⟩

namespace System

variable {s s' : System G} {seg : Segment G} {t : ThreadId}

/-- After a step, what is left of a thread that runs is its end, -/
theorem Step.endsBody (h : Step s seg s') (hs : ∀ task ∈ s.tasks, task.EndsBody) :
    ∀ task ∈ s'.tasks, task.EndsBody := by
  refine h.tasks hs (fun core op p m rest mayPause rests => ?_) fun task htask m rest rests => ?_
  · cases op with
    | runThread t =>
      cases p with
      | true => exact (mayPause rfl).elim
      | false => exact (Call.rests_runThread rests).2 rest rfl core
    | _ => trivial
  · obtain ⟨core, op, rest'⟩ := task
    cases op with
    | runThread t =>
      obtain ⟨code, does⟩ := htask
      obtain ⟨-, -, hr⟩ := does (m := s.machine.on core) rfl rests
      cases hr
    | _ => trivial

/-- A segment of a thread that runs ends the thread, or does nothing. -/
theorem Step.runThread_cases (h : Step s seg s') (hs : ∀ task ∈ s.tasks, task.EndsBody)
    (hop : seg.op = .runThread t) : seg.after = seg.before ∨ seg.ended = some t := by
  cases h with
  | @call core op pausing m r managed valid mayPause rests =>
    cases hop
    cases pausing with
    | true => exact (mayPause rfl).elim
    | false => exact .inl (Call.rests_runThread rests).1
  | @resume task older newer m r tasks rests =>
    have htask : task.EndsBody := hs task (by simp [tasks])
    obtain ⟨core, op, rest⟩ := task
    cases hop
    obtain ⟨code, does⟩ := htask
    obtain ⟨-, hk, rfl⟩ := does (m := s.machine.on core) rfl rests
    rcases Effect.exitThread_cases s.machine.kernel t code with ⟨why, he⟩ | he
    · left
      exact hk.trans (congrArg Prod.fst he)
    · right
      change (Op.runThread t).ends _ _ (Effect.exitThread t code s.machine.kernel).2 = some t
      rw [he]
      rfl

/-- **One step** kills a thread only by ending it. -/
theorem Step.leads_of_ended (h : Step s seg s') (hs : ∀ task ∈ s.tasks, task.Sound)
    (hb : ∀ task ∈ s.tasks, task.EndsBody) (hend : seg.ended ≠ some t) :
    Kernel.Leads (fun ch => ∀ d, ch ≠ .kill d t) seg.parked seg.before seg.after := by
  have hsound := (h.sound hs).1
  by_cases hmay : seg.op.MayEnd t
  · cases hsound with
    | whole k managed valid effect => exact Op.leads_effect_of_ends effect valid managed hend
    | @client core op first k k' answer noEffect path =>
      cases op with
      | runThread u =>
        obtain rfl : u = t := hmay
        have hk : k' = k := (h.runThread_cases hb rfl).resolve_right hend
        have hparked : (⟨core, .runThread u, first, k, k', answer⟩ : Segment G).parked = none := by
          cases answer <;> rfl
        rw [hparked, hk]
        exact Kernel.Path.refl k
      | killThread | exitThread | exitThreadHere => cases noEffect
      | _ => exact hmay.elim
    | paused => exact hmay.elim
    | resumed => exact hmay.elim
  · refine hsound.leads.mono fun ch hch d hkill => hmay ?_
    rw [hkill] at hch
    exact hch.2

/-- **One step** leaves a thread standing by, unless it ends the thread or puts it aside. -/
theorem Step.manned {c : CoreId} (h : Step s seg s') (hs : ∀ task ∈ s.tasks, task.Sound)
    (hb : ∀ task ∈ s.tasks, task.EndsBody) (hend : seg.ended ≠ some t)
    (hpark : seg.parked = some c → (seg.before.queues c).running ≠ some t)
    (hm : seg.before.Manned c t) : seg.after.Manned c t := by
  obtain ⟨k, path, hk⟩ := (h.leads_of_ended hs hb hend).exists_path
  refine path.keeps (I := (·.Manned c t))
    (fun _ ch hkill enabled hm => hm.apply ch enabled hkill) ?_
  rcases hk with rfl | ⟨d, wake, hd, rfl⟩
  · exact hm
  · refine hm.setAside wake ?_
    rintro rfl
    exact hpark hd

variable {s₀ : System G} {history : List (Segment G)}

/-- and so it is after a run. -/
theorem Runs.endsBody (run : Runs s₀ history s) (h₀ : ∀ task ∈ s₀.tasks, task.EndsBody) :
    ∀ task ∈ s.tasks, task.EndsBody := by
  induction run with
  | start => exact h₀
  | step _ next ih => exact next.endsBody ih

/-- **What is left of an operation does not stop a core either** while a thread stands by on it. -/
theorem Runs.survives {c : CoreId} (run : Runs s₀ history s)
    (h₀ : ∀ task ∈ s₀.tasks, task.rest.Survives c t) :
    ∀ task ∈ s.tasks, task.rest.Survives c t := by
  induction run with
  | start => exact h₀
  | step _ next ih =>
    exact next.tasks (P := fun task => task.rest.Survives c t) ih
      (fun _ op _ _ _ _ rests => (op.survives_call c t _).rests rests)
      fun task htask _ _ rests => (htask _).rests rests

/-- **A whole run.** -/
theorem Runs.manned {c : CoreId} (run : Runs s₀ history s) (h₀ : ∀ task ∈ s₀.tasks, task.Sound)
    (hb : ∀ task ∈ s₀.tasks, task.EndsBody) (hend : ∀ seg ∈ history, seg.ended ≠ some t)
    (hpark : ∀ seg ∈ history, seg.parked = some c → (seg.before.queues c).running ≠ some t)
    (hm : s₀.machine.kernel.Manned c t) : s.machine.kernel.Manned c t := by
  induction run with
  | start => exact hm
  | step run next ih =>
    rw [List.forall_mem_cons] at hend hpark
    have hbefore := ih hend.2 hpark.2
    obtain ⟨hk, hk'⟩ := next.kernels
    rw [← hk']
    exact next.manned (run.sound h₀).2 (run.endsBody hb) hend.1 hpark.1 (hk ▸ hbefore)

end System

/-- **A core on which a thread stands by does not stop.** Take a run and a core that was started in
it with a thread in its rotation, its idle thread for one. As long as the thread is not ended, and
nobody puts aside the running thread of the core while it is this one, the thread stays in the
rotation, and somebody is switched in; and neither an operation that is called on whatever core, nor
one in progress that goes on, stops because nobody is ready on the core or because nobody is
switched in there. -/
theorem manned_core_never_fatal {m : Machine G} {s₁ s : System G} {boot : Segment G}
    {past later : List (Segment G)} {c : CoreId} {idle : ThreadId}
    (reached : System.Runs ⟨m, []⟩ (boot :: past) s₁) (started : boot.bootstrapped = some c)
    (standsBy : idle ∈ (boot.after.queues c).ready) (run : System.Runs s₁ later s)
    (kept : ∀ seg ∈ later, seg.ended ≠ some idle)
    (awake : ∀ seg ∈ later, seg.parked = some c → (seg.before.queues c).running ≠ some idle) :
    idle ∈ (s.machine.kernel.queues c).ready ∧ 0 < (s.machine.kernel.queues c).ready.length ∧
    (s.machine.kernel.queues c).running ≠ none ∧
    (∀ (core : CoreId) (op : Op G) (why : Halt),
      (op.call (s.machine.on core)).stop? = some why → ¬ why.FatalOn c) ∧
    ∀ task ∈ s.tasks, ∀ (core : CoreId) (why : Halt),
      (task.rest (s.machine.on core)).stop? = some why → ¬ why.FatalOn c := by
  have hm₁ : s₁.machine.kernel.Manned c idle := by
    have hsound := (reached.sound System.forall_tasks_start).1 boot List.mem_cons_self
    rw [← reached.after_eq]
    exact ⟨standsBy, hsound.occupied_of_bootstrapped started⟩
  have hm := run.manned (reached.sound System.forall_tasks_start).2
    (reached.endsBody System.forall_tasks_start) kept awake hm₁
  refine ⟨hm.ready, List.length_pos_of_mem hm.ready, hm.slot, fun core op why hstop => ?_,
    fun task htask core why hstop => ?_⟩
  · exact (op.survives_call c idle (s.machine.on core)).stop? hm hstop
  · have hrest := (reached.trans run).survives (c := c) (t := idle) System.forall_tasks_start
      task htask
    exact (hrest (s.machine.on core)).stop? hm hstop

/-- The worker is put aside twice before it is switched out, woken by a tick and killed in the slot;
the idle thread is switched in and out by a reschedule, a tick and a yield, and asks for a turn
itself. It is never put aside, and whatever may be called next does not stop the core. -/
theorem idle_core_never_fatal : ∃ m boot past s later s',
    Machine.boot? {} {} = some m ∧ System.play ⟨m, []⟩ oneRunning = some (boot :: past, s) ∧
    s.play [(0, .newEvent false), (0, .delay 0 (.ofMillis 10)), (0, .enqueueWait 0 .infinite),
      (0, .dispatch 9 0 .coreNotification 7), (0, .onTick 0 8), (0, .killThread 0 1),
      (0, .yieldThread 0 9), (0, .delay 0 .zero), (0, .dispatch 9 0 .coreNotification 10)] =
      some (later, s') ∧
    boot.bootstrapped = some 0 ∧ boot.after.idleOf? 0 = some 0 ∧
    0 ∈ (boot.after.queues 0).ready ∧ 0 ∈ (s'.machine.kernel.queues 0).ready ∧
    ∀ (core : CoreId) (op : Op ⟨Unit, Unit⟩) (why : Halt),
      (op.call (s'.machine.on core)).stop? = some why → ¬ why.FatalOn 0 := by
  obtain ⟨m, past, s, later, s', hm, hfirst, hsecond, htest⟩ := System.exists_play {} {} oneRunning
    [(0, .newEvent false), (0, .delay 0 (.ofMillis 10)), (0, .enqueueWait 0 .infinite),
      (0, .dispatch 9 0 .coreNotification 7), (0, .onTick 0 8), (0, .killThread 0 1),
      (0, .yieldThread 0 9), (0, .delay 0 .zero), (0, .dispatch 9 0 .coreNotification 10)]
    (fun past _ later _ => past.head?.any fun (boot : Segment ⟨Unit, Unit⟩) => decide (
      boot.bootstrapped = some 0 ∧ boot.after.idleOf? 0 = some 0 ∧
      0 ∈ (boot.after.queues 0).ready ∧ ∀ seg ∈ later, seg.ended ≠ some 0 ∧
        (seg.parked = some 0 → (seg.before.queues 0).running ≠ some 0))) (by decide +kernel)
  cases past with
  | nil => cases htest
  | cons boot past =>
    obtain ⟨hboot, hidle, hready, hlater⟩ := of_decide_eq_true htest
    obtain ⟨hstays, -, -, hcalls, -⟩ := manned_core_never_fatal (System.runs_of_play hfirst) hboot
      hready (System.runs_of_play hsecond) (fun seg hseg => (hlater seg hseg).1)
      fun seg hseg => (hlater seg hseg).2
    exact ⟨m, boot, past, s, later, s', hm, hfirst, hsecond, hboot, hidle, hready, hstays, hcalls⟩

end Nucleus
