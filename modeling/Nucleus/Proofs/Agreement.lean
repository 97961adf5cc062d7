import Nucleus.Proofs.Frame
import Nucleus.Proofs.Placement
import Nucleus.Proofs.Script

/-!
# Agreement of queues, owners and states

What a scheduler knows of a thread is kept in several places: three queues, a running slot, a state
and an owner. `Kernel.Agrees` says how they fit together, and
`queues_owners_states_agree` that they always do, as long as nobody is put aside who does not run
and no core switches before it was started.

The invariant that carries the proof, `Kernel.InOrder`, is that every thread is placed, with three
facts about running slots: whoever runs is switched in with its owner; a core that has a
terminated thread switched in has a reschedule queued; a core that was not started has nobody
switched in. Only switching changes a slot, so for every other change the three facts come down to
`Kernel.InOrder.of`.
-/

namespace Nucleus

variable {G : Guest}

namespace Kernel

variable {k k' : Kernel G} {t u : ThreadId} {c : CoreId}

/-- Every thread is placed, and running slots are as they should be. -/
structure InOrder (k : Kernel G) : Prop where
  /-- every thread is placed -/
  placed : ∀ t, k.Placed t
  /-- whoever runs is switched in with its owner -/
  running : ∀ t, k.stateOf t = .running →
    ∃ c, k.ownerOf t = some c ∧ (k.queues c).running = some t
  /-- where a terminated thread is switched in, a reschedule is queued -/
  pending : ∀ c t, (k.queues c).running = some t → k.stateOf t = .terminated →
    .reschedule c ∈ k.dpcs c
  /-- a core that was not started has nobody switched in -/
  unstarted : ∀ c, k.isStarted c = false → (k.queues c).running = none

/-- Cores differ in their queues only. -/
structure OnlyQueues (k k' : Kernel G) : Prop where
  /-- deferred calls are the same -/
  dpcs : ∀ d, k'.dpcs d = k.dpcs d
  /-- the same cores were started -/
  started : ∀ d, k'.isStarted d = k.isStarted d

theorem OnlyQueues.trans {k'' : Kernel G} (h : k.OnlyQueues k') (h' : k'.OnlyQueues k'') :
    k.OnlyQueues k'' :=
  ⟨fun d => (h'.dpcs d).trans (h.dpcs d), fun d => (h'.started d).trans (h.started d)⟩

theorem onlyQueues_updateQueues (k : Kernel G) (c : CoreId) (f : RunQueues → RunQueues) :
    k.OnlyQueues (k.updateQueues c f) :=
  ⟨k.dpcs_updateCore (c := c) (f := fun core => { core with queues := f core.queues }) fun _ => rfl,
    k.isStarted_updateCore (c := c) (f := fun core => { core with queues := f core.queues })
      fun _ => rfl⟩

theorem onlyQueues_updateThread (k : Kernel G) (t : ThreadId) (f : Thread G → Thread G) :
    k.OnlyQueues (k.updateThread t f) :=
  ⟨fun _ => rfl, fun _ => rfl⟩

theorem onlyQueues_makeReady (k : Kernel G) (c : CoreId) (t : ThreadId) :
    k.OnlyQueues (k.makeReady c t) :=
  (onlyQueues_updateThread k t _).trans (onlyQueues_updateQueues (k.setState t .ready) c _)

theorem onlyQueues_terminate (k : Kernel G) (c : CoreId) (t : ThreadId) :
    k.OnlyQueues ((k.setOwner t none).terminate c t) :=
  (onlyQueues_updateThread k t _).trans
    ((onlyQueues_updateQueues _ c _).trans (onlyQueues_updateThread _ t _))

/-- A thread that is not in the slot is ended without a request for a switch. -/
theorem onlyQueues_killThread {c : CoreId} {t : ThreadId} (h : (k.queues c).running ≠ some t) :
    k.OnlyQueues (Effect.killThread c t k).1 := by
  have hslot : (((k.setOwner t none).terminate c t).queues c).running ≠ some t := by
    rw [running_terminate]
    exact h
  simp only [Effect.killThread, if_neg hslot]
  split
  · exact onlyQueues_terminate k c t
  · exact ⟨fun _ => rfl, fun _ => rfl⟩

/-- Ending a thread takes it out of the queues of its core, if it is ended at all. -/
theorem queues_killThread (k : Kernel G) (c : CoreId) (t : ThreadId) (d : CoreId) :
    (Effect.killThread c t k).1.queues d = k.queues d ∨
      (Effect.killThread c t k).1.queues d = ((k.setOwner t none).terminate c t).queues d := by
  simp only [Effect.killThread]
  split
  · right
    dsimp only
    split
    · exact queues_setDpcs _ c _ d
    · rfl
  · exact .inl rfl

/-- The queues of other cores are left alone. -/
theorem queues_killThread_of_ne (k : Kernel G) {c d : CoreId} (t : ThreadId) (h : c ≠ d) :
    (Effect.killThread c t k).1.queues d = k.queues d := by
  rcases queues_killThread k c t d with hk | hk
  · exact hk
  · exact hk.trans (queues_updateQueues_of_ne (k.setOwner t none) (·.expel t) h)

/-- And so are slots. -/
theorem running_killThread (k : Kernel G) (c : CoreId) (t : ThreadId) (d : CoreId) :
    ((Effect.killThread c t k).1.queues d).running = (k.queues d).running := by
  rcases queues_killThread k c t d with hk | hk
  · rw [hk]
  · rw [hk, running_terminate]
    rfl

theorem onlyQueues_switchTo (k : Kernel G) (c : CoreId) (t : ThreadId) :
    k.OnlyQueues (k.switchTo c t) :=
  (onlyQueues_updateThread k t _).trans (onlyQueues_updateQueues (k.setState t .running) c _)

theorem onlyQueues_makeAllReady (k : Kernel G) (c : CoreId) (due : List Sleeper) :
    k.OnlyQueues (k.makeAllReady c due) := by
  induction due generalizing k with
  | nil => exact ⟨fun _ => rfl, fun _ => rfl⟩
  | cons s due ih => exact (onlyQueues_makeReady k c s.thread).trans (ih _)

theorem onlyQueues_advance (k : Kernel G) (c : CoreId) : k.OnlyQueues (k.advance c) := by
  rw [advance_eq]
  exact OnlyQueues.trans (onlyQueues_updateQueues k c _) (onlyQueues_makeAllReady _ c _)

theorem onlyQueues_setAside (k : Kernel G) (c : CoreId) (wake : Option Nat) :
    k.OnlyQueues (k.setAside c wake) := by
  simp only [setAside]
  split
  · exact ⟨fun _ => rfl, fun _ => rfl⟩
  next t _ =>
    exact (onlyQueues_updateThread k t _).trans (onlyQueues_updateQueues (k.setState t _) c _)
  next t wake _ =>
    exact (onlyQueues_updateThread k t _).trans (onlyQueues_updateQueues (k.setState t _) c _)

/-- A change that switches nobody in. -/
theorem InOrder.of (h : k.InOrder) (hplaced : ∀ t, k'.Placed t)
    (hrun : ∀ t, k'.stateOf t = .running →
      k.stateOf t = .running ∧ k'.ownerOf t = k.ownerOf t)
    (hslot : ∀ d, (k'.queues d).running = (k.queues d).running)
    (hend : ∀ d t, (k.queues d).running = some t → k'.stateOf t = .terminated →
      k.stateOf t = .terminated ∨ .reschedule d ∈ k'.dpcs d)
    (hdpcs : ∀ d x, x ∈ k.dpcs d → x ∈ k'.dpcs d)
    (hstarted : ∀ d, k.isStarted d = true → k'.isStarted d = true) : k'.InOrder where
  placed := hplaced
  running t ht := by
    obtain ⟨hs, ho⟩ := hrun t ht
    obtain ⟨c, hc, hr⟩ := h.running t hs
    exact ⟨c, ho.trans hc, (hslot c).trans hr⟩
  pending c t hr ht := by
    rw [hslot] at hr
    rcases hend c t hr ht with hs | hq
    · exact hdpcs c _ (h.pending c t hr hs)
    · exact hq
  unstarted c hc := by
    have hold : k.isStarted c = false := by
      refine Bool.eq_false_iff.mpr fun ht => ?_
      rw [hstarted c ht] at hc
      cases hc
    exact (hslot c).trans (h.unstarted c hold)

/-- A move of one thread that neither runs nor has ended afterwards. -/
theorem InOrder.moved {o : Option CoreId} {s : ThreadState} (h : k.InOrder)
    (hm : k.Moves k' u o s) (hu : u < k.threads.length) (hplaced : ∀ t, k'.Placed t)
    (hs : s ≠ .running) (he : s ≠ .terminated) (hq : k.OnlyQueues k') : k'.InOrder := by
  refine h.of hplaced (fun t ht => ?_) hm.running (fun d t _ ht => .inl ?_) (fun d x hx => ?_)
    fun d hd => (hq.started d).trans hd
  · by_cases hne : u = t
    · subst hne
      rw [hm.state hu] at ht
      exact absurd ht hs
    · exact ⟨(hm.state_of_ne t hne).symm.trans ht, hm.owner_of_ne t hne⟩
  · by_cases hne : u = t
    · subst hne
      rw [hm.state hu] at ht
      exact absurd ht he
    · exact (hm.state_of_ne t hne).symm.trans ht
  · rw [hq.dpcs]
    exact hx

/-! ## Changes that leave the slots alone -/

theorem InOrder.start (h : k.InOrder) (hc : k.manages c = true) (hs : k.stateOf u ≠ .terminated)
    (ho : k.ownerOf u = none) : ((k.setOwner u (some c)).makeReady c u).InOrder :=
  h.moved (moves_start hc u) (lt_length_of_stateOf hs)
    (fun t => ((h.placed t).start hc hs ho).placed) nofun nofun
    ((onlyQueues_updateThread k u _).trans (onlyQueues_makeReady _ c u))

theorem InOrder.startThread (h : k.InOrder) (hc : k.manages c = true) (u : ThreadId) :
    (Effect.startThread c u k).1.InOrder := by
  simp only [Effect.startThread]
  split
  · exact h
  · split
    next hs ho => exact h.start hc hs (Option.isNone_iff_eq_none.mp ho)
    next => exact h

theorem InOrder.wake (h : k.InOrder) (hp : (k.queues c).isParked u = true) :
    (k.wake c u).InOrder := by
  refine h.moved (moves_wake (manages_of_isParked hp) u) ?_ (fun t => ((h.placed t).wake hp).placed)
    nofun nofun ?_
  · exact lt_length_of_ownerOf ((h.placed u).of_isParked hp).1
  · exact (onlyQueues_updateQueues k c _).trans (onlyQueues_makeReady _ c u)

/-- Putting aside a thread that runs. -/
theorem InOrder.setAside (h : k.InOrder) (wake : Option Nat)
    (hr : ∃ t, (k.queues c).running = some t ∧ k.stateOf t = .running) :
    (k.setAside c wake).InOrder := by
  obtain ⟨u, hrun, hs⟩ := hr
  refine h.moved (moves_setAside hrun) (lt_length_of_stateOf (by rw [hs]; nofun)) (fun t => ?_)
    nofun nofun (onlyQueues_setAside k c wake)
  refine ((h.placed t).setAside wake fun ht => ?_).placed
  obtain rfl : u = t := Option.some.inj (hrun.symm.trans ht)
  exact .inr hs

theorem InOrder.advance (h : k.InOrder) (c : CoreId) : (k.advance c).InOrder := by
  have hstate (t : ThreadId) : (k.advance c).stateOf t = .ready ∨
      (k.advance c).stateOf t = k.stateOf t := by
    by_cases hdue : t ∈ DelayedQueue.threads (k.dueNext c)
    · have ho := ((h.placed t).of_mem (k.mem_delayed_of_dueNext hdue)).1
      exact .inl (k.stateOf_advance_of_mem hdue (lt_length_of_ownerOf ho))
    · exact .inr (k.stateOf_advance_of_not_mem hdue)
  have hq := onlyQueues_advance k c
  refine h.of (fun t => ((h.placed t).advance c).placed) (fun t ht => ?_) (k.running_advance c)
    (fun d t _ ht => .inl ?_) (fun d x hx => (hq.dpcs d).symm ▸ hx)
    fun d hd => (hq.started d).trans hd
  · rcases hstate t with hs | hs
    · rw [hs] at ht
      cases ht
    · exact ⟨hs.symm.trans ht, k.ownerOf_advance c t⟩
  · rcases hstate t with hs | hs
    · rw [hs] at ht
      cases ht
    · exact hs.symm.trans ht

/-- A change of a core outside its queues that takes no deferred call. -/
theorem InOrder.updateCore (h : k.InOrder) (c : CoreId) {f : Core G → Core G}
    (hq : ∀ core, (f core).queues = core.queues)
    (hd : ∀ d x, x ∈ k.dpcs d → x ∈ (k.updateCore c f).dpcs d)
    (hs : ∀ core, core.started = true → (f core).started = true) :
    (k.updateCore c f).InOrder :=
  h.of (fun t => ((h.placed t).updateCore c hq).placed) (fun _ ht => ⟨ht, rfl⟩)
    (fun d => congrArg _ (k.queues_updateCore hq d)) (fun _ _ _ ht => .inl ht) hd
    fun _ => (Adjusts.refl.core c hs).isStarted

theorem mem_dpcs_defer (k : Kernel G) (c : CoreId) (d : Dpc G) (e : CoreId) {x : Dpc G}
    (hx : x ∈ k.dpcs e) : x ∈ (k.setDpcs c (k.dpcs c ++ [d])).dpcs e := by
  cases hc : k.manages c with
  | true =>
    rw [dpcs_setDpcs k hc]
    split
    next he => exact List.mem_append_left _ (he ▸ hx)
    next => exact hx
  | false =>
    simp only [setDpcs]
    rw [k.updateCore_of_not_manages hc]
    exact hx

theorem InOrder.defer (h : k.InOrder) (c : CoreId) (d : Dpc G) :
    (k.setDpcs c (k.dpcs c ++ [d])).InOrder :=
  h.updateCore c (fun _ => rfl) (fun e _ => mem_dpcs_defer k c d e) fun _ => id

/-- Ending a thread: if it is switched in, it is so with its owner, who is told to reschedule. -/
theorem InOrder.killThread (h : k.InOrder) (hc : k.manages c = true) (ho : k.ownerOf u = some c) :
    (Effect.killThread c u k).1.InOrder := by
  have hm := moves_kill hc u
  have hu : u < k.threads.length := lt_length_of_ownerOf ho
  have hq : k.OnlyQueues ((k.setOwner u none).terminate c u) := onlyQueues_terminate k c u
  have hplaced (t : ThreadId) := ((h.placed t).killThread hc ho).placed
  have hrun (t : ThreadId) (ht : ((k.setOwner u none).terminate c u).stateOf t = .running) :
      k.stateOf t = .running ∧ ((k.setOwner u none).terminate c u).ownerOf t = k.ownerOf t := by
    by_cases hne : u = t
    · subst hne
      rw [hm.state hu] at ht
      cases ht
    · exact ⟨(hm.state_of_ne t hne).symm.trans ht, hm.owner_of_ne t hne⟩
  have hend {t : ThreadId} (hne : u ≠ t)
      (ht : ((k.setOwner u none).terminate c u).stateOf t = .terminated) :
      k.stateOf t = .terminated := (hm.state_of_ne t hne).symm.trans ht
  -- the slots in which `u` stands: only that of its owner
  have hslot {d : CoreId} (hd : (k.queues d).running = some u) : d = c := by
    rcases (h.placed u).slot d hd with hd | ⟨hs, -⟩
    · exact Option.some.inj (hd.symm.trans ho)
    · exact absurd hs ((h.placed u).owned c ho)
  simp only [Effect.killThread] at hplaced ⊢
  rw [if_pos ho] at hplaced ⊢
  dsimp only at hplaced ⊢
  rw [hm.running] at hplaced ⊢
  split
  next hrunning =>
    rw [if_pos hrunning] at hplaced
    -- `u` is switched in with its owner, and the reschedule that was queued is for that core
    refine h.of hplaced hrun (fun d => ?_) (fun d t hd ht => ?_) (fun d x hx => ?_) fun d hd => ?_
    · exact (congrArg _ (queues_setDpcs _ c _ d)).trans (hm.running d)
    · by_cases hne : u = t
      · subst hne
        obtain rfl := hslot hd
        have hd' : ((k.setOwner u none).terminate d u).manages d = true :=
          ((k.setOwner u none).manages_updateQueues d d (·.expel u)).trans hc
        refine .inr ?_
        simp only [Effect.requestYield]
        rw [dpcs_setDpcs _ hd', if_pos rfl]
        exact List.mem_append_right _ (List.mem_singleton.mpr rfl)
      · exact .inl (hend hne ht)
    · exact mem_dpcs_defer _ c _ d ((hq.dpcs d).symm ▸ hx)
    · exact (isStarted_setDpcs _ c _ d).trans ((hq.started d).trans hd)
  next hrunning =>
    rw [if_neg hrunning] at hplaced
    refine h.of hplaced hrun hm.running (fun d t hd ht => ?_) (fun d x hx => (hq.dpcs d).symm ▸ hx)
      fun d hd => (hq.started d).trans hd
    by_cases hne : u = t
    · subst hne
      obtain rfl := hslot hd
      exact absurd hd hrunning
    · exact .inl (hend hne ht)

/-! ## Switching -/

/-- Switching to a thread of the rotation, once nobody in the slot runs any more. -/
theorem InOrder.switchTo (h : k.InOrder) (hu : u ∈ (k.queues c).ready)
    (hs : k.isStarted c = true)
    (hslot : ∀ t, (k.queues c).running = some t → k.stateOf t ≠ .running) :
    (k.switchTo c u).InOrder := by
  have hc : k.manages c = true := manages_of_mem_ready hu
  have hrun (d : CoreId) := k.running_switchTo hc u d
  have ho : k.ownerOf u = some c := ((h.placed u).of_mem (i := .ready) hu).1
  have hq : k.OnlyQueues (k.switchTo c u) := onlyQueues_switchTo k c u
  have hself : (k.switchTo c u).stateOf u = .running :=
    k.stateOf_setState_self .running (lt_length_of_ownerOf ho)
  have hstate {t : ThreadId} (hne : u ≠ t) : (k.switchTo c u).stateOf t = k.stateOf t :=
    k.stateOf_setState_of_ne .running hne
  have howner (t : ThreadId) : (k.switchTo c u).ownerOf t = k.ownerOf t :=
    k.ownerOf_setState u t .running
  refine ⟨fun t => ((h.placed t).switchTo hu).placed, fun t ht => ?_, fun d t hd ht => ?_,
    fun d hd => ?_⟩
  · by_cases hne : u = t
    · subst hne
      exact ⟨c, (howner u).trans ho, (hrun c).trans (if_pos rfl)⟩
    · rw [hstate hne] at ht
      obtain ⟨d, hd, hr⟩ := h.running t ht
      -- nobody in the slot of `c` runs, so `t` runs on another core
      have hcd : c ≠ d := by
        rintro rfl
        exact hslot t hr ht
      exact ⟨d, (howner t).trans hd, (hrun d).trans ((if_neg hcd).trans hr)⟩
  · -- the thread that is switched in runs now, so the ended one is in another slot
    have hne : u ≠ t := by
      rintro rfl
      rw [hself] at ht
      cases ht
    rw [hrun] at hd
    split at hd
    · exact absurd (Option.some.inj hd) hne
    · rw [hq.dpcs]
      exact h.pending d t hd (hstate hne ▸ ht)
  · rw [hq.started] at hd
    have hcd : c ≠ d := by
      rintro rfl
      rw [hs] at hd
      cases hd
    exact (hrun d).trans ((if_neg hcd).trans (h.unstarted d hd))

/-- The interrupted thread no longer runs. -/
theorem InOrder.interruptRunning (h : k.InOrder) (c : CoreId) (context : Context) :
    (k.interruptRunning c context).InOrder := by
  have hstate (t : ThreadId) := k.stateOf_interruptRunning c context t
  have hcores := k.cores_interruptRunning c context
  refine h.of (fun t => ((h.placed t).interruptRunning c context).placed) (fun t ht => ?_)
    (fun d => congrArg _ (k.queues_interruptRunning c context d)) (fun d t _ ht => .inl ?_)
    (fun d x hx => ?_) fun d hd => ?_
  · rw [hstate] at ht
    split at ht
    · cases ht
    · exact ⟨ht, k.ownerOf_interruptRunning c context t⟩
  · rw [hstate] at ht
    split at ht
    · cases ht
    · exact ht
  · simp only [dpcs] at hx ⊢
    rw [hcores]
    exact hx
  · simp only [isStarted] at hd ⊢
    rw [hcores]
    exact hd

theorem InOrder.turn (h : k.InOrder) (hs : k.isStarted c = true) (context : Context) :
    (Effect.yieldThread c context k).1.InOrder := by
  simp only [Effect.yieldThread, rotate]
  cases hn : (k.queues c).successor with
  | none => exact h
  | some next =>
    have hq := k.queues_interruptRunning c context c
    have hstarted : (k.interruptRunning c context).isStarted c = true := by
      simp only [isStarted]
      rw [cores_interruptRunning]
      exact hs
    refine (h.interruptRunning c context).switchTo ?_ hstarted fun t ht he => ?_
    · rw [hq]
      exact RunQueues.mem_ready_of_successor hn
    · rw [hq] at ht
      rw [stateOf_interruptRunning] at he
      split at he
      · cases he
      next hne => exact hne ⟨ht, he⟩

/-! ## Starting to schedule -/

theorem isStarted_markStarted (hc : k.manages c = true) :
    (k.updateCore c fun core => { core with started := true }).isStarted c = true := by
  simp only [isStarted]
  rw [getElem?_cores_updateCore, if_pos rfl]
  simp only [manages] at hc
  cases h : k.cores[c]? with
  | none =>
    have hlt : c < k.cores.length := of_decide_eq_true hc
    rw [List.getElem?_eq_getElem hlt] at h
    cases h
  | some core => rfl

theorem running_startThread (k : Kernel G) (c : CoreId) (t : ThreadId) (d : CoreId) :
    ((Effect.startThread c t k).1.queues d).running = (k.queues d).running := by
  simp only [Effect.startThread]
  split
  · rfl
  · split
    · exact running_makeReady _ c t d
    · rfl

/-- Bringing in the idle thread switches nobody in, and the core is started then. -/
theorem running_prepare (hc : k.manages c = true) :
    ((Effect.prepare c k).queues c).running = (k.queues c).running ∧
      (Effect.prepare c k).isStarted c = true := by
  have hslot : ((k.updateCore c fun core => { core with started := true }).queues c).running =
      (k.queues c).running := by
    rw [queues_updateCore k (f := fun core => { core with started := true }) fun _ => rfl]
  have hstarted := isStarted_markStarted hc
  simp only [Effect.prepare, Effect.bringIdle]
  split
  · exact ⟨hslot, hstarted⟩
  next idle _ =>
    exact ⟨(running_startThread _ c idle c).trans hslot,
      (Adjusts.refl.startThread c idle).isStarted hstarted⟩

/-- A core that starts to schedule brings in its idle thread. -/
theorem InOrder.prepare (h : k.InOrder) (hc : k.manages c = true) :
    (Effect.prepare c k).InOrder := by
  have hk : (k.updateCore c fun core => { core with started := true }).InOrder := by
    refine h.updateCore c (fun _ => rfl) (fun d x hx => ?_) fun _ _ => rfl
    rw [dpcs_updateCore k (f := fun core => { core with started := true }) fun _ => rfl]
    exact hx
  simp only [Effect.prepare, Effect.bringIdle]
  split
  · exact hk
  next idle _ => exact hk.startThread ((k.manages_updateCore c c _).trans hc) idle

theorem InOrder.setHandler (h : k.InOrder) (c : CoreId) (irq : SystemIrq) (handler : Handler G) :
    (k.setHandler c irq handler).InOrder := by
  refine h.updateCore c (fun _ => ?_) (fun d x hx => ?_) fun core hs => ?_
  · cases irq <;> rfl
  · have hd : (k.setHandler c irq handler).dpcs d = k.dpcs d := by
      refine k.dpcs_updateCore (fun core => ?_) d
      cases irq <;> rfl
    exact hd.symm ▸ hx
  · cases irq <;> exact hs

/-- A core that was not started has nobody switched in, so nobody who runs is switched out. -/
theorem InOrder.bootstrap (h : k.InOrder) (hc : k.manages c = true) (hs : k.isStarted c = false) :
    (Effect.install c (Effect.prepare c k)).1.InOrder := by
  have hk := h.prepare hc
  obtain ⟨hslot, hstarted⟩ := running_prepare hc
  simp only [Effect.install, Effect.switchFirst]
  cases hd : ((Effect.prepare c k).queues c).ready.head? with
  | none => exact hk
  | some next =>
    refine InOrder.setHandler (hk.switchTo (List.mem_of_head? hd) hstarted ?_) c
      .systemTick (.tick c)
    intro t ht
    rw [hslot, h.unstarted c hs] at ht
    cases ht

/-! ## Every change -/

theorem InOrder.addThread (h : k.InOrder) {th : Thread G} (hs : th.state = .ready)
    (ho : th.owner = none) : (k.addThread th).InOrder := by
  refine h.of (fun t => ((h.placed t).addThread hs ho).placed) (fun t ht => ?_) (fun _ => rfl)
    (fun d t _ ht => .inl ?_) (fun _ _ => id) fun _ => id
  · rw [stateOf_addThread] at ht
    split at ht
    · rw [hs] at ht
      cases ht
    next hne => exact ⟨ht, (k.ownerOf_addThread th t).trans (if_neg hne)⟩
  · rw [stateOf_addThread] at ht
    split at ht
    · rw [hs] at ht
      cases ht
    · exact ht

/-- A change that no thread, queue, slot or deferred call takes part in. -/
theorem InOrder.quiet (h : k.InOrder) (hplaced : ∀ t, k'.Placed t)
    (hs : ∀ t, k'.stateOf t = k.stateOf t) (ho : ∀ t, k'.ownerOf t = k.ownerOf t)
    (hc : k'.cores = k.cores) : k'.InOrder := by
  refine h.of hplaced (fun t ht => ⟨(hs t).symm.trans ht, ho t⟩) (fun d => ?_)
    (fun d t _ ht => .inl ((hs t).symm.trans ht)) (fun d x hx => ?_) fun d hd => ?_
  · simp only [queues]
    rw [hc]
  · simp only [dpcs] at hx ⊢
    rw [hc]
    exact hx
  · simp only [isStarted] at hd ⊢
    rw [hc]
    exact hd

/-- **Every change keeps order**, if it takes no deferred call and switches on a started core
only. -/
theorem InOrder.apply (h : k.InOrder) {scope : Scope} {ch : Change G} (admitted : scope.Admits ch)
    (enabled : ch.Enabled k) (hscope : scope ≠ .dispatching)
    (hturn : ∀ c, scope = .turning c → k.isStarted c = true) : (ch.apply k).InOrder := by
  have hplaced (t : ThreadId) := ((h.placed t).apply enabled).placed
  cases ch with
  | start c u => exact h.start enabled.1 enabled.2.1 enabled.2.2
  | kill c u => exact h.killThread enabled.1 enabled.2
  | wake c u => exact h.wake enabled
  | advance c => exact h.advance c
  | turn c context => exact h.turn (hturn c (admitted.resolve_right hscope)) context
  | bootstrap c => exact h.bootstrap enabled.1 enabled.2
  | addThread th => exact h.addThread enabled.1 enabled.2
  | adjust u f =>
    exact h.quiet hplaced (k.stateOf_updateThread fun th => (enabled th).1)
      (k.ownerOf_updateThread fun th => (enabled th).2) rfl
  | defer c d => exact h.defer c d
  | undefer c => exact absurd admitted hscope
  | setHandler c irq handler => exact h.setHandler c irq handler
  | addEvent | setRaised | setWaiters | addWait | updateWait | setObjects =>
    exact h.quiet hplaced (fun _ => rfl) (fun _ => rfl) rfl

/-- **A path keeps order.** -/
theorem InOrder.path (h : k.InOrder) {scope : Scope} (path : Path scope.Admits k k')
    (hscope : scope ≠ .dispatching) (hturn : ∀ c, scope = .turning c → k.isStarted c = true) :
    k'.InOrder := by
  refine (path.keeps (I := fun k => k.InOrder ∧ ∀ c, scope = .turning c → k.isStarted c = true)
    (fun k ch admitted enabled hk => ?_) ⟨h, hturn⟩).1
  exact ⟨hk.1.apply admitted enabled hscope hk.2, fun c hc => k.isStarted_apply ch (hk.2 c hc)⟩

/-- A booted kernel is in order: nobody runs, and no core was started. -/
theorem Fresh.inOrder (h : k.Fresh) : k.InOrder where
  placed := h.placed
  running t ht := by
    rcases Nat.lt_or_ge t k.threads.length with hlt | hge
    · rw [h.state t hlt] at ht
      cases ht
    · rw [k.stateOf_eq_terminated_of_le hge] at ht
      cases ht
  pending c t hr _ := by
    rw [h.queues] at hr
    cases hr
  unstarted c _ := by rw [h.queues]

end Kernel

/-! ## Orderly runs -/

/-- What is asked of the operations of an orderly run. -/
structure Segment.Orderly (seg : Segment G) : Prop where
  /-- it is no delivery of an interrupt -/
  direct : seg.op.scope ≠ .dispatching
  /-- whoever it puts aside runs -/
  parks : ∀ t, seg.Parks t → seg.before.stateOf t = .running
  /-- a core it ticks or switches was started -/
  turns : ∀ c, seg.op.scope = .turning c → seg.before.isStarted c = true

/-- Is the segment orderly? -/
def Segment.isOrderly (seg : Segment G) : Bool :=
  decide (seg.op.scope ≠ .dispatching) &&
  seg.parked.all (fun c => (seg.before.queues c).running.all fun t =>
    decide (seg.before.stateOf t = .running)) &&
  match seg.op.scope with
  | .turning c => seg.before.isStarted c
  | _ => true

theorem Segment.orderly_of_isOrderly {seg : Segment G} (h : seg.isOrderly = true) :
    seg.Orderly := by
  simp only [isOrderly] at h
  rw [Bool.and_eq_true, Bool.and_eq_true] at h
  obtain ⟨⟨hdirect, hparks⟩, hturns⟩ := h
  refine ⟨of_decide_eq_true hdirect, fun t ⟨c, hc, hr⟩ => ?_, fun c hc => ?_⟩
  · rw [hc, Option.all_some, hr] at hparks
    exact of_decide_eq_true hparks
  · rw [hc] at hturns
    exact hturns

/-- **An orderly segment keeps order.** -/
theorem Segment.Sound.inOrder {seg : Segment G} (hseg : seg.Sound) (ho : seg.Orderly)
    (h : seg.before.InOrder) : seg.after.InOrder := by
  obtain ⟨k, path, rfl | ⟨c, wake, hparked, rfl⟩⟩ := hseg.exists_path
  · exact h.path path.scoped ho.direct ho.turns
  · have hk : (seg.before.setAside c wake).InOrder := by
      cases hr : (seg.before.queues c).running with
      | none =>
        simp only [Kernel.setAside]
        rw [hr]
        exact h
      | some t => exact h.setAside wake ⟨t, hr, ho.parks t ⟨c, hparked, hr⟩⟩
    refine hk.path path.scoped ho.direct fun d hd => ?_
    exact ((Kernel.onlyQueues_setAside seg.before c wake).started d).trans (ho.turns d hd)

namespace System

variable {m : Machine G} {s₀ s : System G} {history : List (Segment G)} {t : ThreadId}

/-- **An orderly run keeps order.** -/
theorem Runs.inOrder (booted : m.Booted) (run : Runs ⟨m, []⟩ history s)
    (orderly : ∀ seg ∈ history, seg.Orderly) :
    s.machine.kernel.InOrder ∧ ∀ seg ∈ history, seg.before.InOrder ∧ seg.after.InOrder :=
  run.keeps (I := Kernel.InOrder) forall_tasks_start orderly
    (fun _ ho hseg h => hseg.inOrder ho h) booted.fresh.inOrder

/-- A thread that is carried along was never owned, or is owned, or has ended. -/
theorem Runs.owned_cases (run : Runs s₀ history s) (ho : s₀.machine.kernel.ownerOf t = none)
    (hcarries : ∀ seg ∈ history, seg.before.Carries seg.after t) :
    (s.machine.kernel.ownerOf t = none ∧
      ∀ seg ∈ history, seg.before.ownerOf t = none ∧ seg.after.ownerOf t = none) ∨
    s.machine.kernel.ownerOf t ≠ none ∨
    s.machine.kernel.stateOf t = .terminated ∧ t < s.machine.kernel.threads.length := by
  induction run with
  | start => exact .inl ⟨ho, fun _ h => (List.not_mem_nil h).elim⟩
  | @step history s s' seg run next ih =>
    obtain ⟨hbefore, hafter⟩ := next.kernels
    have hk : s.machine.kernel.Carries s'.machine.kernel t :=
      hbefore ▸ hafter ▸ hcarries seg List.mem_cons_self
    -- of the three cases only the first can turn into another one: when the thread is started
    rcases ih fun seg hseg => hcarries seg (List.mem_cons_of_mem _ hseg) with
      ⟨hnone, hall⟩ | howned | ⟨hended, ht⟩
    · by_cases hnew : s'.machine.kernel.ownerOf t = none
      · refine .inl ⟨hnew, List.forall_mem_cons.mpr ⟨?_, hall⟩⟩
        rw [hbefore, hafter]
        exact ⟨hnone, hnew⟩
      · exact .inr (.inl hnew)
    · obtain ⟨c, hc⟩ := Option.ne_none_iff_exists'.mp howned
      have ht : t < s.machine.kernel.threads.length := Kernel.lt_length_of_ownerOf hc
      exact .inr ((hk.owned howned).imp_right fun h => ⟨h, Nat.lt_of_lt_of_le ht hk.threads⟩)
    · exact .inr (.inr ⟨(hk.ended hended ht).1, Nat.lt_of_lt_of_le ht hk.threads⟩)

end System

/-- Queues, owners, states and running slots agree. -/
structure Kernel.Agrees (k : Kernel G) : Prop where
  /-- a thread stands once in the queues of its owner, and nowhere else -/
  occurs : ∀ t c, (k.queues c).ready.count t + (k.queues c).delayed.threads.count t +
    (k.queues c).suspended.count t = if k.ownerOf t = some c then 1 else 0
  /-- the rotation has those that are ready or running -/
  ready : ∀ t c, k.ownerOf t = some c →
    (t ∈ (k.queues c).ready ↔ k.stateOf t = .ready ∨ k.stateOf t = .running)
  /-- the sleepers are those that wait for a time -/
  delayed : ∀ t c, k.ownerOf t = some c →
    (t ∈ (k.queues c).delayed.threads ↔ k.stateOf t = .wait .timed)
  /-- the suspended ones are those that wait without a deadline -/
  suspended : ∀ t c, k.ownerOf t = some c →
    (t ∈ (k.queues c).suspended ↔ k.stateOf t = .wait .infinite)
  /-- a thread without an owner is ready or has ended -/
  unowned : ∀ t, k.ownerOf t = none → k.stateOf t = .ready ∨ k.stateOf t = .terminated
  /-- whoever runs is switched in with its owner -/
  running : ∀ t, k.stateOf t = .running →
    ∃ c, k.ownerOf t = some c ∧ (k.queues c).running = some t
  /-- whoever is switched in is owned by the core, or has ended and a reschedule is queued -/
  slot : ∀ c t, (k.queues c).running = some t → k.ownerOf t = some c ∨
    k.stateOf t = .terminated ∧ k.ownerOf t = none ∧ .reschedule c ∈ k.dpcs c

namespace Kernel

variable {k : Kernel G}

theorem InOrder.agrees (h : k.InOrder) : k.Agrees where
  occurs t c := (h.placed t).sum_count c
  ready t c ho := ((h.placed t).mem_iff ho .ready).trans ThreadState.queue?_eq_ready_iff
  delayed t c ho := by
    refine ((h.placed t).mem_iff ho .delayed).trans ⟨fun hq => ?_, fun hs => by rw [hs]; rfl⟩
    rcases hs : k.stateOf t with _ | _ | (_ | _) | _ <;> rw [hs] at hq <;> first | rfl | cases hq
  suspended t c ho := by
    refine ((h.placed t).mem_iff ho .suspended).trans ⟨fun hq => ?_, fun hs => by rw [hs]; rfl⟩
    rcases hs : k.stateOf t with _ | _ | (_ | _) | _ <;> rw [hs] at hq <;> first | rfl | cases hq
  unowned t := (h.placed t).unowned
  running := h.running
  slot c t hr := by
    refine ((h.placed t).slot c hr).imp_right fun ⟨hs, _⟩ => ?_
    exact ⟨hs, ((h.placed t).buried hs).owner, h.pending c t hr hs⟩

end Kernel

/-- **Queues, owners and states agree.** After any run from a boot, on any number of cores, in which
nobody is put aside who does not run and no core is ticked or switched before it was started, the
queues, owners, states and running slots agree; and a thread that is ready without an owner was
never owned, at no point of the run. -/
theorem queues_owners_states_agree {m : Machine G} {s : System G} {history : List (Segment G)}
    (booted : m.Booted) (run : System.Runs ⟨m, []⟩ history s)
    (orderly : ∀ seg ∈ history, seg.Orderly) :
    s.machine.kernel.Agrees ∧
      ∀ t, s.machine.kernel.ownerOf t = none → s.machine.kernel.stateOf t = .ready →
        ∀ seg ∈ history, seg.before.ownerOf t = none ∧ seg.after.ownerOf t = none := by
  obtain ⟨hend, hall⟩ := run.inOrder booted orderly
  have hsound := (run.sound fun _ h => (List.not_mem_nil h).elim).1
  refine ⟨hend.agrees, fun t ho hs => ?_⟩
  have hcases := run.owned_cases (booted.fresh.owner t) fun seg hmem =>
    (hsound seg hmem).carries ((hall seg hmem).1.placed t) fun hp =>
      .inr ((orderly seg hmem).parks t hp)
  rcases hcases with ⟨-, hnever⟩ | howned | ⟨hended, -⟩
  · exact hnever
  · exact absurd ho howned
  · rw [hs] at hended
    cases hended

/-- Two cores, each with a thread of its own. -/
def twoCores : List (CoreId × Op ⟨Unit, Unit⟩) :=
  [(0, .createThread () "reader"), (0, .createThread () "writer"), (0, .startThread 0 2),
    (0, .startThread 1 3), (0, .bootstrap 0), (1, .bootstrap 1), (0, .newEvent true)]

/-- One thread waits for an event and another is killed while it runs; all agrees, though the killed
thread is still switched in. -/
theorem queues_agree_after_wait_and_kill : ∃ m past s later s',
    Machine.boot? { processors := 2 } {} = some m ∧
    System.play ⟨m, []⟩ twoCores = some (past, s) ∧
    s.play [(0, .enqueueWait 0 .infinite), (0, .yieldThread 0 7), (1, .delay 1 (.ofMillis 10)),
      (1, .onTick 1 8), (1, .onTick 1 9), (0, .killThread 1 3)] =
        some (later, s') ∧
    s'.machine.kernel.stateOf 2 = .wait .infinite ∧
    (s'.machine.kernel.queues 1).running = some 3 ∧ s'.machine.kernel.stateOf 3 = .terminated ∧
    s'.machine.kernel.Agrees := by
  obtain ⟨m, past, s, later, s', hm, hfirst, hsecond, htest⟩ := System.exists_play
    { processors := 2 } {} twoCores
    [(0, .enqueueWait 0 .infinite), (0, .yieldThread 0 7), (1, .delay 1 (.ofMillis 10)),
      (1, .onTick 1 8), (1, .onTick 1 9), (0, .killThread 1 3)]
    (fun past _ later s' => decide (s'.machine.kernel.stateOf 2 = .wait .infinite) &&
      (decide ((s'.machine.kernel.queues 1).running = some 3) &&
        (decide (s'.machine.kernel.stateOf 3 = .terminated) &&
          (later ++ past).all (·.isOrderly)))) (by decide +kernel)
  simp only [Bool.and_eq_true, decide_eq_true_eq, List.all_eq_true] at htest
  obtain ⟨hwaits, hslot, hended, horderly⟩ := htest
  have hrun := (System.runs_of_play hfirst).trans (System.runs_of_play hsecond)
  exact ⟨m, past, s, later, s', hm, hfirst, hsecond, hwaits, hslot, hended,
    (queues_owners_states_agree (Machine.booted_of_boot? hm) hrun fun seg hseg =>
      Segment.orderly_of_isOrderly (horderly seg hseg)).1⟩

end Nucleus
