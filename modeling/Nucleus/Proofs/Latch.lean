import Nucleus.Proofs.Frame
import Nucleus.Proofs.Placement

/-!
# Latches and owners along a run

What every run keeps of events and of owners, whatever its operations do.

* The latch and the waiters of an event are changed by operations on that event only, and wait
  entries by operations on events only: `Kernel.isRaised_path`, `Kernel.waitersOf_path`,
  `Kernel.waits_path`.
* Whether an event is an auto-reset one never changes: `Kernel.isAutoReset_path`.
* Threads are owned by managed cores only: `Kernel.OwnersManaged.path`.
-/

namespace Nucleus

variable {G : Guest}

namespace Kernel

variable (k : Kernel G)

/-! ## Readers of one event -/

/-- A changed event is found changed, every other as it was. -/
theorem getElem?_events_updateEvent (e e' : EventId) (f : Event → Event) :
    (k.updateEvent e f).events[e']? =
      if e = e' then (k.events[e']?).map f else k.events[e']? := by
  simp only [updateEvent, List.getElem?_modify]
  split <;> simp

/-- What is found of an event after a change is the event changed or the event as it was. -/
theorem events_updateEvent_cases (e e' : EventId) (f : Event → Event) :
    (∃ ev, k.events[e']? = some ev ∧ (k.updateEvent e f).events[e']? = some (f ev)) ∨
      (k.updateEvent e f).events[e']? = k.events[e']? := by
  rw [getElem?_events_updateEvent]
  by_cases he : e = e'
  · rw [if_pos he]
    cases k.events[e']? with
    | none => exact .inr rfl
    | some ev => exact .inl ⟨ev, rfl, rfl⟩
  · exact .inr (if_neg he)

/-- Latches are left alone by a change of events in other respects, -/
theorem isRaised_updateEvent {e : EventId} {f : Event → Event}
    (hf : ∀ ev, (f ev).raised = ev.raised) (e' : EventId) :
    (k.updateEvent e f).isRaised e' = k.isRaised e' := by
  simp only [isRaised]
  rcases k.events_updateEvent_cases e e' f with ⟨ev, h, h'⟩ | h
  · rw [h, h']
    exact hf ev
  · rw [h]

/-- and so are flavours, -/
theorem isAutoReset_updateEvent {e : EventId} {f : Event → Event}
    (hf : ∀ ev, (f ev).autoReset = ev.autoReset) (e' : EventId) :
    (k.updateEvent e f).isAutoReset e' = k.isAutoReset e' := by
  simp only [isAutoReset]
  rcases k.events_updateEvent_cases e e' f with ⟨ev, h, h'⟩ | h
  · rw [h, h']
    exact hf ev
  · rw [h]

/-- and waiters. -/
theorem waitersOf_updateEvent {e : EventId} {f : Event → Event}
    (hf : ∀ ev, (f ev).waiters = ev.waiters) (e' : EventId) :
    (k.updateEvent e f).waitersOf e' = k.waitersOf e' := by
  simp only [waitersOf]
  rcases k.events_updateEvent_cases e e' f with ⟨ev, h, h'⟩ | h
  · rw [h, h']
    exact hf ev
  · rw [h]

/-- Latches are no matter of waiters, -/
theorem isRaised_setWaiters (e : EventId) (q : WaitQueue) (e' : EventId) :
    (k.setWaiters e q).isRaised e' = k.isRaised e' := by
  refine k.isRaised_updateEvent ?_ e'
  exact fun _ => rfl

/-- nor are flavours. -/
theorem isAutoReset_setWaiters (e : EventId) (q : WaitQueue) (e' : EventId) :
    (k.setWaiters e q).isAutoReset e' = k.isAutoReset e' := by
  refine k.isAutoReset_updateEvent ?_ e'
  exact fun _ => rfl

/-- An event keeps its flavour when it is latched. -/
theorem isAutoReset_setRaised (e : EventId) (b : Bool) (e' : EventId) :
    (k.setRaised e b).isAutoReset e' = k.isAutoReset e' := by
  refine k.isAutoReset_updateEvent ?_ e'
  exact fun _ => rfl

/-- Other latches are left alone. -/
theorem isRaised_setRaised_of_ne {e e' : EventId} (b : Bool) (he : e ≠ e') :
    (k.setRaised e b).isRaised e' = k.isRaised e' := by
  simp only [isRaised, setRaised]
  rw [getElem?_events_updateEvent, if_neg he]

/-- An event that exists is latched by it. -/
theorem isRaised_setRaised_true {e : EventId} (he : e < k.events.length) :
    (k.setRaised e true).isRaised e = true := by
  simp only [isRaised, setRaised]
  rw [getElem?_events_updateEvent, if_pos rfl, List.getElem?_eq_getElem he]
  rfl

/-- A latch that is cleared is clear, whether the event exists or not. -/
theorem isRaised_setRaised_false (e : EventId) : (k.setRaised e false).isRaised e = false := by
  simp only [isRaised, setRaised]
  rw [getElem?_events_updateEvent, if_pos rfl]
  cases k.events[e]? <;> rfl

/-- An event that exists has the waiters that are set. -/
theorem waitersOf_setWaiters {e : EventId} (he : e < k.events.length) (q : WaitQueue) :
    (k.setWaiters e q).waitersOf e = q := by
  simp only [waitersOf, setWaiters]
  rw [getElem?_events_updateEvent, if_pos rfl, List.getElem?_eq_getElem he]
  rfl

/-- Other events keep theirs. -/
theorem waitersOf_setWaiters_of_ne {e e' : EventId} (q : WaitQueue) (he : e ≠ e') :
    (k.setWaiters e q).waitersOf e' = k.waitersOf e' := by
  simp only [waitersOf, setWaiters]
  rw [getElem?_events_updateEvent, if_neg he]

/-- Waiters are no matter of latches. -/
theorem waitersOf_setRaised (e : EventId) (b : Bool) (e' : EventId) :
    (k.setRaised e b).waitersOf e' = k.waitersOf e' := by
  refine k.waitersOf_updateEvent ?_ e'
  exact fun _ => rfl

@[simp] theorem length_events_setWaiters (e : EventId) (q : WaitQueue) :
    (k.setWaiters e q).events.length = k.events.length :=
  List.length_modify ..

@[simp] theorem length_events_setRaised (e : EventId) (b : Bool) :
    (k.setRaised e b).events.length = k.events.length :=
  List.length_modify ..

/-- An event that was not made yet has no latched signal. -/
theorem lt_length_of_isRaised {k : Kernel G} {e : EventId} (h : k.isRaised e = true) :
    e < k.events.length := by
  refine Nat.lt_of_not_le fun hge => ?_
  simp only [isRaised] at h
  rw [List.getElem?_eq_none hge] at h
  cases h

/-- An event that resets itself exists. -/
theorem lt_length_of_isAutoReset {k : Kernel G} {e : EventId} (h : k.isAutoReset e = true) :
    e < k.events.length := by
  refine Nat.lt_of_not_le fun hge => ?_
  simp only [isAutoReset] at h
  rw [List.getElem?_eq_none hge] at h
  cases h

/-- An event that is made is clear, -/
theorem isRaised_addEvent (autoReset : Bool) (e : EventId) :
    (k.addEvent { autoReset }).isRaised e = k.isRaised e := by
  simp only [isRaised, addEvent]
  rw [getElem?_grown]
  by_cases he : e = k.events.length
  · rw [if_pos he, he, List.getElem?_eq_none (Nat.le_refl _)]
  · rw [if_neg he]

/-- with nobody waiting for it, -/
theorem waitersOf_addEvent (autoReset : Bool) (e : EventId) :
    (k.addEvent { autoReset }).waitersOf e = k.waitersOf e := by
  simp only [waitersOf, addEvent]
  rw [getElem?_grown]
  by_cases he : e = k.events.length
  · rw [if_pos he, he, List.getElem?_eq_none (Nat.le_refl _)]
  · rw [if_neg he]

/-- and others keep their flavours. -/
theorem isAutoReset_addEvent (autoReset : Bool) {e : EventId} (he : e < k.events.length) :
    (k.addEvent { autoReset }).isAutoReset e = k.isAutoReset e := by
  simp only [isAutoReset, addEvent]
  rw [List.getElem?_append_left he]

/-! ## Events along a path -/

variable {k} {k' : Kernel G}

/-- Latches can be told from the events, -/
theorem isRaised_congr (h : k'.events = k.events) (e : EventId) :
    k'.isRaised e = k.isRaised e := by
  simp only [isRaised]
  rw [h]

/-- and so can flavours -/
theorem isAutoReset_congr (h : k'.events = k.events) (e : EventId) :
    k'.isAutoReset e = k.isAutoReset e := by
  simp only [isAutoReset]
  rw [h]

/-- and waiters. -/
theorem waitersOf_congr (h : k'.events = k.events) (e : EventId) :
    k'.waitersOf e = k.waitersOf e := by
  simp only [waitersOf]
  rw [h]

/-- **Latches.** Only operations on an event set or clear its latch. -/
theorem isRaised_path {scope : Scope} {e : EventId} (path : Path scope.Admits k k')
    (hs : scope ≠ .event e) : k'.isRaised e = k.isRaised e := by
  refine path.keeps (I := fun k' => k'.isRaised e = k.isRaised e) (fun k₁ ch admitted _ h => ?_) rfl
  refine Eq.trans ?_ h
  rcases k₁.events_apply_cases ch with ⟨autoReset, rfl⟩ | ⟨e', b, rfl⟩ | ⟨e', q, rfl⟩ | hev
  · exact k₁.isRaised_addEvent autoReset e
  · refine k₁.isRaised_setRaised_of_ne b fun he => hs ?_
    rw [← he]
    exact admitted
  · exact k₁.isRaised_setWaiters e' q e
  · exact isRaised_congr hev e

/-- **Waiters.** Only operations on an event change its queue. -/
theorem waitersOf_path {scope : Scope} {e : EventId} (path : Path scope.Admits k k')
    (hs : scope ≠ .event e) : k'.waitersOf e = k.waitersOf e := by
  refine path.keeps (I := fun k' => k'.waitersOf e = k.waitersOf e)
    (fun k₁ ch admitted _ h => ?_) rfl
  refine Eq.trans ?_ h
  rcases k₁.events_apply_cases ch with ⟨autoReset, rfl⟩ | ⟨e', b, rfl⟩ | ⟨e', q, rfl⟩ | hev
  · exact k₁.waitersOf_addEvent autoReset e
  · exact k₁.waitersOf_setRaised e' b e
  · refine k₁.waitersOf_setWaiters_of_ne q fun he => hs ?_
    rw [← he]
    exact admitted
  · exact waitersOf_congr hev e

/-- **Wait entries.** Only operations on events make and change them. -/
theorem waits_path {scope : Scope} (path : Path scope.Admits k k') (hs : ∀ e, scope ≠ .event e) :
    k'.waits = k.waits :=
  path.keeps (I := fun k' => k'.waits = k.waits)
    (fun _ _ admitted _ h => (waits_apply admitted hs).trans h) rfl

/-- No event goes away, and the flavour of an event never changes. -/
theorem isAutoReset_path {admits : Change G → Prop} (path : Path admits k k') :
    k.events.length ≤ k'.events.length ∧
      ∀ e < k.events.length, k'.isAutoReset e = k.isAutoReset e := by
  refine path.keeps (I := fun k' => k.events.length ≤ k'.events.length ∧
    ∀ e < k.events.length, k'.isAutoReset e = k.isAutoReset e) (fun k₁ ch _ _ h => ?_)
    ⟨Nat.le_refl _, fun _ _ => rfl⟩
  obtain ⟨hlen, hauto⟩ := h
  rcases k₁.events_apply_cases ch with ⟨autoReset, rfl⟩ | ⟨e', b, rfl⟩ | ⟨e', q, rfl⟩ | hev
  · refine ⟨Nat.le_trans hlen ?_, fun e he => ?_⟩
    · exact (List.prefix_append k₁.events [({ autoReset } : Event)]).length_le
    · exact (k₁.isAutoReset_addEvent autoReset (Nat.lt_of_lt_of_le he hlen)).trans (hauto e he)
  · exact ⟨Nat.le_trans hlen (Nat.le_of_eq (k₁.length_events_setRaised e' b).symm),
      fun e he => (k₁.isAutoReset_setRaised e' b e).trans (hauto e he)⟩
  · exact ⟨Nat.le_trans hlen (Nat.le_of_eq (k₁.length_events_setWaiters e' q).symm),
      fun e he => (k₁.isAutoReset_setWaiters e' q e).trans (hauto e he)⟩
  · exact ⟨Nat.le_trans hlen (Nat.le_of_eq (congrArg _ hev.symm)),
      fun e he => (isAutoReset_congr hev e).trans (hauto e he)⟩

/-! ## Owners along a path -/

/-- Threads are owned by managed cores only. -/
def OwnersManaged (k : Kernel G) : Prop := ∀ t c, k.ownerOf t = some c → k.manages c = true

/-- A change that makes no new owner. -/
theorem OwnersManaged.of (h : k.OwnersManaged) (hm : ∀ c, k'.manages c = k.manages c)
    (ho : ∀ t c, k'.ownerOf t = some c → k.ownerOf t = some c ∨ k.manages c = true) :
    k'.OwnersManaged := by
  intro t c hc
  rw [hm]
  rcases ho t c hc with hc | hc
  · exact h t c hc
  · exact hc

/-- A move of one thread to no core or to a managed one. -/
theorem OwnersManaged.moved {u : ThreadId} {o : Option CoreId} {s : ThreadState}
    (h : k.OwnersManaged) (hm : k.Moves k' u o s) (hk : ∀ c, k'.manages c = k.manages c)
    (ho : ∀ c, o = some c → k.manages c = true) : k'.OwnersManaged := by
  refine h.of hk fun t c hc => ?_
  by_cases hne : u = t
  · subst hne
    have hu : u < k.threads.length := hm.length ▸ lt_length_of_ownerOf hc
    rw [hm.owner hu] at hc
    exact .inr (ho c hc)
  · exact .inl (hm.owner_of_ne t hne ▸ hc)

/-- A managed core takes a thread. -/
theorem OwnersManaged.startThread {c : CoreId} (h : k.OwnersManaged) (hc : k.manages c = true)
    (u : ThreadId) : (Effect.startThread c u k).1.OwnersManaged := by
  have hmoved : ((k.setOwner u (some c)).makeReady c u).OwnersManaged :=
    h.moved (moves_start hc u) ((Adjusts.refl.thread u _).makeReady c u).manages fun _ hd =>
      Option.some.inj hd ▸ hc
  simp only [Effect.startThread]
  split
  · exact h
  · split
    · exact hmoved
    · exact h

/-- Owners are left alone by a switch. -/
theorem OwnersManaged.switchTo (h : k.OwnersManaged) (c : CoreId) (u : ThreadId) :
    (k.switchTo c u).OwnersManaged :=
  h.of (fun d => manages_updateQueues (k.setState u .running) c d _)
    fun t _ hd => .inl ((k.ownerOf_setState u t .running).symm.trans hd)

/-- Only a start makes an owner, and it is a managed core. -/
theorem OwnersManaged.apply {ch : Change G} (h : k.OwnersManaged) (enabled : ch.Enabled k) :
    (ch.apply k).OwnersManaged := by
  have hm (c : CoreId) := k.manages_apply ch c
  cases ch with
  | start c u =>
    exact h.moved (moves_start enabled.1 u) hm fun d hd => Option.some.inj hd ▸ enabled.1
  | kill c u =>
    have hk : ((k.setOwner u none).terminate c u).OwnersManaged :=
      h.moved (moves_kill enabled.1 u)
        (manages_updateQueues (k.setOwner u none) c · (·.expel u)) nofun
    dsimp only [Change.apply]
    simp only [Effect.killThread]
    rw [if_pos enabled.2]
    dsimp only
    split
    · exact hk.of (manages_updateCore _ c · _) fun _ _ hd => .inl hd
    · exact hk
  | wake c u =>
    refine h.moved (moves_wake (manages_of_isParked enabled) u) hm fun d hd => h u d hd
  | advance c => exact h.of hm fun t d hd => .inl ((k.ownerOf_advance c t).symm.trans hd)
  | turn c context =>
    dsimp only [Change.apply]
    simp only [Effect.yieldThread, rotate]
    cases (k.queues c).successor with
    | none => exact h
    | some next =>
      have hk : (k.interruptRunning c context).OwnersManaged :=
        h.of (Adjusts.refl.interruptRunning c context).manages fun t _ hd =>
          .inl ((k.ownerOf_interruptRunning c context t).symm.trans hd)
      exact hk.switchTo c next
  | bootstrap c =>
    have hmark : (k.updateCore c fun core => { core with started := true }).OwnersManaged :=
      h.of (k.manages_updateCore c · _) fun _ _ hd => .inl hd
    have hprepare : (Effect.prepare c k).OwnersManaged := by
      simp only [Effect.prepare, Effect.bringIdle]
      split
      · exact hmark
      · exact hmark.startThread ((k.manages_updateCore c c _).trans enabled.1) _
    dsimp only [Change.apply]
    simp only [Effect.install, Effect.switchFirst]
    cases ((Effect.prepare c k).queues c).ready.head? with
    | none => exact hprepare
    | some next =>
      exact (hprepare.switchTo c next).of (manages_updateCore _ c · _) fun _ _ hd => .inl hd
  | addThread th =>
    refine h.of hm fun t d hd => .inl ?_
    dsimp only [Change.apply] at hd
    rw [ownerOf_addThread, enabled.2] at hd
    split at hd
    · cases hd
    · exact hd
  | adjust u f =>
    refine h.of hm fun t d hd => .inl ?_
    exact (k.ownerOf_updateThread (fun th => (enabled th).2) t).symm.trans hd
  | defer | undefer | setHandler | addEvent | setRaised | setWaiters | addWait | updateWait
  | setObjects => exact h.of hm fun _ _ hd => .inl hd

/-- Owners are managed along a path, -/
theorem OwnersManaged.path {admits : Change G → Prop} (h : k.OwnersManaged)
    (path : Path admits k k') : k'.OwnersManaged :=
  path.keeps (fun _ _ _ enabled hk => hk.apply enabled) h

/-- and after somebody is put aside. -/
theorem OwnersManaged.setAside (h : k.OwnersManaged) (c : CoreId) (wake : Option Nat) :
    (k.setAside c wake).OwnersManaged := by
  cases hr : (k.queues c).running with
  | none =>
    simp only [Kernel.setAside]
    rw [hr]
    exact h
  | some u =>
    exact h.moved (moves_setAside hr) (Adjusts.refl.setAside c wake).manages fun d hd => h u d hd

end Kernel

/-! ## Segments -/

/-- Owners are managed after a segment. -/
theorem Segment.Sound.ownersManaged {seg : Segment G} (hseg : seg.Sound)
    (h : seg.before.OwnersManaged) : seg.after.OwnersManaged := by
  obtain ⟨k, path, rfl | ⟨c, wake, -, rfl⟩⟩ := hseg.exists_path
  · exact h.path path
  · exact (h.setAside c wake).path path

/-- No segment loses an event or changes its flavour. -/
theorem Segment.Sound.isAutoReset {seg : Segment G} (hseg : seg.Sound) :
    seg.before.events.length ≤ seg.after.events.length ∧
      ∀ e < seg.before.events.length, seg.after.isAutoReset e = seg.before.isAutoReset e := by
  obtain ⟨k, path, rfl | ⟨c, wake, -, rfl⟩⟩ := hseg.exists_path
  · exact Kernel.isAutoReset_path path
  · have hev : (seg.before.setAside c wake).events = seg.before.events :=
      (Kernel.Adjusts.refl.setAside c wake).events
    obtain ⟨hlen, hauto⟩ := Kernel.isAutoReset_path path
    rw [hev] at hlen hauto
    exact ⟨hlen, fun e he => (hauto e he).trans (Kernel.isAutoReset_congr hev e)⟩

/-- A segment of an operation on anything else leaves the latch of an event alone. -/
theorem Segment.Sound.isRaised_of_ne {seg : Segment G} (hseg : seg.Sound) {e : EventId}
    (hs : seg.op.scope ≠ .event e) : seg.after.isRaised e = seg.before.isRaised e := by
  obtain ⟨k, path, rfl | ⟨c, wake, -, rfl⟩⟩ := hseg.exists_path
  · exact Kernel.isRaised_path path.scoped hs
  · have hev : (seg.before.setAside c wake).events = seg.before.events :=
      (Kernel.Adjusts.refl.setAside c wake).events
    exact (Kernel.isRaised_path path.scoped hs).trans (Kernel.isRaised_congr hev e)

/-- No segment makes or unmakes a core. -/
theorem Segment.Sound.manages {seg : Segment G} (hseg : seg.Sound) (d : CoreId) :
    seg.after.manages d = seg.before.manages d := by
  have hpath {k k' : Kernel G} (path : Kernel.Path seg.op.MayMake k k') :
      k'.manages d = k.manages d :=
    path.keeps (I := fun k' => k'.manages d = k.manages d)
      (fun k₁ ch _ _ h => (k₁.manages_apply ch d).trans h) rfl
  obtain ⟨k, path, rfl | ⟨c, wake, -, rfl⟩⟩ := hseg.exists_path
  · exact hpath path
  · exact (hpath path).trans ((Kernel.Adjusts.refl.setAside c wake).manages d)

/-- Nobody owns anything after a boot. -/
theorem Kernel.Fresh.ownersManaged {k : Kernel G} (h : k.Fresh) : k.OwnersManaged := by
  intro t c hc
  rw [h.owner] at hc
  cases hc

end Nucleus
