import Nucleus.Proofs.Signals

/-!
# Waiters

Along a run the queues of events are in order: a queue holds names of entries in the order in which
they were made, an entry stands in one queue only and is not marked while it does, and nobody
stands in the queue of an event whose latch is set.

* `Segment.Deals` says what a segment can do to wait entries and to the queues of events: it lets
  them alone, queues an entry, completes one, or signals.
* `Kernel.WaitersInOrder` is the invariant, and `Segment.Deals.waitersInOrder` says that every
  segment keeps it.
* `nobody_waits_for_a_set_event` is the part about the latch.
-/

namespace Nucleus

variable {G : Guest}

/-! ## What a signal does to entries and queues -/

/-- Entries by name, with the named ones marked. -/
def WaitEntry.signalAll (ws : WaitQueue) (entries : List WaitEntry) : List WaitEntry :=
  ws.foldl (fun entries w => entries.modify w signal) entries

namespace WaitEntry

@[simp] theorem length_signalAll (ws : WaitQueue) (entries : List WaitEntry) :
    (signalAll ws entries).length = entries.length := by
  induction ws generalizing entries with
  | nil => rfl
  | cons w ws ih => exact (ih _).trans (List.length_modify ..)

theorem getElem?_signalAll (ws : WaitQueue) (entries : List WaitEntry) (v : WaitId) :
    (signalAll ws entries)[v]? = if v ∈ ws then (entries[v]?).map signal else entries[v]? := by
  induction ws generalizing entries with
  | nil => rfl
  | cons w ws ih =>
    have hmodify : (entries.modify w signal)[v]? =
        if w = v then (entries[v]?).map signal else entries[v]? := by
      rw [List.getElem?_modify]
      split <;> simp
    refine (ih _).trans ?_
    rw [hmodify]
    by_cases hw : w = v
    · -- marking an entry again changes nothing
      rw [if_pos hw, if_pos (List.mem_cons.mpr (.inl hw.symm)), Option.map_map]
      split <;> rfl
    · have hmem : v ∈ w :: ws ↔ v ∈ ws := by simp [Ne.symm hw]
      rw [if_neg hw]
      simp only [hmem]

end WaitEntry

namespace Kernel

/-- The waiters of an event stay, and its latch is not set. -/
structure LetsAlone (k k' : Kernel G) (e : EventId) : Prop where
  /-- the queue stays as it is -/
  waiters : k'.waitersOf e = k.waitersOf e
  /-- the latch is not set -/
  latch : k'.isRaised e = true → k.isRaised e = true

/-- The oldest waiters of an event are popped and marked; the latch is set only if nobody is
left. -/
structure Hands (k k' : Kernel G) (e : EventId) (popped : WaitQueue) : Prop where
  /-- the oldest leave the queue -/
  queue : k.waitersOf e = popped ++ k'.waitersOf e
  /-- they are marked, and nobody else is -/
  waits : k'.waits = WaitEntry.signalAll popped k.waits
  /-- where the latch is set newly, nobody is left -/
  latch : k'.isRaised e = true → k.isRaised e = true ∨ k'.waitersOf e = []
  /-- other events are let alone -/
  others : ∀ e', e ≠ e' → k.LetsAlone k' e'

variable {k k' : Kernel G} {e : EventId}

theorem letsAlone_of_events (h : k'.events = k.events) (e : EventId) : k.LetsAlone k' e :=
  ⟨waitersOf_congr h e, fun hr => (isRaised_congr h e).symm.trans hr⟩

theorem LetsAlone.trans {k'' : Kernel G} (h : k.LetsAlone k' e) (h' : k'.LetsAlone k'' e) :
    k.LetsAlone k'' e :=
  ⟨h'.waiters.trans h.waiters, fun hr => h.latch (h'.latch hr)⟩

theorem LetsAlone.sublist (h : k.LetsAlone k' e) : (k'.waitersOf e).Sublist (k.waitersOf e) :=
  h.waiters ▸ List.Sublist.refl _

theorem letsAlone_setWaiters {e e' : EventId} (q : WaitQueue) (he : e ≠ e') :
    k.LetsAlone (k.setWaiters e q) e' :=
  ⟨k.waitersOf_setWaiters_of_ne q he, fun hr => (k.isRaised_setWaiters e q e').symm.trans hr⟩

theorem letsAlone_setRaised {e e' : EventId} (b : Bool) (he : e ≠ e') :
    k.LetsAlone (k.setRaised e b) e' :=
  ⟨k.waitersOf_setRaised e b e', fun hr => (k.isRaised_setRaised_of_ne b he).symm.trans hr⟩

/-- A latch that is cleared is not set. -/
theorem letsAlone_clear (e e' : EventId) : k.LetsAlone (k.setRaised e false) e' := by
  refine ⟨k.waitersOf_setRaised e false e', fun hr => ?_⟩
  by_cases he : e = e'
  · subst he
    rw [k.isRaised_setRaised_false e] at hr
    cases hr
  · rwa [k.isRaised_setRaised_of_ne false he] at hr

end Kernel

namespace Effect

variable {e : EventId}

/-- The waiters that are tried are popped and marked, up to one that is woken; if nobody is woken,
nobody is left. The induction is on the queue. -/
theorem hands_releaseOne (waiters : WaitQueue) (k : Kernel G) (he : e < k.events.length)
    (hq : k.waitersOf e = waiters) :
    ∃ popped, k.Hands (releaseOne e waiters k).1 e popped ∧
      (releaseOne e waiters k).1.isRaised e = k.isRaised e ∧
      (releaseOne e waiters k).1.events.length = k.events.length ∧
      ((releaseOne e waiters k).2 = false → (releaseOne e waiters k).1.waitersOf e = []) := by
  induction waiters generalizing k with
  | nil => exact ⟨[], ⟨rfl, rfl, .inl, fun e' _ => Kernel.letsAlone_of_events rfl e'⟩, rfl, rfl,
      fun _ => hq⟩
  | cons w rest ih =>
    have hqueue : (k.setWaiters e rest).waitersOf e = rest := k.waitersOf_setWaiters he rest
    obtain ⟨hev, hwaits⟩ := tables_release (k.setWaiters e rest) w
    have hlen : (release w (k.setWaiters e rest)).1.events.length = k.events.length := by
      rw [hev]
      exact k.length_events_setWaiters e rest
    have hq₁ : (release w (k.setWaiters e rest)).1.waitersOf e = rest :=
      (Kernel.waitersOf_congr hev e).trans hqueue
    have hraised : (release w (k.setWaiters e rest)).1.isRaised e = k.isRaised e :=
      (Kernel.isRaised_congr hev e).trans (k.isRaised_setWaiters e rest e)
    have hothers (e' : EventId) (he' : e ≠ e') :
        k.LetsAlone (release w (k.setWaiters e rest)).1 e' :=
      (Kernel.letsAlone_setWaiters rest he').trans (Kernel.letsAlone_of_events hev e')
    simp only [releaseOne]
    cases hwoken : (release w (k.setWaiters e rest)).2 with
    | true =>
      rw [if_pos rfl]
      refine ⟨[w], ⟨?_, hwaits, fun hr => .inl (hraised ▸ hr), hothers⟩, hraised, hlen,
        fun hw => absurd hw (Ne.symm Bool.false_ne_true)⟩
      rw [hq₁]
      exact hq
    | false =>
      rw [if_neg Bool.false_ne_true]
      obtain ⟨popped, h, hr, hl, hnone⟩ := ih _ (hlen ▸ he) hq₁
      refine ⟨w :: popped, ⟨?_, ?_, fun hr' => .inl ?_, fun e' he' => ?_⟩, hr.trans hraised,
        hl.trans hlen, hnone⟩
      · rw [List.cons_append, ← h.queue, hq₁]
        exact hq
      · rw [h.waits, hwaits]
        rfl
      · rw [← hraised, ← hr]
        exact hr'
      · exact (hothers e' he').trans (h.others e' he')

theorem tables_releaseAll (waiters : WaitQueue) (k : Kernel G) :
    (releaseAll waiters k).events = k.events ∧
      (releaseAll waiters k).waits = WaitEntry.signalAll waiters k.waits := by
  induction waiters generalizing k with
  | nil => exact ⟨rfl, rfl⟩
  | cons w rest ih =>
    obtain ⟨hev, hwaits⟩ := tables_release k w
    obtain ⟨hev', hwaits'⟩ := ih (release w k).1
    refine ⟨hev'.trans hev, ?_⟩
    rw [releaseAll, hwaits', hwaits]
    rfl

/-- **A signal of either flavour.** -/
theorem hands_signalEvent (k : Kernel G) (he : e < k.events.length) :
    ∃ popped, k.Hands (signalEvent e k) e popped := by
  unfold signalEvent
  split
  · obtain ⟨popped, h, hr, hl, hnone⟩ := hands_releaseOne (k.waitersOf e) k he rfl
    dsimp only
    split
    · exact ⟨popped, h⟩
    next hwoken =>
      -- nobody could be woken: the queue is empty, and the latch is set
      have hempty := hnone (Bool.eq_false_iff.mpr hwoken)
      refine ⟨popped, ?_, h.waits, fun _ => .inr ?_, fun e' he' => ?_⟩
      · rw [Kernel.waitersOf_setRaised]
        exact h.queue
      · rw [Kernel.waitersOf_setRaised]
        exact hempty
      · exact (h.others e' he').trans (Kernel.letsAlone_setRaised true he')
  · obtain ⟨hev, hwaits⟩ :=
      tables_releaseAll (k.waitersOf e) ((k.setRaised e true).setWaiters e [])
    have hempty : (releaseAll (k.waitersOf e) ((k.setRaised e true).setWaiters e [])).waitersOf e =
        [] := by
      refine (Kernel.waitersOf_congr hev e).trans (Kernel.waitersOf_setWaiters _ ?_ [])
      rwa [Kernel.length_events_setRaised]
    refine ⟨k.waitersOf e, ?_, hwaits, fun _ => .inr hempty, fun e' he' => ?_⟩
    · rw [hempty, List.append_nil]
    · exact ((Kernel.letsAlone_setRaised true he').trans (Kernel.letsAlone_setWaiters [] he')).trans
        (Kernel.letsAlone_of_events hev e')

end Effect

/-! ## What a segment does to entries and queues -/

/-- What an operation is to those who wait. -/
inductive Deed where
  /-- nothing -/
  | nothing
  /-- it queued an entry for an event, for a span -/
  | queues (e : EventId) (w : WaitId) (span : TimeSpan)
  /-- it completed an entry by way of an event -/
  | completes (e : EventId) (w : WaitId)
  /-- it signalled an event -/
  | signals (e : EventId)
  deriving DecidableEq

/-- What an operation with this answer is to those who wait. Both halves of a wait at once leave
nothing behind. -/
def Op.deed : (op : Op G) → Option op.Result → Deed
  | enqueueWait e span, some (.ok (some w)) => .queues e w span
  | completeWait e w, _ => .completes e w
  | signalEvent e, _ => .signals e
  | _, _ => .nothing

namespace Segment

/-- What the segment is to those who wait. -/
def deed (seg : Segment G) : Deed := seg.op.deed seg.answer

/-- **What a segment does to wait entries and to the queues of events.** -/
inductive Deals (seg : Segment G) : Prop where
  /-- they are let alone: it is an operation on something else, or one that only looks, or changes
  a latch -/
  | nothing (deed : seg.deed = .nothing) (waits : seg.after.waits = seg.before.waits)
    (events : ∀ e, seg.before.LetsAlone seg.after e)
    (rest : (∀ e, seg.op.scope ≠ .event e) ∨
      seg.after.threads = seg.before.threads ∧ seg.after.cores = seg.before.cores)
  /-- the running thread is put aside, and an entry of it is queued -/
  | queues (e : EventId) (t : ThreadId) (span : TimeSpan)
    (deed : seg.deed = .queues e seg.before.waits.length span)
    (parked : seg.parked = some seg.core)
    (thread : (seg.before.queues seg.core).running = some t)
    (after : seg.after = Effect.queueAside e seg.core span t seg.before)
    (waits : seg.after.waits = seg.before.waits ++ [{ thread := t }])
    (queue : seg.after.waitersOf e = seg.before.waitersOf e ++ [seg.before.waits.length])
    (clear : seg.after.isRaised e = false)
    (others : ∀ e', e ≠ e' → seg.before.LetsAlone seg.after e')
  /-- the running thread is put aside, and an entry of it is queued and completed at once -/
  | visits (e : EventId) (t : ThreadId) (deed : seg.deed = .nothing)
    (op : ∃ span, seg.op = .waitEvent e span) (parked : seg.parked = some seg.core)
    (waits : seg.after.waits = seg.before.waits ++ [{ thread := t }])
    (queue : seg.after.waitersOf e =
      (seg.before.waitersOf e ++ [seg.before.waits.length]).erase seg.before.waits.length)
    (clear : seg.after.isRaised e = false)
    (others : ∀ e', e ≠ e' → seg.before.LetsAlone seg.after e')
  /-- an entry is completed: it leaves the queue, and its mark is taken -/
  | completes (e : EventId) (w : WaitId) (deed : seg.deed = .completes e w)
    (waits : seg.after.waits = seg.before.waits.modify w WaitEntry.take)
    (queue : seg.after.waitersOf e = (seg.before.waitersOf e).erase w)
    (latch : seg.after.isRaised e = seg.before.isRaised e)
    (others : ∀ e', e ≠ e' → seg.before.LetsAlone seg.after e')
    (rest : seg.after.threads = seg.before.threads ∧ seg.after.cores = seg.before.cores)
  /-- an event is signalled -/
  | signals (e : EventId) (popped : WaitQueue) (deed : seg.deed = .signals e)
    (after : seg.after = Effect.signalEvent e seg.before)
    (hands : seg.before.Hands seg.after e popped)

end Segment

namespace Effect

variable (k : Kernel G) (e : EventId) (c : CoreId) (span : TimeSpan) (t : ThreadId)

/-- Queueing a thread makes one entry, at the end of the table. -/
theorem waits_queueAside :
    (queueAside e c span t k).waits = k.waits ++ [{ thread := t }] :=
  congrArg (· ++ [_]) (Kernel.Adjusts.refl.setAside c (deadline k c span)).waits

theorem events_beforeQueueAside :
    ((requestYield c (k.setAside c (deadline k c span))).addWait { thread := t }).events =
      k.events :=
  (Kernel.Adjusts.refl.setAside c (deadline k c span)).events

theorem waitersOf_queueAside {e : EventId} (he : e < k.events.length) :
    (queueAside e c span t k).waitersOf e = k.waitersOf e ++ [k.waits.length] := by
  refine Kernel.waitersOf_setWaiters _ ?_ _
  rwa [events_beforeQueueAside]

theorem letsAlone_queueAside {e e' : EventId} (he : e ≠ e') :
    k.LetsAlone (queueAside e c span t k) e' :=
  (Kernel.letsAlone_of_events (events_beforeQueueAside k c span t) e').trans
    (Kernel.letsAlone_setWaiters _ he)

/-- Using a signal sets no latch and queues nobody, and no thread is touched. -/
theorem letsAlone_tryConsume : (tryConsume e k).1.waits = k.waits ∧
    (∀ e', k.LetsAlone (tryConsume e k).1 e') ∧
      (tryConsume e k).1.threads = k.threads ∧ (tryConsume e k).1.cores = k.cores := by
  simp only [tryConsume]
  by_cases hr : k.isRaised e
  · rw [if_pos hr]
    by_cases ha : k.isAutoReset e
    · rw [if_pos ha]
      exact ⟨rfl, Kernel.letsAlone_clear e, rfl, rfl⟩
    · rw [if_neg ha]
      exact ⟨rfl, Kernel.letsAlone_of_events rfl, rfl, rfl⟩
  · rw [if_neg hr]
    exact ⟨rfl, Kernel.letsAlone_of_events rfl, rfl, rfl⟩

/-- Taking the mark of an entry that has none changes nothing. -/
theorem modify_take_of_not_signaled {k : Kernel G} {w : WaitId} (h : k.isSignaled w = false) :
    k.waits.modify w WaitEntry.take = k.waits := by
  refine List.ext_getElem? fun v => ?_
  rw [List.getElem?_modify]
  split
  next hv =>
    subst hv
    simp only [Kernel.isSignaled] at h
    cases hw : k.waits[w]? with
    | none => rfl
    | some entry =>
      rw [hw] at h
      obtain ⟨thread, signaled⟩ := entry
      obtain rfl : signaled = false := h
      rfl
  next => simp

theorem completeWait_eq (w : WaitId) : completeWait e w k =
    if k.isSignaled w then
      ((k.setWaiters e ((k.waitersOf e).erase w)).updateWait w WaitEntry.take, .ok ())
    else (k.setWaiters e ((k.waitersOf e).erase w), .error .timeout) := rfl

/-- What the second half of a wait does to the entry, the queue and the latch. -/
theorem tables_completeWait {e : EventId} (w : WaitId) (he : e < k.events.length) :
    (completeWait e w k).1.waits = k.waits.modify w WaitEntry.take ∧
      (completeWait e w k).1.waitersOf e = (k.waitersOf e).erase w ∧
      (completeWait e w k).1.isRaised e = k.isRaised e ∧
      (∀ e', e ≠ e' → k.LetsAlone (completeWait e w k).1 e') ∧
      (completeWait e w k).1.threads = k.threads ∧ (completeWait e w k).1.cores = k.cores := by
  have hqueue : (k.setWaiters e ((k.waitersOf e).erase w)).waitersOf e = _ :=
    k.waitersOf_setWaiters he _
  have hraised := k.isRaised_setWaiters e ((k.waitersOf e).erase w) e
  have hothers (e' : EventId) (he' : e ≠ e') :=
    Kernel.letsAlone_setWaiters (k := k) ((k.waitersOf e).erase w) he'
  rw [completeWait_eq]
  cases hs : k.isSignaled w with
  | true =>
    rw [if_pos rfl]
    exact ⟨rfl, hqueue, hraised, fun e' he' => ⟨(hothers e' he').waiters, (hothers e' he').latch⟩,
      rfl, rfl⟩
  | false =>
    rw [if_neg Bool.false_ne_true]
    exact ⟨(modify_take_of_not_signaled hs).symm, hqueue, hraised, hothers, rfl, rfl⟩

end Effect

namespace Segment

variable {seg : Segment G} {e : EventId} {core : CoreId} {span : TimeSpan} {k : Kernel G}

theorem deals_enqueueLocked (first : Bool) (hn : ¬ span.isNegative) (he : e < k.events.length) :
    Deals ⟨core, .enqueueWait e span, first, k, (Effect.enqueueLocked e core span k).1,
      some (Effect.enqueueLocked e core span k).2⟩ := by
  rcases Effect.enqueueLocked_cases k e core hn with
    ⟨-, h⟩ | ⟨-, -, h⟩ | ⟨-, -, -, h⟩ | ⟨hr, -, t, ht, h⟩ <;> rw [h]
  · obtain ⟨hwaits, hevents, hrest⟩ := Effect.letsAlone_tryConsume k e
    exact .nothing rfl hwaits hevents (.inr hrest)
  · exact .nothing rfl rfl (Kernel.letsAlone_of_events rfl) (.inr ⟨rfl, rfl⟩)
  · exact .nothing rfl rfl (Kernel.letsAlone_of_events rfl) (.inr ⟨rfl, rfl⟩)
  · refine .queues e t span rfl rfl ht rfl (Effect.waits_queueAside k e core span t)
      (Effect.waitersOf_queueAside k core span t he) ?_
      fun e' he' => Effect.letsAlone_queueAside k core span t he'
    exact (Effect.isRaised_queueAside core span t).trans (Bool.eq_false_iff.mpr hr)

theorem deals_waitEvent (he : e < k.events.length) :
    Deals ⟨core, .waitEvent e span, true, k, (Effect.waitEvent core e span k).1,
      some (Effect.waitEvent core e span k).2⟩ := by
  simp only [Effect.waitEvent]
  by_cases hn : span.isNegative
  · have h : Effect.enqueueWait core e span k = (k, .error .argumentOutOfRange) := if_pos hn
    rw [h]
    exact .nothing rfl rfl (Kernel.letsAlone_of_events rfl) (.inr ⟨rfl, rfl⟩)
  · rw [Effect.enqueueWait_of_not_negative k core e hn]
    rcases Effect.enqueueLocked_cases k e core hn with
      ⟨-, h⟩ | ⟨-, -, h⟩ | ⟨-, -, -, h⟩ | ⟨hr, hz, t, ht, h⟩ <;> rw [h]
    · obtain ⟨hwaits, hevents, hrest⟩ := Effect.letsAlone_tryConsume k e
      exact .nothing rfl hwaits hevents (.inr hrest)
    · exact .nothing rfl rfl (Kernel.letsAlone_of_events rfl) (.inr ⟨rfl, rfl⟩)
    · exact .nothing rfl rfl (Kernel.letsAlone_of_events rfl) (.inr ⟨rfl, rfl⟩)
    · -- the entry that is queued is completed before anybody else can see it
      have he' : e < (Effect.queueAside e core span t k).events.length := by
        simp only [Effect.queueAside]
        rwa [Kernel.length_events_setWaiters, Effect.events_beforeQueueAside]
      obtain ⟨hwaits, hqueue, hraised, hothers, -⟩ :=
        Effect.tables_completeWait (Effect.queueAside e core span t k) k.waits.length he'
      have hunmarked := Effect.isSignaled_queueAside k e core span t
      rw [Effect.modify_take_of_not_signaled hunmarked] at hwaits
      rw [Effect.waitersOf_queueAside k core span t he] at hqueue
      have hparked : Segment.parked ⟨core, .waitEvent e span, true, k,
          (Effect.completeWait e k.waits.length (Effect.queueAside e core span t k)).1,
          some (Effect.completeWait e k.waits.length (Effect.queueAside e core span t k)).2⟩ =
            some core := by
        rw [Effect.completeWait_eq, hunmarked, if_neg Bool.false_ne_true]
        exact if_neg hz
      refine .visits e t rfl ⟨span, rfl⟩ hparked
        (hwaits.trans (Effect.waits_queueAside k e core span t)) hqueue ?_
        fun e' he' => (Effect.letsAlone_queueAside k core span t he').trans (hothers e' he')
      exact hraised.trans ((Effect.isRaised_queueAside core span t).trans
        (Bool.eq_false_iff.mpr hr))

/-- Operations on anything but events let all that waits alone. -/
theorem Sound.deals_of_scope (hseg : seg.Sound) (hs : ∀ e, seg.op.scope ≠ .event e) :
    seg.Deals := by
  have hdeed : seg.deed = .nothing := by
    simp only [deed]
    revert hs
    generalize seg.answer = answer
    revert answer
    generalize seg.op = op
    intro answer hs
    cases op with
    | enqueueWait e => exact absurd rfl (hs e)
    | completeWait e => exact absurd rfl (hs e)
    | signalEvent e => exact absurd rfl (hs e)
    | _ => rfl
  obtain ⟨k, hpath, rfl | ⟨c, wake, -, rfl⟩⟩ := hseg.exists_path
  all_goals have path := hpath.scoped
  · refine .nothing hdeed (Kernel.waits_path path hs) (fun e => ?_) (.inl hs)
    exact ⟨Kernel.waitersOf_path path (hs e), fun hr => (Kernel.isRaised_path path (hs e)) ▸ hr⟩
  · have haside : seg.before.Adjusts (seg.before.setAside c wake) := .setAside .refl c wake
    refine .nothing hdeed ((Kernel.waits_path path hs).trans haside.waits) (fun e => ?_) (.inl hs)
    refine (Kernel.letsAlone_of_events haside.events e).trans ?_
    exact ⟨Kernel.waitersOf_path path (hs e), fun hr => (Kernel.isRaised_path path (hs e)) ▸ hr⟩

/-- **Every segment of an operation on an event that is there does one of these.** -/
theorem Sound.deals (hseg : seg.Sound) (valid : seg.op.Valid seg.before) : seg.Deals := by
  by_cases hs : ∃ e, seg.op.scope = .event e
  · obtain ⟨e, hs⟩ := hs
    cases hseg with
    | @whole core op f k managed _ effect =>
      cases op with
      | signalEvent e' =>
        cases effect
        obtain ⟨popped, h⟩ := Effect.hands_signalEvent k valid
        exact .signals e' popped rfl rfl h
      | resetEvent e' =>
        cases effect
        exact .nothing rfl rfl (Kernel.letsAlone_clear e') (.inr ⟨rfl, rfl⟩)
      | enqueueWait e' span =>
        cases effect
        by_cases hn : span.isNegative
        · have h : Effect.enqueueWait core e' span k = (k, .error .argumentOutOfRange) := if_pos hn
          rw [h]
          exact .nothing rfl rfl (Kernel.letsAlone_of_events rfl) (.inr ⟨rfl, rfl⟩)
        · rw [Effect.enqueueWait_of_not_negative k core e' hn]
          exact deals_enqueueLocked true hn valid
      | completeWait e' w =>
        cases effect
        obtain ⟨hwaits, hqueue, hraised, hothers, hrest⟩ := Effect.tables_completeWait k w valid
        exact .completes e' w rfl hwaits hqueue hraised hothers hrest
      | waitEvent e' span =>
        cases effect
        exact deals_waitEvent valid
      | _ => cases hs
    | @client core op first k k' answer noEffect path =>
      cases op with
      | createThread | runThread | dispatch | dispatchHere => cases hs
      | _ => cases noEffect
    | paused core e' span k =>
      exact .nothing rfl rfl (Kernel.letsAlone_of_events rfl) (.inr ⟨rfl, rfl⟩)
    | resumed core e' k notNegative => exact deals_enqueueLocked false notNegative valid
  · exact hseg.deals_of_scope fun e he => hs ⟨e, he⟩

end Segment

/-! ## Operations stay valid -/

/-- What an operation names stays there. -/
theorem Op.Valid.mono {op : Op G} {k k' : Kernel G} (h : op.Valid k)
    (hm : ∀ c, k'.manages c = k.manages c) (hl : k.events.length ≤ k'.events.length) :
    op.Valid k' := by
  cases op with
  | signalEvent | resetEvent | waiterCount | enqueueWait | completeWait | waitEvent =>
    exact Nat.lt_of_lt_of_le h hl
  | startThread | killThread | delay | undelay | yieldThread | onTick | bootstrap | inspect
  | registerDpc | pendingDpcs | registerIrq | dispatch => exact (hm _).trans h
  | _ => trivial

namespace System

variable {s₀ s s' : System G} {seg : Segment G} {history : List (Segment G)}

/-- What the operations in progress name is there. -/
def Valid (s : System G) : Prop := ∀ task ∈ s.tasks, task.op.Valid s.machine.kernel

theorem Step.valid (h : Step s seg s') (hseg : seg.Sound) (hs : s.Valid) :
    seg.op.Valid seg.before ∧ s'.Valid := by
  obtain ⟨hbefore, hafter⟩ := h.kernels
  have hmono {op : Op G} (hop : op.Valid s.machine.kernel) : op.Valid s'.machine.kernel := by
    rw [← hbefore] at hop
    rw [← hafter]
    exact hop.mono hseg.manages hseg.isAutoReset.1
  cases h with
  | @call core op pausing m r managed valid mayPause rests =>
    refine ⟨valid, fun task ht => ?_⟩
    cases r with
    | inl a => exact hmono (hs task ht)
    | inr rest =>
      rcases List.mem_cons.mp ht with rfl | ht
      · exact hmono valid
      · exact hmono (hs task ht)
  | @resume task older newer m r tasks rests =>
    have htask : task.op.Valid s.machine.kernel := hs task (by simp [tasks])
    refine ⟨htask, fun other ho => ?_⟩
    cases r with
    | inl a =>
      refine hmono (hs other ?_)
      rw [tasks]
      simp only [Task.left, List.append_nil, List.mem_append] at ho
      exact List.mem_append.mpr (ho.imp_right (List.mem_cons_of_mem _))
    | inr rest =>
      rw [Task.left, List.append_assoc, List.mem_append, List.mem_append, List.mem_singleton] at ho
      rcases ho with ho | rfl | ho
      · exact hmono (hs other (by simp [tasks, ho]))
      · exact hmono htask
      · exact hmono (hs other (by simp [tasks, ho]))

/-- **Every segment of a run deals with those who wait in one of these ways.** -/
theorem Runs.deals (run : Runs s₀ history s) (h₀ : ∀ task ∈ s₀.tasks, task.Sound)
    (hv : s₀.Valid) : (∀ seg ∈ history, seg.Deals) ∧ s.Valid := by
  induction run with
  | start => exact ⟨fun _ h => (List.not_mem_nil h).elim, hv⟩
  | step run next ih =>
    have hseg := (next.sound (run.sound h₀).2).1
    obtain ⟨hvalid, hs'⟩ := next.valid hseg ih.2
    exact ⟨List.forall_mem_cons.mpr ⟨hseg.deals hvalid, ih.1⟩, hs'⟩

end System

/-! ## Queues in order -/

namespace Kernel

/-- The queues of events are in order. -/
structure WaitersInOrder (k : Kernel G) : Prop where
  /-- queues hold entries that were made -/
  bound : ∀ e, ∀ w ∈ k.waitersOf e, w < k.waits.length
  /-- in the order in which they were made -/
  sorted : ∀ e, (k.waitersOf e).Pairwise (· < ·)
  /-- an entry stands in one queue only -/
  home : ∀ e e' w, w ∈ k.waitersOf e → w ∈ k.waitersOf e' → e = e'
  /-- and is not marked while it stands there -/
  unmarked : ∀ e, ∀ w ∈ k.waitersOf e, k.isSignaled w = false
  /-- nobody waits for an event whose latch is set -/
  latch : ∀ e, k.isRaised e = true → k.waitersOf e = []

variable {k k' : Kernel G} {w : WaitId}

theorem isSignaled_congr (h : k'.waits[w]? = k.waits[w]?) : k'.isSignaled w = k.isSignaled w := by
  simp only [isSignaled]
  rw [h]

theorem isSignaled_eq_false_of_le (h : k.waits.length ≤ w) : k.isSignaled w = false := by
  simp only [isSignaled]
  rw [List.getElem?_eq_none h]

/-- Marks after a signal: those that were popped, and those from before. -/
theorem isSignaled_signalAll {popped : WaitQueue}
    (h : k'.waits = WaitEntry.signalAll popped k.waits) :
    k'.isSignaled w = true ↔ w ∈ popped ∧ w < k.waits.length ∨ k.isSignaled w = true := by
  simp only [isSignaled]
  rw [h, WaitEntry.getElem?_signalAll]
  rcases Nat.lt_or_ge w k.waits.length with hw | hw
  · rw [List.getElem?_eq_getElem hw]
    by_cases hp : w ∈ popped
    · simp [hp, hw, WaitEntry.signal]
    · simp [hp]
  · rw [List.getElem?_eq_none hw]
    by_cases hp : w ∈ popped
    · simp [hp, hw]
    · simp [hp]

/-- Marks after a completion: the entry has none, and all others are as before. -/
theorem isSignaled_take {v : WaitId} (h : k'.waits = k.waits.modify w WaitEntry.take) :
    k'.isSignaled v = (decide (w ≠ v) && k.isSignaled v) := by
  simp only [isSignaled]
  rw [h, List.getElem?_modify]
  by_cases hv : w = v
  · subst hv
    cases k.waits[w]? <;> simp [WaitEntry.take]
  · cases k.waits[v]? <;> simp [hv]

/-- Marks after an entry is made: it has none. -/
theorem isSignaled_append {t : ThreadId} (h : k'.waits = k.waits ++ [{ thread := t }]) :
    k'.isSignaled w = k.isSignaled w := by
  simp only [isSignaled]
  rw [h, getElem?_grown]
  by_cases hw : w = k.waits.length
  · rw [if_pos hw, hw, List.getElem?_eq_none (Nat.le_refl _)]
  · rw [if_neg hw]

/-- Where an entry is made and queued, who stands in a queue was there before or is that entry. -/
theorem mem_waitersOf_queued {e e' : EventId}
    (queue : k'.waitersOf e = k.waitersOf e ++ [k.waits.length])
    (others : ∀ e', e ≠ e' → k.LetsAlone k' e') (hw : w ∈ k'.waitersOf e') :
    w ∈ k.waitersOf e' ∨ w = k.waits.length ∧ e = e' := by
  by_cases he : e = e'
  · subst he
    rw [queue, List.mem_append, List.mem_singleton] at hw
    exact hw.imp_right fun hw => ⟨hw, rfl⟩
  · rw [(others e' he).waiters] at hw
    exact .inl hw

namespace WaitersInOrder

theorem nodup (h : k.WaitersInOrder) (e : EventId) : (k.waitersOf e).Nodup :=
  (h.sorted e).imp Nat.ne_of_lt

/-- The name of the next entry stands in no queue yet. -/
theorem length_not_mem (h : k.WaitersInOrder) (e : EventId) : k.waits.length ∉ k.waitersOf e :=
  fun hmem => Nat.lt_irrefl _ (h.bound e _ hmem)

/-- The next entry is queued and taken out again. -/
theorem erase_length (h : k.WaitersInOrder) (e : EventId) :
    (k.waitersOf e ++ [k.waits.length]).erase k.waits.length = k.waitersOf e := by
  rw [List.erase_append_right _ (h.length_not_mem e), List.erase_cons_head, List.append_nil]

/-- Where queues only lose entries, no queued entry is marked, and no latch is set before a queue
that is not empty, order is kept. -/
theorem of_sublist (h : k.WaitersInOrder)
    (hq : ∀ e, (k'.waitersOf e).Sublist (k.waitersOf e))
    (hl : k.waits.length ≤ k'.waits.length)
    (hm : ∀ e, ∀ w ∈ k'.waitersOf e, k'.isSignaled w = true → k.isSignaled w = true)
    (hr : ∀ e, k'.isRaised e = true → k.isRaised e = true ∨ k'.waitersOf e = []) :
    k'.WaitersInOrder where
  bound e w hw := Nat.lt_of_lt_of_le (h.bound e w ((hq e).subset hw)) hl
  sorted e := (h.sorted e).sublist (hq e)
  home e e' w hw hw' := h.home e e' w ((hq e).subset hw) ((hq e').subset hw')
  unmarked e w hw := by
    refine Bool.eq_false_iff.mpr fun hs => ?_
    have := hm e w hw hs
    rw [h.unmarked e w ((hq e).subset hw)] at this
    cases this
  latch e he := by
    rcases hr e he with hr | hnil
    · exact List.sublist_nil.mp (h.latch e hr ▸ hq e)
    · exact hnil

/-- The same for a change of one event, where the others are let alone. -/
theorem of_event {e : EventId} (h : k.WaitersInOrder)
    (hq : (k'.waitersOf e).Sublist (k.waitersOf e))
    (others : ∀ e', e ≠ e' → k.LetsAlone k' e') (hl : k.waits.length ≤ k'.waits.length)
    (hm : ∀ e, ∀ w ∈ k'.waitersOf e, k'.isSignaled w = true → k.isSignaled w = true)
    (hr : k'.isRaised e = true → k.isRaised e = true ∨ k'.waitersOf e = []) :
    k'.WaitersInOrder := by
  refine h.of_sublist (fun e' => ?_) hl hm fun e' hr' => ?_
  · by_cases he : e = e'
    · exact he ▸ hq
    · exact (others e' he).sublist
  · by_cases he : e = e'
    · exact he ▸ hr (he ▸ hr')
    · exact .inl ((others e' he).latch hr')

/-- A new entry behind the others keeps order: its name is greater than all names so far. -/
theorem queued {e : EventId} {t : ThreadId} (h : k.WaitersInOrder)
    (waits : k'.waits = k.waits ++ [{ thread := t }])
    (queue : k'.waitersOf e = k.waitersOf e ++ [k.waits.length]) (clear : k'.isRaised e = false)
    (others : ∀ e', e ≠ e' → k.LetsAlone k' e') : k'.WaitersInOrder := by
  have hlen : k'.waits.length = k.waits.length + 1 := by rw [waits, List.length_append]; rfl
  have hmem {e' : EventId} {w : WaitId} (hw : w ∈ k'.waitersOf e') :=
    mem_waitersOf_queued queue others hw
  refine ⟨fun e' w hw => ?_, fun e' => ?_, fun e₁ e₂ w h₁ h₂ => ?_, fun e' w hw => ?_,
    fun e' hr => ?_⟩
  · rw [hlen]
    rcases hmem hw with hw | ⟨rfl, -⟩
    · exact Nat.lt_succ_of_lt (h.bound e' w hw)
    · exact Nat.lt_succ_self _
  · by_cases he : e = e'
    · subst he
      rw [queue, List.pairwise_append]
      refine ⟨h.sorted e, List.pairwise_singleton _ _, fun w hw v hv => ?_⟩
      rw [List.mem_singleton.mp hv]
      exact h.bound e w hw
    · rw [(others e' he).waiters]
      exact h.sorted e'
  · rcases hmem h₁ with h₁ | ⟨hw, rfl⟩ <;> rcases hmem h₂ with h₂ | ⟨hw', rfl⟩
    · exact h.home e₁ e₂ w h₁ h₂
    · exact absurd (h.bound e₁ w h₁) (hw' ▸ Nat.lt_irrefl _)
    · exact absurd (h.bound e₂ w h₂) (hw ▸ Nat.lt_irrefl _)
    · rfl
  · rw [isSignaled_append waits]
    rcases hmem hw with hw | ⟨rfl, -⟩
    · exact h.unmarked e' w hw
    · exact isSignaled_eq_false_of_le (Nat.le_refl _)
  · by_cases he : e = e'
    · subst he
      rw [clear] at hr
      cases hr
    · rw [(others e' he).waiters]
      exact h.latch e' ((others e' he).latch hr)

end WaitersInOrder

end Kernel

namespace Segment

variable {seg : Segment G}

/-- **Every segment keeps the queues of events in order.** -/
theorem Deals.waitersInOrder (hseg : seg.Deals) (h : seg.before.WaitersInOrder) :
    seg.after.WaitersInOrder := by
  cases hseg with
  | nothing _ waits events =>
    refine h.of_sublist (fun e => (events e).sublist) (Nat.le_of_eq (congrArg _ waits.symm))
      (fun e w _ hs => ?_) fun e hr => .inl ((events e).latch hr)
    rwa [Kernel.isSignaled_congr (congrArg (·[w]?) waits)] at hs
  | queues e t _ _ _ _ _ waits queue clear others => exact h.queued waits queue clear others
  | visits e t _ _ _ waits queue clear others =>
    refine h.of_event (e := e) ?_ others ?_ (fun e w _ hs => ?_) fun hr => ?_
    · exact queue.trans (h.erase_length e) ▸ List.Sublist.refl _
    · rw [waits, List.length_append]
      exact Nat.le_add_right _ _
    · rwa [Kernel.isSignaled_append waits] at hs
    · rw [clear] at hr
      cases hr
  | completes e w _ waits queue latch others =>
    refine h.of_event (e := e) ?_ others ?_ (fun e v _ hs => ?_) fun hr => ?_
    · rw [queue]
      exact List.erase_sublist
    · exact Nat.le_of_eq (by rw [waits, List.length_modify])
    · rw [Kernel.isSignaled_take waits, Bool.and_eq_true] at hs
      exact hs.2
    · exact .inl (latch ▸ hr)
  | signals e popped _ _ hands =>
    refine h.of_event (e := e) ?_ hands.others ?_ (fun e' w hw hs => ?_) hands.latch
    · rw [hands.queue]
      exact List.sublist_append_right _ _
    · exact Nat.le_of_eq (by rw [hands.waits, WaitEntry.length_signalAll])
    · rcases (Kernel.isSignaled_signalAll hands.waits).mp hs with ⟨hpopped, -⟩ | hs
      · -- an entry that was popped is in no queue any more
        have hmem : w ∈ seg.before.waitersOf e := hands.queue ▸ List.mem_append_left _ hpopped
        have hnodup := h.nodup e
        rw [hands.queue] at hnodup
        by_cases he : e = e'
        · subst he
          exact absurd rfl ((List.nodup_append.mp hnodup).2.2 w hpopped w hw)
        · rw [(hands.others e' he).waiters] at hw
          exact absurd (h.home e e' w hmem hw) he
      · exact hs

end Segment

theorem Kernel.Fresh.waitersInOrder {k : Kernel G} (h : k.Fresh) : k.WaitersInOrder := by
  have hempty (e : EventId) : k.waitersOf e = [] := by
    simp only [Kernel.waitersOf]
    rw [h.events]
    rfl
  refine ⟨fun e w hw => ?_, fun e => ?_, fun e e' w hw => ?_, fun e w hw => ?_, fun e _ => hempty e⟩
  · rw [hempty] at hw
    cases hw
  · rw [hempty]
    exact .nil
  · rw [hempty] at hw
    cases hw
  · rw [hempty] at hw
    cases hw

/-- **The queues of events are in order along a run from a boot.** -/
theorem System.Runs.waitersInOrder {m : Machine G} {s : System G} {history : List (Segment G)}
    (booted : m.Booted) (run : Runs ⟨m, []⟩ history s) :
    s.machine.kernel.WaitersInOrder ∧
      ∀ seg ∈ history, seg.before.WaitersInOrder ∧ seg.after.WaitersInOrder := by
  have hnone : ∀ task ∈ (⟨m, []⟩ : System G).tasks, task.Sound :=
    fun _ h => (List.not_mem_nil h).elim
  have hdeals := (run.deals hnone fun _ h => (List.not_mem_nil h).elim).1
  exact run.keeps hnone hdeals (fun _ hseg _ h => hseg.waitersInOrder h)
    booted.fresh.waitersInOrder

/-- **Nobody waits for an event that is set.** At any point of a run from a boot, on any number of
cores and with waits stopped at their windows or not, an event whose latch is set has no waiters.
-/
theorem nobody_waits_for_a_set_event {m : Machine G} {s : System G} {history : List (Segment G)}
    (booted : m.Booted) (run : System.Runs ⟨m, []⟩ history s) (e : EventId)
    (set : s.machine.kernel.isRaised e = true) : s.machine.kernel.waitersOf e = [] :=
  (run.waitersInOrder booted).1.latch e set

/-- A signal passes over a waiter that was killed, and is latched: nobody is left in the queue. -/
theorem signal_past_killed_waiter_leaves_nobody : ∃ m past s later s',
    Machine.boot? {} {} = some m ∧
    System.play ⟨m, []⟩ (oneEvent ++ [(0, .enqueueWait 0 .infinite), (0, .killThread 0 1)]) =
      some (past, s) ∧
    s.play [(0, .signalEvent 0)] = some (later, s') ∧
    s.machine.kernel.waitersOf 0 = [0] ∧ s'.machine.kernel.isRaised 0 = true ∧
    s'.machine.kernel.waitersOf 0 = [] := by
  obtain ⟨m, past, s, later, s', hm, hfirst, hsecond, htest⟩ := System.exists_play {} {}
    (oneEvent ++ [(0, .enqueueWait 0 .infinite), (0, .killThread 0 1)]) [(0, .signalEvent 0)]
    (fun _ s _ s' => decide (s.machine.kernel.waitersOf 0 = [0]) && s'.machine.kernel.isRaised 0)
    (by decide +kernel)
  simp only [Bool.and_eq_true, decide_eq_true_eq] at htest
  obtain ⟨hqueued, hset⟩ := htest
  have hrun := (System.runs_of_play hfirst).trans (System.runs_of_play hsecond)
  exact ⟨m, past, s, later, s', hm, hfirst, hsecond, hqueued, hset,
    nobody_waits_for_a_set_event (Machine.booted_of_boot? hm) hrun 0 hset⟩

end Nucleus
