import Nucleus.Proofs.Latch
import Nucleus.Proofs.Script

/-!
# Conservation of signals

Every signal of an auto-reset event goes somewhere: to a wait that uses it at once, to the oldest
waiter whose thread has an owner, into the latch, or, if the latch is set already, it is lost in
it; and a reset throws a latched signal away. Nothing else becomes of a signal, and none is made.

* `Effect.handover_releaseOne` says what a signal does to the waiters: a prefix of the queue is
  popped and marked, with at most one owned thread in it.
* `Segment.Sound.balanced` is the account of one segment, waits that were stopped at their window
  included.
* `signals_conserved` is the account of a run.
-/

namespace Nucleus

variable {G : Guest}

/-! ## What a signal does to the waiters -/

/-- Does a core own the thread of the wait entry? -/
def Kernel.isOwnedEntry (k : Kernel G) (w : WaitId) : Bool :=
  k.waits[w]?.any fun entry => (k.ownerOf entry.thread).isSome

/-- Waiters are popped, oldest first, and marked; `woken` tells if one of them had an owner. -/
structure Kernel.Handover (k k' : Kernel G) (e : EventId) (popped : WaitQueue) (woken : Bool) :
    Prop where
  /-- the oldest leave the queue -/
  queue : k.waitersOf e = popped ++ k'.waitersOf e
  /-- was one of them owned? -/
  woken : woken = popped.any k.isOwnedEntry
  /-- at most one was -/
  once : popped.countP k.isOwnedEntry ≤ 1
  /-- they are marked, and no mark is taken away -/
  signaled : ∀ w, w ∈ popped ∧ w < k.waits.length ∨ k.isSignaled w = true → k'.isSignaled w = true
  /-- the latch is left alone -/
  raised : k'.isRaised e = k.isRaised e
  /-- no event is made -/
  length : k'.events.length = k.events.length

namespace Effect

variable {k : Kernel G} {e : EventId}

/-- Who owns a thread can be found, since owners are managed. -/
theorem isSome_owningCore (hm : k.OwnersManaged) (t : ThreadId) :
    (owningCore k t).isSome = (k.ownerOf t).isSome := by
  simp only [owningCore]
  cases ho : k.ownerOf t with
  | none => rfl
  | some c =>
    rw [Option.bind_some, if_pos (hm t c ho)]

theorem getElem?_waits_signal (k : Kernel G) (w v : WaitId) :
    (k.updateWait w WaitEntry.signal).waits[v]? =
      if w = v then (k.waits[v]?).map WaitEntry.signal else k.waits[v]? := by
  simp only [Kernel.updateWait, List.getElem?_modify]
  split <;> simp

theorem tables_undelayThread (k : Kernel G) (t : ThreadId) :
    (undelayThread t k).1.events = k.events ∧ (undelayThread t k).1.waits = k.waits := by
  simp only [undelayThread]
  split
  · exact ⟨rfl, rfl⟩
  · dsimp only
    simp only [undelay]
    split <;> exact ⟨rfl, rfl⟩

/-- Releasing a waiter marks it, and leaves events alone. -/
theorem tables_release (k : Kernel G) (w : WaitId) : (release w k).1.events = k.events ∧
    (release w k).1.waits = (k.updateWait w WaitEntry.signal).waits := by
  simp only [release]
  split
  · exact ⟨rfl, rfl⟩
  · exact tables_undelayThread _ _

/-- A release wakes somebody if the thread of the waiter has an owner. -/
theorem release_snd (hm : k.OwnersManaged) (w : WaitId) :
    (release w k).2 = k.isOwnedEntry w := by
  have hm' : (k.updateWait w WaitEntry.signal).OwnersManaged := hm
  simp only [release, Kernel.isOwnedEntry]
  rw [getElem?_waits_signal, if_pos rfl]
  cases k.waits[w]? with
  | none => rfl
  | some entry => exact isSome_owningCore hm' entry.thread

/-- A waiter whose thread has no owner is marked, and that is all. -/
theorem release_fst_of_not_owned (hm : k.OwnersManaged) {w : WaitId}
    (h : k.isOwnedEntry w = false) : (release w k).1 = k.updateWait w WaitEntry.signal := by
  have hsnd := release_snd hm w
  rw [h] at hsnd
  simp only [release] at hsnd ⊢
  split
  · rfl
  next entry hentry =>
    rw [hentry] at hsnd
    dsimp only at hsnd ⊢
    simp only [undelayThread]
    rw [Option.isSome_eq_false_iff, Option.isNone_iff_eq_none] at hsnd
    rw [hsnd]

theorem isOwnedEntry_updateWait (k : Kernel G) (w : WaitId) :
    (k.updateWait w WaitEntry.signal).isOwnedEntry = k.isOwnedEntry := by
  funext v
  simp only [Kernel.isOwnedEntry]
  rw [getElem?_waits_signal]
  split
  · cases k.waits[v]? <;> rfl
  · rfl

/-- A mark is set where a waiter is released, and stays where it was. -/
theorem isSignaled_release (k : Kernel G) (w : WaitId) {v : WaitId}
    (h : w = v ∧ v < k.waits.length ∨ k.isSignaled v = true) :
    (release w k).1.isSignaled v = true := by
  simp only [Kernel.isSignaled] at h ⊢
  rw [(tables_release k w).2, getElem?_waits_signal]
  rcases h with ⟨rfl, hlt⟩ | hv
  · rw [if_pos rfl, List.getElem?_eq_getElem hlt]
    rfl
  · cases hw : k.waits[v]? with
    | none =>
      rw [hw] at hv
      cases hv
    | some entry =>
      rw [hw] at hv
      by_cases hwv : w = v
      · rw [if_pos hwv]
        rfl
      · rw [if_neg hwv]
        exact hv

/-- **What a signal does to the waiters.** The induction is on the queue: a waiter without an owner
is popped and marked, which changes nobody's owner, and the next one is tried. -/
theorem handover_releaseOne (e : EventId) (waiters : WaitQueue) (k : Kernel G)
    (hm : k.OwnersManaged) (he : e < k.events.length) (hq : k.waitersOf e = waiters) :
    ∃ popped, k.Handover (releaseOne e waiters k).1 e popped (releaseOne e waiters k).2 := by
  induction waiters generalizing k with
  | nil =>
    refine ⟨[], rfl, rfl, Nat.zero_le 1, fun w hw => ?_, rfl, rfl⟩
    exact hw.resolve_left fun hw => List.not_mem_nil hw.1
  | cons w rest ih =>
    have hm₁ : (k.setWaiters e rest).OwnersManaged := hm
    have hqueue : (k.setWaiters e rest).waitersOf e = rest := k.waitersOf_setWaiters he rest
    have hev := (tables_release (k.setWaiters e rest) w).1
    simp only [releaseOne]
    rw [release_snd hm₁]
    cases hown : (k.setWaiters e rest).isOwnedEntry w with
    | true =>
      -- the signal is handed over, and the queue behind is left alone
      have hown' : k.isOwnedEntry w = true := hown
      rw [if_pos rfl]
      refine ⟨[w], ?_, ?_, ?_, fun v hv => ?_, ?_, ?_⟩
      · simp only [Kernel.waitersOf] at hqueue ⊢
        rw [hev, hqueue]
        exact hq
      · rw [List.any_cons, hown']
        rfl
      · rw [List.countP_cons, if_pos hown']
        exact Nat.le_refl 1
      · refine isSignaled_release _ w ?_
        exact hv.imp_left fun h => ⟨(List.mem_singleton.mp h.1).symm, h.2⟩
      · exact (Kernel.isRaised_congr hev e).trans (k.isRaised_setWaiters e rest e)
      · rw [hev]
        exact k.length_events_setWaiters e rest
    | false =>
      -- the entry is marked, which is all: the queue behind finds the same owners
      have hown' : k.isOwnedEntry w = false := hown
      have hk := release_fst_of_not_owned hm₁ hown
      have hentries : (release w (k.setWaiters e rest)).1.isOwnedEntry = k.isOwnedEntry := by
        rw [hk]
        exact isOwnedEntry_updateWait _ w
      have hm₂ : (release w (k.setWaiters e rest)).1.OwnersManaged := by
        rw [hk]
        exact hm
      have hlen : (release w (k.setWaiters e rest)).1.events.length = k.events.length := by
        rw [hev]
        exact k.length_events_setWaiters e rest
      have hq₂ : (release w (k.setWaiters e rest)).1.waitersOf e = rest := by
        simp only [Kernel.waitersOf] at hqueue ⊢
        rw [hev]
        exact hqueue
      obtain ⟨popped, h⟩ := ih _ hm₂ (hlen ▸ he) hq₂
      rw [if_neg Bool.false_ne_true]
      refine ⟨w :: popped, ?_, ?_, ?_, fun v hv => ?_, ?_, ?_⟩
      · rw [List.cons_append, ← h.queue, hq₂]
        exact hq
      · rw [List.any_cons, hown', Bool.false_or, ← hentries]
        exact h.woken
      · rw [List.countP_cons, hown', ← hentries]
        exact h.once
      · refine h.signaled v ?_
        rcases hv with ⟨hmem, hlt⟩ | hv
        · rcases List.mem_cons.mp hmem with rfl | hmem
          · exact .inr (isSignaled_release _ v (.inl ⟨rfl, hlt⟩))
          · refine .inl ⟨hmem, ?_⟩
            rw [hk]
            exact Nat.lt_of_lt_of_eq hlt (List.length_modify ..).symm
        · exact .inr (isSignaled_release _ w (.inr hv))
      · rw [h.raised]
        exact (Kernel.isRaised_congr hev e).trans (k.isRaised_setWaiters e rest e)
      · rw [h.length]
        exact hlen

/-- **A signal of an auto-reset event.** It goes to the first owned waiter, or into the latch. -/
theorem signalEvent_spec (hm : k.OwnersManaged) (ha : k.isAutoReset e = true) :
    ∃ popped, k.waitersOf e = popped ++ (signalEvent e k).waitersOf e ∧
      popped.countP k.isOwnedEntry ≤ 1 ∧
      (∀ w ∈ popped, w < k.waits.length → (signalEvent e k).isSignaled w = true) ∧
      (signalEvent e k).isRaised e = (k.isRaised e || !popped.any k.isOwnedEntry) := by
  have he : e < k.events.length := Kernel.lt_length_of_isAutoReset ha
  obtain ⟨popped, h⟩ := handover_releaseOne e (k.waitersOf e) k hm he rfl
  unfold signalEvent
  rw [if_pos ha]
  dsimp only
  cases hw : (releaseOne e (k.waitersOf e) k).2 with
  | true =>
    rw [hw] at h
    rw [if_pos rfl]
    refine ⟨popped, h.queue, h.once, fun w hw hlt => h.signaled w (.inl ⟨hw, hlt⟩), ?_⟩
    rw [← h.woken, h.raised]
    exact (Bool.or_false _).symm
  | false =>
    rw [hw] at h
    rw [if_neg Bool.false_ne_true]
    refine ⟨popped, ?_, h.once, fun w hw hlt => h.signaled w (.inl ⟨hw, hlt⟩), ?_⟩
    · rw [Kernel.waitersOf_setRaised]
      exact h.queue
    · rw [← h.woken, Kernel.isRaised_setRaised_true _ (h.length.symm ▸ he)]
      exact (Bool.or_true _).symm

/-- A latched signal of an auto-reset event is used up. -/
theorem isRaised_tryConsume (ha : k.isAutoReset e = true) :
    (tryConsume e k).1.isRaised e = false := by
  simp only [tryConsume]
  by_cases hr : k.isRaised e
  · rw [if_pos hr, if_pos ha]
    exact k.isRaised_setRaised_false e
  · rw [if_neg hr]
    exact Bool.eq_false_iff.mpr hr

/-- Queueing a waiter leaves the latch alone. -/
theorem isRaised_queueAside (c : CoreId) (span : TimeSpan) (t : ThreadId) :
    (queueAside e c span t k).isRaised e = k.isRaised e :=
  (Kernel.isRaised_setWaiters _ e _ e).trans
    (Kernel.isRaised_congr (Kernel.Adjusts.refl.setAside c (deadline k c span)).events e)

end Effect

/-! ## The account of a segment -/

namespace Op

/-- Is the operation a signal of the event? -/
def signals (e : EventId) : Op G → Bool
  | signalEvent e' => decide (e' = e)
  | _ => false

/-- Is the operation a reset of the event? -/
def resets (e : EventId) : Op G → Bool
  | resetEvent e' => decide (e' = e)
  | _ => false

/-- Did the first half of a wait for the event find a signal? Both halves at once succeed only if
the first does. -/
def takes (e : EventId) : (op : Op G) → op.Result → Bool
  | enqueueWait e' _, .ok none => decide (e' = e)
  | waitEvent e' _, .ok () => decide (e' = e)
  | _, _ => false

end Op

namespace Segment

variable (seg : Segment G) (e : EventId)

/-- The waiters that leave the queue of the event, the oldest first. -/
def popped : WaitQueue :=
  (seg.before.waitersOf e).take ((seg.before.waitersOf e).length - (seg.after.waitersOf e).length)

/-- A wait that used a signal at once. -/
def takes : Bool := seg.answer.any (seg.op.takes e)

/-- A signal that was handed to a waiter whose thread had an owner. -/
def hands : Bool := seg.op.signals e && (seg.popped e).any seg.before.isOwnedEntry

/-- A signal that was latched though the latch was set. -/
def relatches : Bool := seg.op.signals e && !seg.hands e && seg.before.isRaised e

/-- A reset that cleared a latched signal. -/
def clears : Bool := seg.op.resets e && seg.before.isRaised e

/-- The account: signals that were there or came, and what became of them. -/
def Balanced : Prop :=
  (seg.op.signals e).toNat + (seg.before.isRaised e).toNat =
    (seg.takes e).toNat + (seg.hands e).toNat + (seg.relatches e).toNat + (seg.clears e).toNat +
      (seg.after.isRaised e).toNat

/-- The oldest waiters are popped and marked, and at most one of them was owned. -/
structure HandsOver : Prop where
  /-- they leave the queue, and nobody else does -/
  queue : seg.before.waitersOf e = seg.popped e ++ seg.after.waitersOf e
  /-- they are marked -/
  signaled : ∀ w ∈ seg.popped e, w < seg.before.waits.length → seg.after.isSignaled w = true
  /-- at most one of them was owned -/
  once : (seg.popped e).countP seg.before.isOwnedEntry ≤ 1

variable {seg e}

theorem popped_eq {q : WaitQueue} (h : seg.before.waitersOf e = q ++ seg.after.waitersOf e) :
    seg.popped e = q := by
  simp only [popped]
  rw [h, List.length_append, Nat.add_sub_cancel, List.take_left]

end Segment

namespace Op

variable {op : Op G} {e : EventId}

theorem signals_of_ne (hs : op.scope ≠ .event e) : op.signals e = false := by
  cases op with
  | signalEvent e' => exact decide_eq_false fun he => hs (he ▸ rfl)
  | _ => rfl

theorem resets_of_ne (hs : op.scope ≠ .event e) : op.resets e = false := by
  cases op with
  | resetEvent e' => exact decide_eq_false fun he => hs (he ▸ rfl)
  | _ => rfl

theorem takes_of_ne (hs : op.scope ≠ .event e) (a : op.Result) : op.takes e a = false := by
  cases op with
  | enqueueWait e' span =>
    rcases a with why | (_ | w)
    · rfl
    · exact decide_eq_false fun he => hs (he ▸ rfl)
    · rfl
  | waitEvent e' span =>
    rcases a with why | _
    · rfl
    · exact decide_eq_false fun he => hs (he ▸ rfl)
  | _ => rfl

end Op

namespace Segment

variable {seg : Segment G} {e : EventId}

/-- Operations on anything else have no part in the account. -/
theorem Sound.balanced_of_ne (hseg : seg.Sound) (hs : seg.op.scope ≠ .event e) :
    seg.Balanced e := by
  have htakes : seg.takes e = false := by
    simp only [takes]
    cases seg.answer with
    | none => rfl
    | some a => exact Op.takes_of_ne hs a
  simp only [Balanced, relatches, hands, clears]
  rw [hseg.isRaised_of_ne hs, htakes, Op.signals_of_ne hs, Op.resets_of_ne hs]
  simp only [Bool.false_and, Bool.toNat_false, Nat.zero_add]

/-- A wait under the lock: it uses a latched signal, or leaves the latch clear. -/
theorem balanced_enqueueLocked (core : CoreId) {span : TimeSpan} (first : Bool) (k : Kernel G)
    (hn : ¬ span.isNegative) (ha : k.isRaised e = true → k.isAutoReset e = true) :
    Balanced ⟨core, .enqueueWait e span, first, k, (Effect.enqueueLocked e core span k).1,
      some (Effect.enqueueLocked e core span k).2⟩ e := by
  simp only [Balanced]
  rcases Effect.enqueueLocked_cases k e core hn with
    ⟨hr, h⟩ | ⟨hr, -, h⟩ | ⟨hr, -, -, h⟩ | ⟨hr, -, t, -, h⟩ <;> rw [h]
  · have hclear := Effect.isRaised_tryConsume (ha hr)
    simp [takes, hands, relatches, clears, Op.signals, Op.resets, Op.takes, hr, hclear]
  · simp [takes, hands, relatches, clears, Op.signals, Op.resets, Op.takes]
  · simp [takes, hands, relatches, clears, Op.signals, Op.resets, Op.takes]
  · simp [takes, hands, relatches, clears, Op.signals, Op.resets, Op.takes,
      Effect.isRaised_queueAside]

/-- The first half of a wait by itself. -/
theorem balanced_enqueueWait (core : CoreId) (span : TimeSpan) (k : Kernel G)
    (ha : k.isRaised e = true → k.isAutoReset e = true) :
    Balanced ⟨core, .enqueueWait e span, true, k, (Effect.enqueueWait core e span k).1,
      some (Effect.enqueueWait core e span k).2⟩ e := by
  by_cases hn : span.isNegative
  · have h : Effect.enqueueWait core e span k = (k, .error .argumentOutOfRange) := if_pos hn
    simp only [Balanced]
    rw [h]
    simp [takes, hands, relatches, clears, Op.signals, Op.resets, Op.takes]
  · rw [Effect.enqueueWait_of_not_negative k core e hn]
    exact balanced_enqueueLocked core true k hn ha

/-- Both halves of a wait: the second half of a wait that was just queued finds no wakeup. -/
theorem balanced_waitEvent (core : CoreId) (span : TimeSpan) (k : Kernel G)
    (ha : k.isRaised e = true → k.isAutoReset e = true) :
    Balanced ⟨core, .waitEvent e span, true, k, (Effect.waitEvent core e span k).1,
      some (Effect.waitEvent core e span k).2⟩ e := by
  simp only [Balanced, Effect.waitEvent]
  by_cases hn : span.isNegative
  · have h : Effect.enqueueWait core e span k = (k, .error .argumentOutOfRange) := if_pos hn
    rw [h]
    simp [takes, hands, relatches, clears, Op.signals, Op.resets, Op.takes, Effect.afterEnqueue]
  · rw [Effect.enqueueWait_of_not_negative k core e hn]
    rcases Effect.enqueueLocked_cases k e core hn with
      ⟨hr, h⟩ | ⟨hr, -, h⟩ | ⟨hr, -, -, h⟩ | ⟨hr, -, t, -, h⟩ <;> rw [h]
    · have hclear := Effect.isRaised_tryConsume (ha hr)
      simp [takes, hands, relatches, clears, Op.signals, Op.resets, Op.takes, Effect.afterEnqueue,
        hr, hclear]
    · simp [takes, hands, relatches, clears, Op.signals, Op.resets, Op.takes, Effect.afterEnqueue]
    · simp [takes, hands, relatches, clears, Op.signals, Op.resets, Op.takes, Effect.afterEnqueue]
    · have hsig (q : WaitQueue) :
          ((Effect.queueAside e core span t k).setWaiters e q).isSignaled k.waits.length = false :=
        Effect.isSignaled_queueAside k e core span t
      simp [takes, hands, relatches, clears, Op.signals, Op.resets, Op.takes, Effect.afterEnqueue,
        Effect.completeWait, hsig, Kernel.isRaised_setWaiters, Effect.isRaised_queueAside]

/-- A signal is handed over, or latched where the latch was clear, or lost in the latch. -/
theorem balanced_signalEvent (core : CoreId) (k : Kernel G) (hm : k.OwnersManaged)
    (ha : k.isAutoReset e = true) :
    Balanced ⟨core, .signalEvent e, true, k, Effect.signalEvent e k, some ()⟩ e ∧
      HandsOver ⟨core, .signalEvent e, true, k, Effect.signalEvent e k, some ()⟩ e := by
  obtain ⟨popped, hqueue, honce, hsignaled, hraised⟩ := Effect.signalEvent_spec hm ha
  have hpopped : Segment.popped ⟨core, .signalEvent e, true, k, Effect.signalEvent e k, some ()⟩ e =
      popped := popped_eq hqueue
  refine ⟨?_, ⟨?_, ?_, ?_⟩⟩
  · unfold Balanced relatches hands takes clears
    rw [hpopped]
    dsimp only
    rw [hraised]
    cases popped.any k.isOwnedEntry <;> cases k.isRaised e <;>
      simp [Op.signals, Op.resets, Op.takes]
  · rw [hpopped]
    exact hqueue
  · rw [hpopped]
    exact hsignaled
  · rw [hpopped]
    exact honce

theorem balanced_resetEvent (core : CoreId) (k : Kernel G) :
    Balanced ⟨core, .resetEvent e, true, k, k.setRaised e false, some ()⟩ e := by
  simp only [Balanced]
  simp [takes, hands, relatches, clears, Op.signals, Op.resets, Op.takes,
    k.isRaised_setRaised_false e]

/-- The second half of a wait leaves the latch alone. -/
theorem balanced_completeWait (core : CoreId) (w : WaitId) (k : Kernel G) :
    Balanced ⟨core, .completeWait e w, true, k, (Effect.completeWait e w k).1,
      some (Effect.completeWait e w k).2⟩ e := by
  have hraised : (Effect.completeWait e w k).1.isRaised e = k.isRaised e := by
    simp only [Effect.completeWait]
    split <;> exact k.isRaised_setWaiters e _ e
  have htakes (a : Outcome Unit) : Op.takes e (.completeWait e w : Op G) a = false := by
    cases a <;> rfl
  simp only [Balanced, takes, hands, relatches, clears, Op.signals, Op.resets]
  rw [hraised, Option.any_some, htakes]
  simp

/-- A wait that stopped at its window has found the latch clear and done nothing. -/
theorem balanced_paused (core : CoreId) (e' : EventId) (span : TimeSpan) (k : Kernel G) :
    Balanced ⟨core, .enqueueWait e' span, true, k, k, none⟩ e := by
  simp only [Balanced]
  simp [takes, hands, relatches, clears, Op.signals, Op.resets]

/-- **The account of a segment.** -/
theorem Sound.balanced (hseg : seg.Sound) (hm : seg.before.OwnersManaged)
    (ha : seg.before.isAutoReset e = true ∨ seg.before.events.length ≤ e) :
    seg.Balanced e ∧ (seg.op.signals e = true → seg.HandsOver e) := by
  by_cases hs : seg.op.scope = .event e
  · have hraised (hr : seg.before.isRaised e = true) : seg.before.isAutoReset e = true :=
      ha.resolve_right (Nat.not_le_of_lt (Kernel.lt_length_of_isRaised hr))
    cases hseg with
    | @whole core op f k managed valid effect =>
      cases op with
      | signalEvent e' =>
        cases hs
        cases effect
        have hauto : k.isAutoReset e = true := ha.resolve_right (Nat.not_le_of_lt valid)
        obtain ⟨hb, hh⟩ := balanced_signalEvent core k hm hauto
        exact ⟨hb, fun _ => hh⟩
      | resetEvent e' =>
        cases hs
        cases effect
        exact ⟨balanced_resetEvent core k, nofun⟩
      | enqueueWait e' span =>
        cases hs
        cases effect
        exact ⟨balanced_enqueueWait core span k hraised, nofun⟩
      | completeWait e' w =>
        cases hs
        cases effect
        exact ⟨balanced_completeWait core w k, nofun⟩
      | waitEvent e' span =>
        cases hs
        cases effect
        exact ⟨balanced_waitEvent core span k hraised, nofun⟩
      | _ => cases hs
    | @client core op first k k' answer noEffect path =>
      cases op with
      | createThread | runThread | dispatch | dispatchHere => cases hs
      | _ => cases noEffect
    | paused core e' span k => exact ⟨balanced_paused core e' span k, nofun⟩
    | resumed core e' k notNegative =>
      cases hs
      exact ⟨balanced_enqueueLocked core false k notNegative hraised, nofun⟩
  · refine ⟨hseg.balanced_of_ne hs, fun h => ?_⟩
    rw [Op.signals_of_ne hs] at h
    cases h

end Segment

/-! ## The account of a run -/

namespace System

variable {s₀ s : System G} {history : List (Segment G)} {e : EventId}

/-- An auto-reset event was one all along, from the time it was made. -/
theorem Runs.isAutoReset_before (run : Runs s₀ history s) (h₀ : ∀ task ∈ s₀.tasks, task.Sound)
    (ha : s.machine.kernel.isAutoReset e = true ∨ s.machine.kernel.events.length ≤ e) :
    ∀ seg ∈ history, seg.before.isAutoReset e = true ∨ seg.before.events.length ≤ e := by
  induction run with
  | start => exact fun _ h => (List.not_mem_nil h).elim
  | @step history s s' seg run next ih =>
    obtain ⟨hbefore, hafter⟩ := next.kernels
    obtain ⟨hlen, hauto⟩ := (next.sound (run.sound h₀).2).1.isAutoReset
    have hseg : seg.before.isAutoReset e = true ∨ seg.before.events.length ≤ e := by
      -- either the event was there already, with the same flavour, or it was made later
      rcases Nat.lt_or_ge e seg.before.events.length with he | he
      · rw [← hafter, hauto e he] at ha
        exact .inl (ha.resolve_right (Nat.not_le_of_lt (Nat.lt_of_lt_of_le he hlen)))
      · exact .inr he
    exact List.forall_mem_cons.mpr ⟨hseg, ih (hbefore ▸ hseg)⟩

/-- **Accounts add up.** If every segment of a run is balanced, so is the run. -/
theorem Runs.countP_signals (run : Runs s₀ history s) (h₀ : s₀.machine.kernel.isRaised e = false)
    (hb : ∀ seg ∈ history, seg.Balanced e) :
    history.countP (·.op.signals e) =
      history.countP (·.takes e) + history.countP (·.hands e) + history.countP (·.relatches e) +
        history.countP (·.clears e) + (s.machine.kernel.isRaised e).toNat := by
  induction run with
  | start =>
    rw [h₀]
    rfl
  | @step history s s' seg run next ih =>
    obtain ⟨hbefore, hafter⟩ := next.kernels
    have ih := ih fun seg hseg => hb seg (List.mem_cons_of_mem _ hseg)
    have hseg := hb seg List.mem_cons_self
    simp only [Segment.Balanced] at hseg
    rw [hbefore, hafter] at hseg
    have hcons (p : Segment G → Bool) :
        (seg :: history).countP p = history.countP p + (p seg).toNat := by
      rw [List.countP_cons]
      cases p seg <;> rfl
    simp only [hcons]
    omega

end System

/-- **Signals are conserved.** For an auto-reset event, at any point of a run from a boot, the
number of signals so far is the number of waits that used one at once, plus the signals that were
handed to a waiter whose thread had an owner, plus those that were latched though the latch was set,
plus the resets that cleared a latched one, plus one if the latch is set. And a signal pops the
oldest waiters, marks them, and finds an owner for at most one of their threads. -/
theorem signals_conserved {m : Machine G} {s : System G} {history : List (Segment G)} {e : EventId}
    (booted : m.Booted) (run : System.Runs ⟨m, []⟩ history s)
    (autoReset : s.machine.kernel.isAutoReset e = true) :
    history.countP (·.op.signals e) =
      history.countP (·.takes e) + history.countP (·.hands e) + history.countP (·.relatches e) +
        history.countP (·.clears e) + (s.machine.kernel.isRaised e).toNat ∧
      ∀ seg ∈ history, seg.op.signals e = true → seg.HandsOver e := by
  have h₀ : ∀ task ∈ (⟨m, []⟩ : System G).tasks, task.Sound := fun _ h => (List.not_mem_nil h).elim
  have howners := (run.keeps (I := Kernel.OwnersManaged) (P := fun _ => True) h₀
    (fun _ _ => trivial) (fun _ _ hseg h => hseg.ownersManaged h) booted.fresh.ownersManaged).2
  have hauto := run.isAutoReset_before h₀ (.inl autoReset)
  have hseg (seg : Segment G) (hmem : seg ∈ history) :=
    ((run.sound h₀).1 seg hmem).balanced (howners seg hmem).1 (hauto seg hmem)
  have hclear : m.kernel.isRaised e = false := by
    simp only [Kernel.isRaised]
    rw [booted.fresh.events]
    rfl
  exact ⟨run.countP_signals hclear fun seg hmem => (hseg seg hmem).1,
    fun seg hmem => (hseg seg hmem).2⟩

/-- One thread that runs, and an auto-reset event. -/
def oneEvent : List (CoreId × Op ⟨Unit, Unit⟩) :=
  [(0, .createThread () "waiter"), (0, .startThread 0 1), (0, .bootstrap 0), (0, .newEvent true)]

/-- Five signals: one for a waiter, one that is latched and used, one that is lost in the latch, one
that is latched and cleared, and one that is latched still. -/
theorem five_signals_conserved : ∃ m past s later s',
    Machine.boot? {} {} = some m ∧ System.play ⟨m, []⟩ oneEvent = some (past, s) ∧
    s.play [(0, .enqueueWait 0 .infinite), (0, .signalEvent 0), (0, .signalEvent 0),
      (0, .signalEvent 0), (0, .enqueueWait 0 .infinite), (0, .signalEvent 0), (0, .resetEvent 0),
      (0, .signalEvent 0)] = some (later, s') ∧
    s'.machine.kernel.isAutoReset 0 = true ∧ later.countP (·.op.signals 0) = 5 ∧
    later.countP (·.takes 0) = 1 ∧ later.countP (·.hands 0) = 1 ∧
    (later ++ past).countP (·.op.signals 0) =
      (later ++ past).countP (·.takes 0) + (later ++ past).countP (·.hands 0) +
        (later ++ past).countP (·.relatches 0) + (later ++ past).countP (·.clears 0) +
          (s'.machine.kernel.isRaised 0).toNat := by
  obtain ⟨m, past, s, later, s', hm, hfirst, hsecond, htest⟩ := System.exists_play {} {} oneEvent
    [(0, .enqueueWait 0 .infinite), (0, .signalEvent 0), (0, .signalEvent 0),
      (0, .signalEvent 0), (0, .enqueueWait 0 .infinite), (0, .signalEvent 0), (0, .resetEvent 0),
      (0, .signalEvent 0)]
    (fun _ _ later s' => s'.machine.kernel.isAutoReset 0 &&
      (decide (later.countP (·.op.signals 0) = 5) && (decide (later.countP (·.takes 0) = 1) &&
        decide (later.countP (·.hands 0) = 1)))) (by decide +kernel)
  simp only [Bool.and_eq_true, decide_eq_true_eq] at htest
  obtain ⟨hauto, hsignals, htakes, hhands⟩ := htest
  have hrun := (System.runs_of_play hfirst).trans (System.runs_of_play hsecond)
  exact ⟨m, past, s, later, s', hm, hfirst, hsecond, hauto, hsignals, htakes, hhands,
    (signals_conserved (Machine.booted_of_boot? hm) hrun hauto).1⟩

end Nucleus
