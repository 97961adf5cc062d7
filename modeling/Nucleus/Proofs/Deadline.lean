import Nucleus.Proofs.Entries
import Nucleus.Proofs.Parking

/-!
# Deadlines of waits

A wait tells a wakeup from a deadline by the mark of its entry, not by the clock. That it is right
takes both sides: as long as a signal has not marked the entry, the thread is where the first half
of the wait has put it, among the sleepers until its tick or among the parked; so if the thread runs
again and the entry has no mark, the tick has come.

This needs discipline. A thread that waits must not be woken by hand, must not be put aside for
something else, and must complete its wait by way of the event it waits for; otherwise an entry of
an earlier wait may wake it, or a completion may take a mark that is not its own.

* `openWait` is the wait of a thread that has begun and is not completed, and `Disciplined` what is
  asked of a run.
* `Kernel.WaitsOpen` says that queues hold the entries of open waits only; every disciplined segment
  keeps it.
* `System.Runs.bidesUnless` follows one wait through a run, and `wait_times_out_only_after_deadline`
  says what its completion tells.
-/

namespace Nucleus

variable {G : Guest}

/-! ## Disciplined runs -/

/-- The wait that a thread has begun and not completed, along a history: its event and its entry. -/
def openWait (t : ThreadId) : List (Segment G) → Option (EventId × WaitId)
  | [] => none
  | seg :: history =>
    match seg.deed with
    | .queues e w _ =>
      if (seg.before.queues seg.core).running = some t then some (e, w) else openWait t history
    | .completes _ w => (openWait t history).filter fun wait => decide (wait.2 ≠ w)
    | _ => openWait t history

/-- Is the operation both halves of a wait at once? -/
def Op.isWhole : Op G → Bool
  | waitEvent .. => true
  | _ => false

/-- What is asked of a segment that comes after a history. -/
structure Segment.Disciplined (seg : Segment G) (history : List (Segment G)) : Prop where
  /-- threads are woken by signals only -/
  wakes : seg.op.scope ≠ .waking
  /-- a wait that puts its thread aside is not completed in the same call -/
  halves : seg.op.isWhole = true → seg.parked = none
  /-- a thread is put aside only while it runs and has no wait open -/
  parks : ∀ t, seg.Parks t → seg.before.stateOf t = .running ∧ openWait t history = none
  /-- a wait is completed by its own thread, which runs again, by way of its own event -/
  completes : ∀ e w, seg.deed = .completes e w → ∃ t,
    (seg.before.queues seg.core).running = some t ∧ seg.before.stateOf t = .running ∧
      openWait t history = some (e, w)

/-- Is the segment disciplined? -/
def Segment.isDisciplined (seg : Segment G) (history : List (Segment G)) : Bool :=
  decide (seg.op.scope ≠ .waking) && (!seg.op.isWhole || seg.parked.isNone) &&
  seg.parked.all (fun c => (seg.before.queues c).running.all fun t =>
    decide (seg.before.stateOf t = .running) && (openWait t history).isNone) &&
  match seg.deed with
  | .completes e w => (seg.before.queues seg.core).running.any fun t =>
    decide (seg.before.stateOf t = .running) && decide (openWait t history = some (e, w))
  | _ => true

theorem Segment.disciplined_of_isDisciplined {seg : Segment G} {history : List (Segment G)}
    (h : seg.isDisciplined history = true) : seg.Disciplined history := by
  simp only [isDisciplined] at h
  rw [Bool.and_eq_true, Bool.and_eq_true, Bool.and_eq_true] at h
  obtain ⟨⟨⟨hwakes, hhalves⟩, hparks⟩, hcompletes⟩ := h
  refine ⟨of_decide_eq_true hwakes, fun hw => ?_, fun t ⟨c, hc, hr⟩ => ?_, fun e w hdeed => ?_⟩
  · rw [hw] at hhalves
    exact Option.isNone_iff_eq_none.mp hhalves
  · rw [hc, Option.all_some, hr, Option.all_some, Bool.and_eq_true] at hparks
    exact ⟨of_decide_eq_true hparks.1, Option.isNone_iff_eq_none.mp hparks.2⟩
  · rw [hdeed] at hcompletes
    obtain ⟨t, hr, ht⟩ := (Option.any_eq_true _ _).mp hcompletes
    rw [Bool.and_eq_true] at ht
    exact ⟨t, hr, of_decide_eq_true ht.1, of_decide_eq_true ht.2⟩

/-- Every segment of the history is disciplined after what came before it. -/
def Disciplined : List (Segment G) → Prop
  | [] => True
  | seg :: history => seg.Disciplined history ∧ Disciplined history

/-- Is the history disciplined? -/
def isDisciplined : List (Segment G) → Bool
  | [] => true
  | seg :: history => seg.isDisciplined history && isDisciplined history

theorem disciplined_of_isDisciplined {history : List (Segment G)}
    (h : isDisciplined history = true) : Disciplined history := by
  induction history with
  | nil => trivial
  | cons seg history ih =>
    rw [isDisciplined, Bool.and_eq_true] at h
    exact ⟨Segment.disciplined_of_isDisciplined h.1, ih h.2⟩

/-- Whoever is put aside in a disciplined history runs. -/
theorem Disciplined.parks {history : List (Segment G)} (h : Disciplined history) :
    ∀ seg ∈ history, ∀ t, seg.Parks t → seg.before.stateOf t = .running := by
  induction history with
  | nil => exact List.forall_mem_nil _
  | cons seg history ih =>
    exact List.forall_mem_cons.mpr ⟨fun t hp => (h.1.parks t hp).1, ih h.2⟩

theorem Disciplined.of_append {later past : List (Segment G)} (h : Disciplined (later ++ past)) :
    Disciplined past := by
  induction later with
  | nil => exact h
  | cons seg later ih => exact ih h.2

/-! ## Queues hold open waits -/

namespace Kernel

variable {k k' : Kernel G} {w : WaitId} {t : ThreadId}

theorem lt_length_of_entryThread (h : k.entryThread w = some t) : w < k.waits.length := by
  refine Nat.lt_of_not_le fun hge => ?_
  simp only [entryThread] at h
  rw [List.getElem?_eq_none hge] at h
  cases h

theorem entryThread_signalAll {popped : WaitQueue}
    (h : k'.waits = WaitEntry.signalAll popped k.waits) (w : WaitId) :
    k'.entryThread w = k.entryThread w := by
  simp only [entryThread]
  rw [h, WaitEntry.getElem?_signalAll]
  split
  · rw [Option.map_map]
    rfl
  · rfl

theorem entryThread_append (h : k'.waits = k.waits ++ [{ thread := t }]) (w : WaitId) :
    k'.entryThread w = if w = k.waits.length then some t else k.entryThread w := by
  simp only [entryThread]
  rw [h, getElem?_grown]
  split <;> rfl

/-- Who stands in a queue stands there for the open wait of its thread. -/
structure WaitsOpen (k : Kernel G) (history : List (Segment G)) : Prop where
  /-- a queued entry is that of an open wait for the event -/
  queued : ∀ e w t, w ∈ k.waitersOf e → k.entryThread w = some t →
    openWait t history = some (e, w)
  /-- the entry of an open wait is an entry of the thread -/
  thread : ∀ e w t, openWait t history = some (e, w) → k.entryThread w = some t

/-- Where queues only lose entries, and waits are open as before. -/
theorem WaitsOpen.of_subset {history history' : List (Segment G)} (h : k.WaitsOpen history)
    (hq : ∀ e, ∀ w ∈ k'.waitersOf e, w ∈ k.waitersOf e)
    (ht : ∀ w, k'.entryThread w = k.entryThread w)
    (ho : ∀ t, openWait t history' = openWait t history) : k'.WaitsOpen history' where
  queued e w t hw hthread := by
    rw [ho]
    exact h.queued e w t (hq e w hw) (ht w ▸ hthread)
  thread e w t hopen := by
    rw [ho] at hopen
    exact (ht w).trans (h.thread e w t hopen)

/-- A thread begins a wait, having none open. -/
theorem WaitsOpen.queues {history history' : List (Segment G)} {e : EventId}
    (h : k.WaitsOpen history) (horder : k.WaitersInOrder)
    (waits : k'.waits = k.waits ++ [{ thread := t }])
    (queue : k'.waitersOf e = k.waitersOf e ++ [k.waits.length])
    (others : ∀ e', e ≠ e' → k.LetsAlone k' e') (hnone : openWait t history = none)
    (ho : ∀ u, openWait u history' =
      if t = u then some (e, k.waits.length) else openWait u history) :
    k'.WaitsOpen history' := by
  have hthread := entryThread_append waits
  refine ⟨fun e' w u hw hu => ?_, fun e' w u hopen => ?_⟩
  · rw [ho]
    rw [hthread] at hu
    rcases mem_waitersOf_queued queue others hw with hold | ⟨rfl, rfl⟩
    · rw [if_neg (Nat.ne_of_lt (horder.bound e' w hold))] at hu
      have hopen := h.queued e' w u hold hu
      rw [if_neg, hopen]
      rintro rfl
      rw [hnone] at hopen
      cases hopen
    · rw [if_pos rfl] at hu
      rw [if_pos (Option.some.inj hu)]
  · rw [ho] at hopen
    rw [hthread]
    split at hopen
    next htu =>
      cases hopen
      rw [if_pos rfl, htu]
    next =>
      have hu := h.thread e' w u hopen
      rw [if_neg (Nat.ne_of_lt (lt_length_of_entryThread hu)), hu]

/-- A thread completes its wait. -/
theorem WaitsOpen.completes {history history' : List (Segment G)} {e : EventId} {v : WaitId}
    (h : k.WaitsOpen history) (horder : k.WaitersInOrder)
    (waits : k'.waits = k.waits.modify v WaitEntry.take)
    (queue : k'.waitersOf e = (k.waitersOf e).erase v)
    (others : ∀ e', e ≠ e' → k.LetsAlone k' e') (hopen : openWait t history = some (e, v))
    (ho : ∀ u, openWait u history' =
      (openWait u history).filter fun wait => decide (wait.2 ≠ v)) : k'.WaitsOpen history' := by
  have hthread (w : WaitId) : k'.entryThread w = k.entryThread w := by
    refine entryThread_modify ?_ waits w
    exact fun _ => rfl
  refine ⟨fun e' w u hw hu => ?_, fun e' w u hu => ?_⟩
  · rw [hthread] at hu
    have hold : w ∈ k.waitersOf e' := by
      by_cases he : e = e'
      · subst he
        rw [queue] at hw
        exact List.mem_of_mem_erase hw
      · rwa [(others e' he).waiters] at hw
    have hu' := h.queued e' w u hold hu
    -- the entry that is completed has left its queue, and stood in no other
    have hne : w ≠ v := by
      rintro rfl
      obtain rfl : t = u := by
        have := h.thread e w t hopen
        rw [hu] at this
        exact (Option.some.inj this).symm
      obtain rfl : e = e' := by
        rw [hopen] at hu'
        cases hu'
        rfl
      rw [queue] at hw
      exact (horder.nodup e).not_mem_erase hw
    rw [ho, hu', Option.filter_some, if_pos (decide_eq_true hne)]
  · rw [ho, Option.filter_eq_some_iff] at hu
    exact (hthread w).trans (h.thread e' w u hu.1)

end Kernel

namespace Segment

variable {seg : Segment G} {history : List (Segment G)}

/-- Both halves of a wait at once find their way into a disciplined run only if nobody waits. -/
theorem Disciplined.not_whole {e : EventId} (hd : seg.Disciplined history)
    (hop : ∃ span, seg.op = .waitEvent e span) (hp : seg.parked = some seg.core) : False := by
  obtain ⟨span, hop⟩ := hop
  have := hd.halves (by rw [hop]; rfl)
  rw [hp] at this
  cases this

/-- **Every disciplined segment keeps the queues to open waits.** -/
theorem Deals.waitsOpen (hseg : seg.Deals) (hd : seg.Disciplined history)
    (horder : seg.before.WaitersInOrder) (h : seg.before.WaitsOpen history) :
    seg.after.WaitsOpen (seg :: history) := by
  cases hseg with
  | nothing deed waits events =>
    refine h.of_subset (fun e w hw => (events e).waiters ▸ hw) (fun w => ?_) fun t => ?_
    · simp only [Kernel.entryThread]
      rw [waits]
    · rw [openWait, deed]
  | queues e t span deed parked thread _ waits queue _ others =>
    refine h.queues horder waits queue others (hd.parks t ⟨_, parked, thread⟩).2 fun u => ?_
    rw [openWait, deed, thread]
    simp only [Option.some.injEq]
  | visits e t _ op parked => exact (hd.not_whole op parked).elim
  | completes e w deed waits queue _ others =>
    obtain ⟨t, -, -, hopen⟩ := hd.completes e w deed
    refine h.completes horder waits queue others hopen fun u => ?_
    rw [openWait, deed]
  | signals e popped deed _ hands =>
    refine h.of_subset (fun e' w hw => ?_) (Kernel.entryThread_signalAll hands.waits) fun t => ?_
    · by_cases he : e = e'
      · subst he
        rw [hands.queue]
        exact List.mem_append_right _ hw
      · rwa [(hands.others e' he).waiters] at hw
    · rw [openWait, deed]

/-! ## One wait and one segment -/

variable {e : EventId} {w : WaitId} {t : ThreadId} {c : CoreId} {deadline : Option Nat}

/-- Nobody else completes the wait of a thread. -/
theorem Disciplined.not_completes (hd : seg.Disciplined history)
    (h : seg.before.WaitsOpen history) (hopen : openWait t history = some (e, w))
    (hpending : seg.deed ≠ .completes e w) (e' : EventId) : seg.deed ≠ .completes e' w := by
  intro hdeed
  obtain ⟨u, -, -, hu⟩ := hd.completes e' w hdeed
  obtain rfl : u = t := by
    have hthread := h.thread e' w u hu
    rw [h.thread e w t hopen] at hthread
    exact (Option.some.inj hthread).symm
  rw [hopen] at hu
  cases hu
  exact hpending hdeed

/-- A thread with an open wait is not put aside. -/
theorem Disciplined.not_parks (hd : seg.Disciplined history)
    (hopen : openWait t history = some (e, w)) : ¬ seg.Parks t := by
  intro hp
  have := (hd.parks t hp).2
  rw [hopen] at this
  cases this

/-- A wait stays open until it is completed. -/
theorem Deals.openWait_cons (hseg : seg.Deals) (hd : seg.Disciplined history)
    (hopen : openWait t history = some (e, w)) (hpending : ∀ e', seg.deed ≠ .completes e' w) :
    openWait t (seg :: history) = some (e, w) := by
  have hparks := hd.not_parks hopen
  cases hseg with
  | nothing deed | visits _ _ deed | signals _ _ deed =>
    rw [openWait, deed]
    exact hopen
  | queues e' u span deed parked thread =>
    rw [openWait, deed]
    dsimp only
    rw [if_neg fun hr => hparks ⟨_, parked, hr⟩]
    exact hopen
  | completes e' v deed =>
    have hne : w ≠ v := by
      rintro rfl
      exact hpending e' deed
    rw [openWait, deed]
    dsimp only
    rw [hopen, Option.filter_some, if_pos (decide_eq_true hne)]

/-- An operation on no event lets a thread bide, if it wakes nobody and does not put the thread
aside. -/
theorem Sound.bides (hseg : seg.Sound) (hw : seg.op.scope ≠ .waking)
    (he : ∀ e, seg.op.scope ≠ .event e) (hparks : ¬ seg.Parks t) (hp : seg.before.Placed t)
    (ht : t < seg.before.threads.length) (h : seg.before.Bides t c deadline) :
    seg.after.Bides t c deadline := by
  obtain ⟨k, path, rfl | ⟨d, wake, hparked, rfl⟩⟩ := hseg.exists_path
  · exact h.path hp ht path.scoped hw he
  · have hr : (seg.before.queues d).running ≠ some t := fun hr => hparks ⟨d, hparked, hr⟩
    have hcarries := hp.setAside wake fun hrun => absurd hrun hr
    exact (h.setAside wake hr).path hcarries.placed (Nat.lt_of_lt_of_le ht hcarries.threads)
      path.scoped hw he

/-- **A disciplined segment lets a thread with an open wait bide**, unless it marks the entry. -/
theorem Deals.bidesUnless (hdeals : seg.Deals) (hseg : seg.Sound) (hd : seg.Disciplined history)
    (hwaits : seg.before.WaitsOpen history) (hopen : openWait t history = some (e, w))
    (hpending : ∀ e', seg.deed ≠ .completes e' w) (hp : seg.before.Placed t)
    (ht : t < seg.before.threads.length) (h : seg.before.BidesUnless w t c deadline) :
    seg.after.BidesUnless w t c deadline := by
  have hparks := hd.not_parks hopen
  cases hdeals with
  | nothing _ waits _ rest =>
    have hmark : seg.after.isSignaled w = seg.before.isSignaled w :=
      Kernel.isSignaled_congr (by rw [waits])
    refine h.imp (fun hs => hmark.trans hs) fun hb => ?_
    rcases rest with hscope | ⟨hthreads, hcores⟩
    · exact hseg.bides hd.wakes hscope hparks hp ht hb
    · exact hb.of_eq hthreads hcores
  | queues e' u span _ parked thread after waits =>
    refine h.imp (fun hs => (Kernel.isSignaled_append waits).trans hs) fun hb => ?_
    have hr : (seg.before.queues seg.core).running ≠ some t := fun hr => hparks ⟨_, parked, hr⟩
    rw [after]
    exact (hb.setAside (Effect.deadline seg.before seg.core span) hr).queueAside e' u
  | visits _ _ _ op parked => exact (hd.not_whole op parked).elim
  | completes e' v deed waits _ _ _ rest =>
    have hne : v ≠ w := by
      rintro rfl
      exact hpending e' deed
    refine h.imp (fun hs => ?_) fun hb => hb.of_eq rest.1 rest.2
    rw [Kernel.isSignaled_take waits, decide_eq_true hne, hs]
    rfl
  | signals e' _ _ after _ =>
    rw [after]
    have hlt := Kernel.lt_length_of_entryThread (hwaits.thread e w t hopen)
    refine h.signalEvent hlt fun v hv hthread => ?_
    -- the thread has one open wait only
    have hv' := hwaits.queued e' v t hv hthread
    rw [hopen] at hv'
    cases hv'
    rfl

/-- The first half of a wait opens it, and puts the thread aside until the deadline. -/
theorem Deals.opens {span : TimeSpan} (hdeals : seg.Deals) (hd : seg.Disciplined history)
    (hp : seg.before.Placed t) (hdeed : seg.deed = .queues e w span)
    (hr : (seg.before.queues seg.core).running = some t) :
    openWait t (seg :: history) = some (e, w) ∧ t < seg.after.threads.length ∧
      seg.after.BidesUnless w t seg.core (Effect.deadline seg.before seg.core span) := by
  cases hdeals with
  | queues e' u span' deed parked thread after =>
    obtain rfl : u = t := Option.some.inj (thread.symm.trans hr)
    obtain ⟨rfl, rfl, rfl⟩ : e' = e ∧ seg.before.waits.length = w ∧ span' = span := by
      rw [deed] at hdeed
      cases hdeed
      exact ⟨rfl, rfl, rfl⟩
    have hs := (hd.parks u ⟨_, parked, thread⟩).1
    have ho : seg.before.ownerOf u = some seg.core := by
      refine (hp.slot _ thread).resolve_right fun he => ?_
      rw [hs] at he
      cases he.1
    refine ⟨?_, ?_, .inr ?_⟩
    · rw [openWait, deed]
      exact if_pos thread
    · rw [after]
      refine Nat.lt_of_lt_of_eq (Kernel.lt_length_of_ownerOf ho) ?_
      exact (Kernel.moves_setAside thread).length.symm
    · rw [after]
      exact (Kernel.bides_setAside (Effect.deadline seg.before seg.core span') thread ho).queueAside
        e' u
  | nothing deed | visits _ _ deed | completes _ _ deed | signals _ _ deed =>
    rw [deed] at hdeed
    cases hdeed

end Segment

theorem Kernel.Fresh.waitsOpen {k : Kernel G} (h : k.Fresh) : k.WaitsOpen [] := by
  refine ⟨fun e w t hw => ?_, fun e w t hopen => ?_⟩
  · simp only [Kernel.waitersOf] at hw
    rw [h.events] at hw
    cases hw
  · cases hopen

/-! ## One wait along a run -/

namespace System

variable {s₁ s : System G} {later past : List (Segment G)}

theorem Runs.waitsOpen (run : Runs s₁ later s) (h : s₁.machine.kernel.WaitsOpen past)
    (hlater : ∀ seg ∈ later, seg.Deals ∧ seg.before.WaitersInOrder)
    (disciplined : Disciplined (later ++ past)) :
    s.machine.kernel.WaitsOpen (later ++ past) := by
  induction run with
  | start => exact h
  | @step later s s' seg run next ih =>
    rw [List.forall_mem_cons] at hlater
    obtain ⟨hd, hrest⟩ := disciplined
    obtain ⟨hbefore, hafter⟩ := next.kernels
    have h' := ih hlater.2 hrest
    rw [← hbefore] at h'
    rw [← hafter]
    exact hlater.1.1.waitsOpen hd hlater.1.2 h'

/-- **From the first half of a wait on**, as long as it is not completed, it is open, and the thread
bides unless the entry is marked. -/
theorem Runs.bidesUnless {e : EventId} {w : WaitId} {t : ThreadId} {c : CoreId}
    {deadline : Option Nat} (run : Runs s₁ later s) (h₁ : ∀ task ∈ s₁.tasks, task.Sound)
    (hlater : ∀ seg ∈ later, seg.Deals ∧ seg.before.WaitersInOrder)
    (hplaced : ∀ seg ∈ later, seg.before.Placed t) (hwaits : s₁.machine.kernel.WaitsOpen past)
    (disciplined : Disciplined (later ++ past))
    (hpending : ∀ seg ∈ later, seg.deed ≠ .completes e w)
    (hopen : openWait t past = some (e, w)) (ht : t < s₁.machine.kernel.threads.length)
    (h : s₁.machine.kernel.BidesUnless w t c deadline) :
    (∀ seg ∈ later, ∀ e', seg.deed ≠ .completes e' w) ∧
      openWait t (later ++ past) = some (e, w) ∧ t < s.machine.kernel.threads.length ∧
      s.machine.kernel.BidesUnless w t c deadline := by
  induction run with
  | start => exact ⟨List.forall_mem_nil _, hopen, ht, h⟩
  | @step later s s' seg run next ih =>
    rw [List.forall_mem_cons] at hlater hplaced hpending
    obtain ⟨hd, hrest⟩ := disciplined
    obtain ⟨hbefore, hafter⟩ := next.kernels
    have hwaits' := run.waitsOpen hwaits hlater.2 hrest
    obtain ⟨hnone, hopen', ht', h'⟩ := ih hlater.2 hplaced.2 hrest hpending.2
    rw [← hbefore] at hwaits' ht' h'
    have hseg : seg.Sound := (next.sound (run.sound h₁).2).1
    have hseg' := hd.not_completes hwaits' hopen' hpending.1
    have hcarries := hseg.carries hplaced.1 fun hp => absurd hp (hd.not_parks hopen')
    rw [← hafter]
    exact ⟨List.forall_mem_cons.mpr ⟨hseg', hnone⟩, hlater.1.1.openWait_cons hd hopen' hseg',
      Nat.lt_of_lt_of_le ht' hcarries.threads,
      hlater.1.1.bidesUnless hseg hd hwaits' hopen' hseg' hplaced.1 ht' h'⟩

end System

/-! ## What a completion tells -/

/-- A segment that takes an entry out of a queue marks it, unless it completes the entry. -/
theorem Segment.Concerns.marks {seg : Segment G} {e : EventId} {w : WaitId}
    (hseg : seg.Concerns w) (horder : seg.before.WaitersInOrder)
    (hpending : ∀ e', seg.deed ≠ .completes e' w) (hw : w ∈ seg.before.waitersOf e)
    (hgone : w ∉ seg.after.waitersOf e) : seg.marks w = true := by
  cases hseg with
  | spares _ spares =>
    refine absurd ?_ hgone
    rw [← List.count_pos_iff, spares.count]
    exact List.count_pos_iff.mpr hw
  | completes e' deed => exact absurd deed (hpending e')
  | hands _ _ _ handed =>
    simp only [Segment.marks]
    rw [horder.unmarked e w hw, handed.marked]
    rfl

/-- An entry that was marked and not completed is marked still. -/
theorem Kernel.Fate.marked {k : Kernel G} {e : EventId} {w : WaitId} {later : List (Segment G)}
    (h : k.Fate e w later) (hpending : ∀ seg ∈ later, ∀ e', seg.deed ≠ .completes e' w)
    {seg : Segment G} (hmem : seg ∈ later) (hm : seg.marks w = true) : k.isSignaled w = true := by
  cases h with
  | queued _ _ unmarked =>
    have := List.countP_eq_zero.mp unmarked seg hmem
    exact absurd hm this
  | handed handed => exact handed.marked
  | spent _ since before seg' split completed =>
    exact absurd completed (hpending seg' (by simp [split]) e)

/-- **A wait that began along a disciplined run from a boot.** As long as it is not completed, its
thread is placed, and bides unless the entry is marked; and the entry is marked if a segment took it
out of the queue. -/
theorem System.Runs.bides_since_queued {m : Machine G} {s₁ s : System G} {seg : Segment G}
    {past later : List (Segment G)} {e : EventId} {w : WaitId} {span : TimeSpan} {t : ThreadId}
    (booted : m.Booted) (made : Runs ⟨m, []⟩ (seg :: past) s₁)
    (queued : seg.deed = .queues e w span)
    (thread : (seg.before.queues seg.core).running = some t) (run : Runs s₁ later s)
    (disciplined : Disciplined (later ++ seg :: past))
    (pending : ∀ g ∈ later, g.deed ≠ .completes e w) :
    s.machine.kernel.Placed t ∧
      s.machine.kernel.BidesUnless w t seg.core (Effect.deadline seg.before seg.core span) ∧
      ∀ g ∈ later, w ∈ g.before.waitersOf e → w ∉ g.after.waitersOf e →
        s.machine.kernel.isSignaled w = true := by
  have hrun := made.trans run
  have hnone : ∀ task ∈ (⟨m, []⟩ : System G).tasks, task.Sound := List.forall_mem_nil _
  have hdeals := (hrun.deals hnone (List.forall_mem_nil _)).1
  have horder := (hrun.waitersInOrder booted).2
  have hsegs (g : Segment G) (hg : g ∈ later ++ seg :: past) : g.Deals ∧ g.before.WaitersInOrder :=
    ⟨hdeals g hg, (horder g hg).1⟩
  have hlater (g : Segment G) (hg : g ∈ later) := hsegs g (List.mem_append_left _ hg)
  have hpast (g : Segment G) (hg : g ∈ seg :: past) := hsegs g (List.mem_append_right _ hg)
  obtain ⟨hplaced, hall⟩ := hrun.keeps (I := fun k => k.Placed t) hnone
    (fun g hg hp => .inr (disciplined.parks g hg t hp))
    (fun _ hp hseg h => (hseg.carries h hp).placed) (booted.fresh.placed t)
  -- the wait begins
  have hseg : seg ∈ later ++ seg :: past := List.mem_append_right _ List.mem_cons_self
  obtain ⟨hopen, ht, hbides⟩ := (hdeals seg hseg).opens disciplined.of_append.1 (hall seg hseg).1
    queued thread
  obtain ⟨hq, hw⟩ := (hdeals seg hseg).queued (horder seg hseg).1 queued
  rw [made.after_eq] at ht hbides hq hw
  have hwaits : s₁.machine.kernel.WaitsOpen (seg :: past) := by
    have hmade := made.waitsOpen booted.fresh.waitsOpen hpast
    rw [List.append_nil] at hmade
    exact hmade disciplined.of_append
  -- and goes on
  obtain ⟨hpending, -, -, hend⟩ := run.bidesUnless (made.sound hnone).2 hlater
    (fun g hg => (hall g (List.mem_append_left _ hg)).1) hwaits disciplined pending hopen ht hbides
  obtain ⟨hfate, -, -⟩ := run.fate hq hw hlater fun g hg e' he' => absurd he' (hpending g hg e')
  refine ⟨hplaced, hend, fun g hg hmem hgone => ?_⟩
  obtain ⟨hgdeals, hgorder⟩ := hlater g hg
  have hconcerns := hgdeals.concerns hgorder (hgorder.bound e w hmem)
  exact hfate.marked hpending hg (hconcerns.marks hgorder (hpending g hg) hmem hgone)

/-- **A wait times out only after its deadline.** Along a disciplined run from a boot, on any number
of cores, a thread begins a wait and runs again later, with the wait not completed yet. The second
half, called on any core, then returns. If it tells of a timeout, the wait had a deadline, and the
core that owns the thread has counted up to the tick that was computed in the first half. A wait
without a deadline succeeds; and so does a wait whose entry was taken out of the queue by a signal,
whether its tick has come or not. -/
theorem wait_times_out_only_after_deadline {m : Machine G} {s₁ s : System G} {seg : Segment G}
    {past later : List (Segment G)} {e : EventId} {w : WaitId} {span : TimeSpan} {t : ThreadId}
    (booted : m.Booted) (free : m.chip.held = [])
    (made : System.Runs ⟨m, []⟩ (seg :: past) s₁) (queued : seg.deed = .queues e w span)
    (thread : (seg.before.queues seg.core).running = some t) (run : System.Runs s₁ later s)
    (disciplined : Disciplined (later ++ seg :: past))
    (pending : ∀ g ∈ later, g.deed ≠ .completes e w)
    (again : s.machine.kernel.stateOf t = .running) (core : CoreId) :
    ∃ k answer, (Call.completeWait e w (s.machine.on core)).outcome? = some (k, answer) ∧
      (answer = .ok () ∨ answer = .error .timeout) ∧
      (answer = .error .timeout → span.isInfinite = false ∧
        s.machine.kernel.ownerOf t = some seg.core ∧
        RunQueues.wakeTick (seg.before.queues seg.core).ticks span seg.before.slice ≤
          (s.machine.kernel.queues seg.core).ticks) ∧
      (span.isInfinite = true → answer = .ok ()) ∧
      ∀ g ∈ later, g.deed = .signals e → w ∈ g.before.waitersOf e → w ∉ g.after.waitersOf e →
        answer = .ok () := by
  obtain ⟨hplaced, hbides, htaken⟩ :=
    System.Runs.bides_since_queued booted made queued thread run disciplined pending
  have hheld : s.machine.chip.held = [] :=
    ((made.trans run).unlocked (System.unlocked_start free)).held
  have hcall : (Call.completeWait e w (s.machine.on core)).outcome? =
      some (Effect.completeWait e w s.machine.kernel) :=
    Call.outcome?_completeWait e w (m := s.machine.on core) hheld
  rw [Effect.completeWait_eq] at hcall
  cases hmark : s.machine.kernel.isSignaled w with
  | true =>
    rw [hmark, if_pos rfl] at hcall
    exact ⟨_, _, hcall, .inl rfl, nofun, fun _ => rfl, fun _ _ _ _ _ => rfl⟩
  | false =>
    rw [hmark, if_neg Bool.false_ne_true] at hcall
    -- no mark: the thread has come back by itself, at its tick
    obtain ⟨wake, hdeadline, howner, htick⟩ :=
      (hbides.resolve_left (by rw [hmark]; nofun)).due_of_running hplaced again
    have hfinite : span.isInfinite = false ∧
        RunQueues.wakeTick (seg.before.queues seg.core).ticks span seg.before.slice = wake := by
      simp only [Effect.deadline] at hdeadline
      split at hdeadline
      · cases hdeadline
      next hspan => exact ⟨Bool.eq_false_iff.mpr hspan, Option.some.inj hdeadline⟩
    refine ⟨_, _, hcall, .inr rfl, fun _ => ⟨hfinite.1, howner, hfinite.2 ▸ htick⟩, fun hinf => ?_,
      fun g hg _ hmem hgone => ?_⟩
    · rw [hfinite.1] at hinf
      cases hinf
    · rw [htaken g hg hmem hgone] at hmark
      cases hmark

/-- A thread waits for twenty milliseconds, at ten a tick, and nobody signals: at the second tick it
runs again, and its wait tells of a timeout. -/
theorem wait_times_out_at_second_tick : ∃ m past s later s',
    Machine.boot? {} {} = some m ∧
    System.play ⟨m, []⟩ (oneEvent ++ [(0, .enqueueWait 0 (.ofMillis 20))]) = some (past, s) ∧
    s.play [(0, .yieldThread 0 7), (0, .onTick 0 8), (0, .onTick 0 9)] = some (later, s') ∧
    s'.machine.kernel.stateOf 1 = .running ∧
    ∃ k, (Call.completeWait 0 0 (s'.machine.on 0)).outcome? = some (k, .error .timeout) ∧
      s'.machine.kernel.ownerOf 1 = some 0 ∧ 2 ≤ (s'.machine.kernel.queues 0).ticks := by
  obtain ⟨m, past, s, later, s', hm, hfirst, hsecond, htest⟩ := System.exists_play {} {}
    (oneEvent ++ [(0, .enqueueWait 0 (.ofMillis 20))])
    [(0, .yieldThread 0 7), (0, .onTick 0 8), (0, .onTick 0 9)]
    (fun past _ later s' => decide (past.head?.map (fun seg => (seg.deed, seg.core,
        (seg.before.queues seg.core).running, (seg.before.queues seg.core).ticks,
        seg.before.slice)) = some (.queues 0 0 (.ofMillis 20), 0, some 1, 0, .ofMillis 10)) &&
      (isDisciplined (later ++ past) && (later.all (fun g => decide (g.deed = .nothing)) &&
        (decide (s'.machine.kernel.stateOf 1 = .running) &&
          decide ((Call.completeWait 0 0 (s'.machine.on 0)).outcome?.map (·.2.toOption) =
            some none))))) (by decide +kernel)
  simp only [Bool.and_eq_true, decide_eq_true_eq, List.all_eq_true] at htest
  obtain ⟨hhead, hdisciplined, hdeeds, hagain, hfails⟩ := htest
  -- the latest segment of the first part is the one that began the wait
  obtain ⟨seg, hseg, hbegins⟩ := Option.map_eq_some_iff.mp hhead
  obtain ⟨past, rfl⟩ := List.head?_eq_some_iff.mp hseg
  simp only [Prod.mk.injEq] at hbegins
  obtain ⟨hqueued, hcore, hthread, hticks, hslice⟩ := hbegins
  have hpending (g : Segment ⟨Unit, Unit⟩) (hg : g ∈ later) : g.deed ≠ .completes 0 0 := by
    rw [hdeeds g hg]
    nofun
  obtain ⟨k, answer, hcall, hanswer, htimeout, -⟩ := wait_times_out_only_after_deadline
    (Machine.booted_of_boot? hm) (Machine.held_of_boot? hm) (System.runs_of_play hfirst) hqueued
    hthread (System.runs_of_play hsecond) (disciplined_of_isDisciplined hdisciplined) hpending
    hagain 0
  rw [hcall] at hfails
  rcases hanswer with rfl | rfl
  · cases hfails
  · obtain ⟨-, howner, htick⟩ := htimeout rfl
    rw [hcore] at howner hticks htick
    rw [hticks, hslice] at htick
    exact ⟨m, _, s, later, s', hm, hfirst, hsecond, hagain, k, hcall, howner, htick⟩

end Nucleus
