import Nucleus.Proofs.Anatomy
import Nucleus.Proofs.Returns
import Nucleus.Proofs.Waiters

/-!
# What becomes of a wait entry

An entry begins in the queue of its event. One signal of the event may take it out of the queue and
mark it, and its completion tells by the mark whether this has happened. Afterwards nobody sees the
entry again.

* `Segment.Concerns` says what a segment can do to one entry, and `Segment.Deals.concerns` that it
  does nothing else.
* `Kernel.Fate` is what has become of an entry along a history, and `Kernel.Fate.step` takes it one
  segment further.
* `wait_entry_has_one_outcome` is the statement about runs. The order of the queues comes from
  `System.Runs.queuedInTurn`.
-/

namespace Nucleus

variable {G : Guest}

/-! ## One entry and one segment -/

namespace Kernel

/-- The entry stands once in the queue of the event and nowhere else, and it has no mark. -/
structure Queued (k : Kernel G) (e : EventId) (w : WaitId) : Prop where
  /-- once in the queue of the event -/
  once : (k.waitersOf e).count w = 1
  /-- in no other queue -/
  elsewhere : ∀ e', e ≠ e' → w ∉ k.waitersOf e'
  /-- it has no mark -/
  unmarked : k.isSignaled w = false

/-- The entry stands in no queue, and it is marked. -/
structure Handed (k : Kernel G) (w : WaitId) : Prop where
  /-- it stands in no queue -/
  gone : ∀ e, w ∉ k.waitersOf e
  /-- it is marked -/
  marked : k.isSignaled w = true

/-- The entry stands in no queue, and it has no mark. -/
structure Spent (k : Kernel G) (w : WaitId) : Prop where
  /-- it stands in no queue -/
  gone : ∀ e, w ∉ k.waitersOf e
  /-- it has no mark -/
  unmarked : k.isSignaled w = false

/-- From one state to the other, nothing happens to the entry. -/
structure Spares (k k' : Kernel G) (w : WaitId) : Prop where
  /-- it stands where it stood -/
  count : ∀ e, (k'.waitersOf e).count w = (k.waitersOf e).count w
  /-- it is marked if it was -/
  mark : k'.isSignaled w = k.isSignaled w

variable {k k' : Kernel G} {e : EventId} {w : WaitId}

theorem Queued.mem (h : k.Queued e w) : w ∈ k.waitersOf e := by
  have := h.once
  exact List.count_pos_iff.mp (by omega)

namespace Spares

theorem not_mem (h : k.Spares k' w) {e : EventId} (hw : w ∉ k.waitersOf e) :
    w ∉ k'.waitersOf e := by
  rw [← List.count_eq_zero, h.count]
  exact List.count_eq_zero.mpr hw

theorem queued (h : k.Spares k' w) (hq : k.Queued e w) : k'.Queued e w :=
  ⟨(h.count e).trans hq.once, fun e' he' => h.not_mem (hq.elsewhere e' he'),
    h.mark.trans hq.unmarked⟩

theorem handed (h : k.Spares k' w) (hh : k.Handed w) : k'.Handed w :=
  ⟨fun e => h.not_mem (hh.gone e), h.mark.trans hh.marked⟩

theorem spent (h : k.Spares k' w) (hs : k.Spent w) : k'.Spent w :=
  ⟨fun e => h.not_mem (hs.gone e), h.mark.trans hs.unmarked⟩

/-- What happens to one event only, and not to the entry there. -/
theorem of_event (hcount : (k'.waitersOf e).count w = (k.waitersOf e).count w)
    (others : ∀ e', e ≠ e' → k.LetsAlone k' e') (mark : k'.isSignaled w = k.isSignaled w) :
    k.Spares k' w := by
  refine ⟨fun e' => ?_, mark⟩
  by_cases he : e = e'
  · exact he ▸ hcount
  · rw [(others e' he).waiters]

end Spares

end Kernel

namespace Segment

/-- Does the segment mark the entry? -/
def marks (w : WaitId) (seg : Segment G) : Bool :=
  !seg.before.isSignaled w && seg.after.isSignaled w

/-- **What a segment does to one entry.** -/
inductive Concerns (seg : Segment G) (w : WaitId) : Prop where
  /-- nothing -/
  | spares (deed : ∀ e, seg.deed ≠ .completes e w) (spares : seg.before.Spares seg.after w)
  /-- the entry is completed: it leaves the queue of the event and has no mark afterwards -/
  | completes (e : EventId) (deed : seg.deed = .completes e w)
    (gone : w ∉ seg.after.waitersOf e)
    (others : ∀ e', e ≠ e' → seg.after.waitersOf e' = seg.before.waitersOf e')
    (unmarked : seg.after.isSignaled w = false)
  /-- a signal of the event in whose queue it stands takes it out and marks it -/
  | hands (e : EventId) (deed : seg.deed = .signals e) (queued : w ∈ seg.before.waitersOf e)
    (handed : seg.after.Handed w)

variable {seg : Segment G} {w : WaitId}

theorem marks_of_spares (h : seg.before.Spares seg.after w) : seg.marks w = false := by
  simp only [marks]
  rw [h.mark]
  exact Bool.not_and_self _

/-- A segment does nothing else to an entry that was made before. -/
theorem Deals.concerns (hseg : seg.Deals) (h : seg.before.WaitersInOrder)
    (hw : w < seg.before.waits.length) : seg.Concerns w := by
  have hnew : seg.before.waits.length ≠ w := Nat.ne_of_gt hw
  cases hseg with
  | nothing deed waits events =>
    refine .spares (by rw [deed]; nofun) ⟨fun e => ?_, Kernel.isSignaled_congr (by rw [waits])⟩
    rw [(events e).waiters]
  | queues e t _ deed _ _ _ waits queue _ others =>
    refine .spares (by rw [deed]; nofun) (.of_event (e := e) ?_ others ?_)
    · rw [queue, List.count_append, List.count_singleton, beq_eq_false_iff_ne.mpr hnew]
      rfl
    · exact Kernel.isSignaled_append waits
  | visits e t deed _ _ waits queue _ others =>
    refine .spares (by rw [deed]; nofun) (.of_event (e := e) ?_ others ?_)
    · rw [queue, List.count_erase_of_ne hnew.symm, List.count_append, List.count_singleton,
        beq_eq_false_iff_ne.mpr hnew]
      rfl
    · exact Kernel.isSignaled_append waits
  | completes e v deed waits queue _ others =>
    by_cases hv : v = w
    · subst hv
      refine .completes e deed ?_ (fun e' he' => (others e' he').waiters) ?_
      · rw [queue]
        exact (h.nodup e).not_mem_erase
      · rw [Kernel.isSignaled_take waits, decide_eq_false (fun hne => hne rfl), Bool.false_and]
    · refine .spares (by rw [deed]; simp [hv]) (.of_event (e := e) ?_ others ?_)
      · rw [queue, List.count_erase_of_ne (Ne.symm hv)]
      · rw [Kernel.isSignaled_take waits, decide_eq_true hv, Bool.true_and]
  | signals e popped deed _ hands =>
    have hnodup := h.nodup e
    rw [hands.queue, List.nodup_append] at hnodup
    by_cases hp : w ∈ popped
    · -- the entry stood in the queue of `e`, once, and so nowhere else
      have hmem : w ∈ seg.before.waitersOf e := hands.queue ▸ List.mem_append_left _ hp
      refine .hands e deed hmem ⟨fun e' hw' => ?_, ?_⟩
      · by_cases he : e = e'
        · subst he
          exact hnodup.2.2 w hp w hw' rfl
        · rw [(hands.others e' he).waiters] at hw'
          exact he (h.home e e' w hmem hw')
      · exact (Kernel.isSignaled_signalAll hands.waits).mpr (.inl ⟨hp, hw⟩)
    · refine .spares (by rw [deed]; nofun) (.of_event (e := e) ?_ hands.others ?_)
      · rw [hands.queue, List.count_append, List.count_eq_zero.mpr hp, Nat.zero_add]
      · rw [Bool.eq_iff_iff, Kernel.isSignaled_signalAll hands.waits]
        exact ⟨fun hs => hs.resolve_left fun hw => hp hw.1, .inr⟩

/-- No entry goes away. -/
theorem Deals.length_waits (hseg : seg.Deals) :
    seg.before.waits.length ≤ seg.after.waits.length := by
  cases hseg with
  | nothing _ waits => exact Nat.le_of_eq (congrArg _ waits.symm)
  | queues _ _ _ _ _ _ _ waits | visits _ _ _ _ _ waits =>
    rw [waits, List.length_append]
    exact Nat.le_add_right _ _
  | completes _ _ _ waits => exact Nat.le_of_eq (by rw [waits, List.length_modify])
  | signals _ _ _ _ hands => exact Nat.le_of_eq (by rw [hands.waits, WaitEntry.length_signalAll])

/-- An entry begins in the queue of its event. -/
theorem Deals.queued {e : EventId} {span : TimeSpan} (hseg : seg.Deals)
    (h : seg.before.WaitersInOrder) (hdeed : seg.deed = .queues e w span) :
    seg.after.Queued e w ∧ w < seg.after.waits.length := by
  cases hseg with
  | queues e' t _ deed _ _ _ waits queue clear others =>
    obtain ⟨rfl, rfl⟩ : e' = e ∧ seg.before.waits.length = w := by
      rw [deed] at hdeed
      cases hdeed
      exact ⟨rfl, rfl⟩
    refine ⟨⟨?_, fun e' he' => ?_, ?_⟩, ?_⟩
    · rw [queue, List.count_append, List.count_eq_zero.mpr (h.length_not_mem e'),
        List.count_singleton_self]
    · rw [(others e' he').waiters]
      exact h.length_not_mem e'
    · rw [Kernel.isSignaled_append waits]
      exact Kernel.isSignaled_eq_false_of_le (Nat.le_refl _)
    · rw [waits, List.length_append]
      exact Nat.lt_succ_self _
  | nothing deed | visits _ _ deed | completes _ _ deed | signals _ _ deed =>
    rw [deed] at hdeed
    cases hdeed

end Segment

/-! ## One entry along a history -/

/-- What has become of an entry of an event, along the history since it was queued. -/
inductive Kernel.Fate (k : Kernel G) (e : EventId) (w : WaitId) (later : List (Segment G)) :
    Prop where
  /-- neither signalled nor completed -/
  | queued (queued : k.Queued e w) (pending : ∀ seg ∈ later, ∀ e', seg.deed ≠ .completes e' w)
    (unmarked : later.countP (·.marks w) = 0)
  /-- marked once, and not completed -/
  | handed (handed : k.Handed w) (pending : ∀ seg ∈ later, ∀ e', seg.deed ≠ .completes e' w)
    (once : later.countP (·.marks w) = 1)
  /-- completed, and not marked since -/
  | spent (spent : k.Spent w) (since before : List (Segment G)) (seg : Segment G)
    (split : later = since ++ seg :: before) (completed : seg.deed = .completes e w)
    (never : ∀ seg ∈ since, seg.marks w = false)

namespace Kernel.Fate

variable {seg : Segment G} {later : List (Segment G)} {e : EventId} {w : WaitId}

/-- What is done to the entry by a segment that spares it: nothing. -/
theorem spare (h : seg.before.Fate e w later) (deed : ∀ e, seg.deed ≠ .completes e w)
    (spares : seg.before.Spares seg.after w) : seg.after.Fate e w (seg :: later) := by
  have hmarks := Segment.marks_of_spares spares
  have hcount : (seg :: later).countP (·.marks w) = later.countP (·.marks w) :=
    List.countP_cons_of_neg (by rw [hmarks]; exact Bool.false_ne_true)
  cases h with
  | queued hq pending unmarked =>
    exact .queued (spares.queued hq) (List.forall_mem_cons.mpr ⟨deed, pending⟩)
      (hcount.trans unmarked)
  | handed hh pending once =>
    exact .handed (spares.handed hh) (List.forall_mem_cons.mpr ⟨deed, pending⟩) (hcount.trans once)
  | spent hs since before seg' split completed never =>
    exact .spent (spares.spent hs) (seg :: since) before seg' (by rw [split]; rfl) completed
      (List.forall_mem_cons.mpr ⟨hmarks, never⟩)

/-- **One segment further.** An entry that is completed by way of its own event only is marked by
signals of that event only. -/
theorem step (h : seg.before.Fate e w later) (hseg : seg.Concerns w)
    (own : ∀ e', seg.deed = .completes e' w → e' = e) :
    seg.after.Fate e w (seg :: later) ∧ (seg.marks w = true → seg.deed = .signals e) := by
  cases hseg with
  | spares deed spares =>
    refine ⟨h.spare deed spares, fun hm => ?_⟩
    rw [Segment.marks_of_spares spares] at hm
    cases hm
  | completes e' deed gone others unmarked =>
    obtain rfl := own e' deed
    refine ⟨.spent ⟨fun e₁ => ?_, unmarked⟩ [] later seg rfl deed (List.forall_mem_nil _),
      fun hm => ?_⟩
    · by_cases he : e' = e₁
      · exact he ▸ gone
      · rw [others e₁ he]
        cases h with
        | queued hq => exact hq.elsewhere e₁ he
        | handed hh => exact hh.gone e₁
        | spent hs => exact hs.gone e₁
    · simp only [Segment.marks] at hm
      rw [unmarked, Bool.and_false] at hm
      cases hm
  | hands e' deed queued handed =>
    -- only an entry that was still queued stood in a queue, and it stood in that of its event
    cases h with
    | queued hq pending unmarked =>
      obtain rfl : e' = e :=
        Decidable.byContradiction fun he => hq.elsewhere e' (Ne.symm he) queued
      have hmarks : seg.marks w = true := by
        simp only [Segment.marks]
        rw [hq.unmarked, handed.marked]
        rfl
      refine ⟨.handed handed (List.forall_mem_cons.mpr ⟨?_, pending⟩) ?_, fun _ => deed⟩
      · rw [deed]
        nofun
      · rw [List.countP_cons_of_pos hmarks, unmarked]
    | handed hh => exact absurd queued (hh.gone e')
    | spent hs => exact absurd queued (hs.gone e')

end Kernel.Fate

/-- The fate of an entry at the end of a run, from the point at which it was queued. -/
theorem System.Runs.fate {s₁ s : System G} {later : List (Segment G)} {e : EventId} {w : WaitId}
    (run : Runs s₁ later s) (hq : s₁.machine.kernel.Queued e w)
    (hw : w < s₁.machine.kernel.waits.length)
    (hlater : ∀ seg ∈ later, seg.Deals ∧ seg.before.WaitersInOrder)
    (own : ∀ seg ∈ later, ∀ e', seg.deed = .completes e' w → e' = e) :
    s.machine.kernel.Fate e w later ∧ (∀ seg ∈ later, seg.marks w = true → seg.deed = .signals e) ∧
      w < s.machine.kernel.waits.length := by
  induction run with
  | start => exact ⟨.queued hq (List.forall_mem_nil _) rfl, List.forall_mem_nil _, hw⟩
  | @step later s s' seg run next ih =>
    rw [List.forall_mem_cons] at hlater own
    obtain ⟨hfate, hmarks, hw⟩ := ih hlater.2 own.2
    obtain ⟨hbefore, hafter⟩ := next.kernels
    obtain ⟨hdeals, horder⟩ := hlater.1
    rw [← hbefore] at hfate hw
    rw [← hafter]
    obtain ⟨hfate', hmark⟩ := hfate.step (hdeals.concerns horder hw) own.1
    exact ⟨hfate', List.forall_mem_cons.mpr ⟨hmark, hmarks⟩,
      Nat.lt_of_lt_of_le hw hdeals.length_waits⟩

/-! ## The order of the queues -/

/-- The entry that the segment queued for the event. -/
def Segment.entryFor (e : EventId) (seg : Segment G) : Option WaitId :=
  match seg.deed with
  | .queues e' w _ => if e' = e then some w else none
  | _ => none

/-- The entries that were queued for the event along a history, in the order of the calls. -/
def entriesFor (e : EventId) (history : List (Segment G)) : List WaitId :=
  history.reverse.filterMap (·.entryFor e)

theorem entriesFor_cons (e : EventId) (seg : Segment G) (history : List (Segment G)) :
    entriesFor e (seg :: history) = entriesFor e history ++ (seg.entryFor e).toList := by
  simp only [entriesFor]
  rw [List.reverse_cons, List.filterMap_append]
  cases h : seg.entryFor e <;> simp [h]

/-- The queue of an event holds entries in the order in which they were queued, and these are named
in that order. -/
structure Kernel.QueuedInTurn (k : Kernel G) (e : EventId) (history : List (Segment G)) : Prop where
  /-- who waits was queued, in this order -/
  sublist : (k.waitersOf e).Sublist (entriesFor e history)
  /-- later entries have greater names -/
  sorted : (entriesFor e history).Pairwise (· < ·)
  /-- entries were made -/
  bound : ∀ w ∈ entriesFor e history, w < k.waits.length

namespace Kernel.QueuedInTurn

variable {seg : Segment G} {history : List (Segment G)} {e : EventId}

/-- A segment that queues nobody for the event. -/
theorem of_sublist (h : seg.before.QueuedInTurn e history) (hentry : seg.entryFor e = none)
    (hq : (seg.after.waitersOf e).Sublist (seg.before.waitersOf e))
    (hl : seg.before.waits.length ≤ seg.after.waits.length) :
    seg.after.QueuedInTurn e (seg :: history) := by
  have hsame : entriesFor e (seg :: history) = entriesFor e history := by
    rw [entriesFor_cons, hentry]
    exact List.append_nil _
  refine ⟨?_, ?_, fun w hw => ?_⟩
  · rw [hsame]
    exact hq.trans h.sublist
  · rw [hsame]
    exact h.sorted
  · rw [hsame] at hw
    exact Nat.lt_of_lt_of_le (h.bound w hw) hl

theorem step (h : seg.before.QueuedInTurn e history) (hseg : seg.Deals)
    (horder : seg.before.WaitersInOrder) : seg.after.QueuedInTurn e (seg :: history) := by
  have hl := hseg.length_waits
  -- a segment on another event lets this queue alone
  have hother {e' : EventId} (he : e' ≠ e)
      (others : ∀ e, e' ≠ e → seg.before.LetsAlone seg.after e) :
      (seg.after.waitersOf e).Sublist (seg.before.waitersOf e) := (others e he).sublist
  cases hseg with
  | nothing deed _ events =>
    exact h.of_sublist (by rw [Segment.entryFor, deed]) (events e).sublist hl
  | queues e' t _ deed _ _ _ waits queue _ others =>
    by_cases he : e' = e
    · subst he
      have hentries : entriesFor e' (seg :: history) =
          entriesFor e' history ++ [seg.before.waits.length] := by
        rw [entriesFor_cons, Segment.entryFor, deed]
        simp
      refine ⟨?_, ?_, fun w hw => ?_⟩
      · rw [hentries, queue]
        exact h.sublist.append (List.Sublist.refl _)
      · rw [hentries, List.pairwise_append]
        refine ⟨h.sorted, List.pairwise_singleton _ _, fun w hw v hv => ?_⟩
        rw [List.mem_singleton.mp hv]
        exact h.bound w hw
      · rw [waits, List.length_append]
        rw [hentries, List.mem_append, List.mem_singleton] at hw
        rcases hw with hw | rfl
        · exact Nat.lt_succ_of_lt (h.bound w hw)
        · exact Nat.lt_succ_self _
    · refine h.of_sublist ?_ (hother he others) hl
      rw [Segment.entryFor, deed]
      exact if_neg he
  | visits e' t deed _ _ _ queue _ others =>
    refine h.of_sublist (by rw [Segment.entryFor, deed]) ?_ hl
    by_cases he : e' = e
    · subst he
      exact queue.trans (horder.erase_length e') ▸ List.Sublist.refl _
    · exact hother he others
  | completes e' w deed _ queue _ others =>
    refine h.of_sublist (by rw [Segment.entryFor, deed]) ?_ hl
    by_cases he : e' = e
    · subst he
      rw [queue]
      exact List.erase_sublist
    · exact hother he others
  | signals e' popped deed _ hands =>
    refine h.of_sublist (by rw [Segment.entryFor, deed]) ?_ hl
    by_cases he : e' = e
    · subst he
      rw [hands.queue]
      exact List.sublist_append_right _ _
    · exact hother he hands.others

end Kernel.QueuedInTurn

/-- **Queues hold entries in the order of the calls**, along a run from a boot. -/
theorem System.Runs.queuedInTurn {m : Machine G} {s : System G} {history : List (Segment G)}
    (booted : m.Booted) (run : Runs ⟨m, []⟩ history s) (e : EventId) :
    s.machine.kernel.QueuedInTurn e history := by
  have horder := (run.waitersInOrder booted).2
  have hdeals := (run.deals (List.forall_mem_nil _) (List.forall_mem_nil _)).1
  induction run with
  | start =>
    refine ⟨?_, .nil, List.forall_mem_nil _⟩
    simp only [Kernel.waitersOf]
    rw [booted.fresh.events]
    exact List.nil_sublist _
  | @step history s s' seg run next ih =>
    rw [List.forall_mem_cons] at horder hdeals
    obtain ⟨hbefore, hafter⟩ := next.kernels
    have h := ih horder.2 hdeals.2
    rw [← hbefore] at h
    rw [← hafter]
    exact h.step hdeals.1 horder.1.1

/-! ## The statement about runs -/

namespace Kernel

variable {k : Kernel G} {e : EventId} {w : WaitId} {later : List (Segment G)}

theorem lt_length_of_mem_waitersOf (h : w ∈ k.waitersOf e) : e < k.events.length := by
  refine Nat.lt_of_not_le fun hge => ?_
  simp only [waitersOf] at h
  rw [List.getElem?_eq_none hge] at h
  cases h

/-- The mark of an entry tells if it was handed a wakeup. -/
theorem Fate.handed_iff (h : k.Fate e w later) : k.Handed w ↔ k.isSignaled w = true := by
  refine ⟨Handed.marked, fun hs => ?_⟩
  cases h with
  | queued hq =>
    rw [hq.unmarked] at hs
    cases hs
  | handed hh => exact hh
  | spent hs' =>
    rw [hs'.unmarked] at hs
    cases hs

/-- The second half of a wait tells if the entry was handed a wakeup, and the entry is spent. -/
theorem Fate.completeWait (h : k.Fate e w later) (horder : k.WaitersInOrder)
    (he : e < k.events.length) :
    (Effect.completeWait e w k).1.Spent w ∧
      ((Effect.completeWait e w k).2 = .ok () ∧ k.Handed w ∨
        (Effect.completeWait e w k).2 = .error .timeout ∧ ¬ k.Handed w) := by
  obtain ⟨hwaits, hqueue, -, hothers, -⟩ := Effect.tables_completeWait k w he
  refine ⟨⟨fun e' => ?_, ?_⟩, ?_⟩
  · by_cases he' : e = e'
    · subst he'
      rw [hqueue]
      exact (horder.nodup e).not_mem_erase
    · rw [(hothers e' he').waiters]
      cases h with
      | queued hq => exact hq.elsewhere e' he'
      | handed hh => exact hh.gone e'
      | spent hs => exact hs.gone e'
  · rw [isSignaled_take hwaits, decide_eq_false (fun hne => hne rfl), Bool.false_and]
  · rw [h.handed_iff, Effect.completeWait_eq]
    cases k.isSignaled w with
    | true => exact .inl ⟨rfl, rfl⟩
    | false => exact .inr ⟨rfl, Bool.false_ne_true⟩

end Kernel

/-- **A wait entry has one outcome.** An entry is queued for an event, along a run from a boot, and
from then on it is completed by way of that event only. Until it is completed it stands once in the
queue of its event and has no mark, or it stands in no queue and was marked once, by a signal of the
event; once it is completed, it stands in no queue and is never marked again. Its completion, called
at any point and on any core, returns, and succeeds if the entry was handed a wakeup and fails with
a timeout otherwise. Queues never hold an entry twice, and hold entries in the order of the calls
that queued them. -/
theorem wait_entry_has_one_outcome {m : Machine G} {s₁ s : System G} {seg : Segment G}
    {past later : List (Segment G)} {e : EventId} {w : WaitId} {span : TimeSpan} (booted : m.Booted)
    (free : m.chip.held = []) (made : System.Runs ⟨m, []⟩ (seg :: past) s₁)
    (queued : seg.deed = .queues e w span) (run : System.Runs s₁ later s)
    (own : ∀ seg ∈ later, ∀ e', seg.deed = .completes e' w → e' = e) :
    s.machine.kernel.Fate e w later ∧
    (∀ seg ∈ later, seg.marks w = true → seg.deed = .signals e) ∧
    (∀ core, ∃ k answer,
      (Call.completeWait e w (s.machine.on core)).outcome? = some (k, answer) ∧ k.Spent w ∧
        (answer = .ok () ∧ s.machine.kernel.Handed w ∨
          answer = .error .timeout ∧ ¬ s.machine.kernel.Handed w)) ∧
    ∀ e', (s.machine.kernel.waitersOf e').Nodup ∧
      (entriesFor e' (later ++ seg :: past)).Nodup ∧
      (s.machine.kernel.waitersOf e').Sublist (entriesFor e' (later ++ seg :: past)) := by
  have hrun := made.trans run
  have hnone : ∀ task ∈ (⟨m, []⟩ : System G).tasks, task.Sound := List.forall_mem_nil _
  have hdeals := (hrun.deals hnone (List.forall_mem_nil _)).1
  obtain ⟨horder, hall⟩ := hrun.waitersInOrder booted
  have hlater (g : Segment G) (hg : g ∈ later) : g.Deals ∧ g.before.WaitersInOrder :=
    ⟨hdeals g (List.mem_append_left _ hg), (hall g (List.mem_append_left _ hg)).1⟩
  have hseg : seg ∈ later ++ seg :: past := List.mem_append_right _ List.mem_cons_self
  obtain ⟨hq, hw⟩ := (hdeals seg hseg).queued (hall seg hseg).1 queued
  rw [made.after_eq] at hq hw
  obtain ⟨hfate, hmarks, -⟩ := run.fate hq hw hlater own
  -- the event is there, as it was when the entry was queued
  have he : e < s.machine.kernel.events.length :=
    (run.keeps (I := fun k => e < k.events.length) (P := fun _ => True) (made.sound hnone).2
      (fun _ _ => trivial) (fun _ _ hseg he => Nat.lt_of_lt_of_le he hseg.isAutoReset.1)
      (Kernel.lt_length_of_mem_waitersOf hq.mem)).1
  refine ⟨hfate, hmarks, fun core => ?_, fun e' => ?_⟩
  · have hheld : s.machine.chip.held = [] := (hrun.unlocked (System.unlocked_start free)).held
    obtain ⟨hspent, hanswer⟩ := hfate.completeWait horder he
    exact ⟨_, _, Call.outcome?_completeWait e w (m := s.machine.on core) hheld, hspent, hanswer⟩
  · have hturn := hrun.queuedInTurn booted e'
    exact ⟨horder.nodup e', hturn.sorted.imp Nat.ne_of_lt, hturn.sublist⟩

/-- An entry is signalled and completed, and the event is signalled once more: the entry is spent,
and completing it again fails. -/
theorem completed_entry_is_spent : ∃ m past s later s',
    Machine.boot? {} {} = some m ∧
    System.play ⟨m, []⟩ (oneEvent ++ [(0, .enqueueWait 0 .infinite)]) = some (past, s) ∧
    s.play [(0, .signalEvent 0), (0, .completeWait 0 0), (0, .signalEvent 0)] = some (later, s') ∧
    s'.machine.kernel.Fate 0 0 later ∧
    ∃ k answer, (Call.completeWait 0 0 (s'.machine.on 0)).outcome? = some (k, answer) ∧
      k.Spent 0 ∧ answer = .error .timeout := by
  obtain ⟨m, past, s, later, s', hm, hfirst, hsecond, htest⟩ := System.exists_play {} {}
    (oneEvent ++ [(0, .enqueueWait 0 .infinite)])
    [(0, .signalEvent 0), (0, .completeWait 0 0), (0, .signalEvent 0)]
    (fun past _ later s' => decide (past.head?.map (·.deed) = some (.queues 0 0 .infinite)) &&
      (decide (later.map (·.deed) = [.signals 0, .completes 0 0, .signals 0]) &&
        !s'.machine.kernel.isSignaled 0)) (by decide +kernel)
  simp only [Bool.and_eq_true, decide_eq_true_eq, Bool.not_eq_true'] at htest
  obtain ⟨hmade, hdeeds, hunmarked⟩ := htest
  -- the latest segment of the first part is the one that queued the entry
  obtain ⟨seg, hhead, hqueued⟩ := Option.map_eq_some_iff.mp hmade
  obtain ⟨past, rfl⟩ := List.head?_eq_some_iff.mp hhead
  have hown (g : Segment ⟨Unit, Unit⟩) (hg : g ∈ later) (e' : EventId)
      (hdeed : g.deed = .completes e' 0) : e' = 0 := by
    have hmem : g.deed ∈ later.map (·.deed) := List.mem_map_of_mem hg
    rw [hdeeds, hdeed] at hmem
    simpa using hmem
  obtain ⟨hfate, -, houtcome, -⟩ := wait_entry_has_one_outcome (Machine.booted_of_boot? hm)
    (Machine.held_of_boot? hm) (System.runs_of_play hfirst) hqueued (System.runs_of_play hsecond)
    hown
  obtain ⟨k, answer, hcall, hspent, ⟨-, hhanded⟩ | ⟨hanswer, -⟩⟩ := houtcome 0
  · rw [hhanded.marked] at hunmarked
    cases hunmarked
  · exact ⟨m, _, s, later, s', hm, hfirst, hsecond, hfate, k, answer, hcall, hspent, hanswer⟩

end Nucleus
