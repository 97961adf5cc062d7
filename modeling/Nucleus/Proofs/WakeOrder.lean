import Mathlib.Data.List.Basic
import Nucleus.Proofs.Parking

/-!
# Wake order

Sleepers stand in their queue by wake tick, and sleepers of one wake tick in the order in which
they were queued. So the queue is a stable sort: `DelayedQueue.inWakeOrder` sorts sleepers by wake
tick, and insertion, removal and handing out who is due are what they are before sorting:

* `DelayedQueue.insert_inWakeOrder`: who is inserted comes last before sorting;
* `DelayedQueue.erase_inWakeOrder`, `DelayedQueue.filter_inWakeOrder`: who is removed or left out is
  removed or left out before sorting;
* `DelayedQueue.Ascending.due_eq_filter`, `DelayedQueue.Ascending.later_eq_filter`: in wake order,
  exactly those who are due are handed out.
-/

namespace Nucleus

namespace DelayedQueue

/-- The wake ticks do not go down. -/
def Ascending (q : DelayedQueue) : Prop := q.Pairwise fun a b => a.wake ≤ b.wake

/-- The sleepers of one wake tick, in their order. -/
def wakingAt (tick : Nat) (q : DelayedQueue) : DelayedQueue := q.filter fun s => s.wake = tick

/-- Sleepers sorted by wake tick; those of one wake tick stay in their order. -/
def inWakeOrder (l : List Sleeper) : DelayedQueue := l.mergeSort fun a b => a.wake ≤ b.wake

variable {q q' : DelayedQueue} {s : Sleeper} {tick : Nat}

theorem mem_wakingAt : s ∈ q.wakingAt tick ↔ s ∈ q ∧ s.wake = tick := by
  simp [wakingAt]

theorem Ascending.sublist (h : q.Ascending) (hsub : q'.Sublist q) : q'.Ascending :=
  List.Pairwise.sublist hsub h

theorem Ascending.filter (h : q.Ascending) (p : Sleeper → Bool) : Ascending (q.filter p) :=
  h.sublist List.filter_sublist

/-- Nobody wakes before the first. -/
theorem Ascending.wake_le_of_mem {x y : Sleeper} (h : Ascending (x :: q)) (hy : y ∈ x :: q) :
    x.wake ≤ y.wake := by
  rcases List.mem_cons.mp hy with rfl | hy
  · exact Nat.le_refl _
  · exact List.rel_of_pairwise_cons h hy

/-- The first of an ascending queue wakes no later than the first of another, if it has every
sleeper of the other. -/
theorem Ascending.head_wake_le {a b : Sleeper} (h' : Ascending (b :: q'))
    (hsame : ∀ tick, wakingAt tick (a :: q) = wakingAt tick (b :: q')) : b.wake ≤ a.wake := by
  have ha : a ∈ wakingAt a.wake (b :: q') := by
    rw [← hsame]
    exact mem_wakingAt.mpr ⟨List.mem_cons_self, rfl⟩
  exact h'.wake_le_of_mem (mem_wakingAt.mp ha).1

/-- **Ascending queues are equal** if they have the same sleepers of each wake tick, in the same
order. -/
theorem Ascending.eq_of_wakingAt (h : q.Ascending) (h' : q'.Ascending)
    (hsame : ∀ tick, q.wakingAt tick = q'.wakingAt tick) : q = q' := by
  induction q generalizing q' with
  | nil =>
    cases q' with
    | nil => rfl
    | cons b q' =>
      have := hsame b.wake
      simp [wakingAt] at this
  | cons a q ih =>
    cases q' with
    | nil =>
      have := hsame a.wake
      simp [wakingAt] at this
    | cons b q' =>
      have hwake : a.wake = b.wake :=
        Nat.le_antisymm (h.head_wake_le fun tick => (hsame tick).symm) (h'.head_wake_le hsame)
      have hhead : a = b := by
        have := hsame a.wake
        simp only [wakingAt, List.filter_cons, decide_true, if_true] at this
        rw [if_pos (decide_eq_true hwake.symm)] at this
        exact (List.cons.inj this).1
      subst hhead
      refine congrArg (a :: ·) (ih h.of_cons h'.of_cons fun tick => ?_)
      have := hsame tick
      simp only [wakingAt, List.filter_cons] at this
      split at this
      · exact (List.cons.inj this).2
      · exact this

theorem wake_le_trans (a b c : Sleeper) (hab : decide (a.wake ≤ b.wake) = true)
    (hbc : decide (b.wake ≤ c.wake) = true) : decide (a.wake ≤ c.wake) = true := by
  rw [decide_eq_true_eq] at hab hbc ⊢
  exact Nat.le_trans hab hbc

theorem wake_le_total (a b : Sleeper) :
    (decide (a.wake ≤ b.wake) || decide (b.wake ≤ a.wake)) = true := by
  rw [Bool.or_eq_true, decide_eq_true_eq, decide_eq_true_eq]
  exact Nat.le_total a.wake b.wake

theorem ascending_inWakeOrder (l : List Sleeper) : (inWakeOrder l).Ascending :=
  (List.pairwise_mergeSort wake_le_trans wake_le_total l).imp of_decide_eq_true

theorem mem_inWakeOrder {l : List Sleeper} : s ∈ inWakeOrder l ↔ s ∈ l := List.mem_mergeSort

/-- Sorting is stable: who wakes at one tick stays in the old order. -/
theorem wakingAt_inWakeOrder (tick : Nat) (l : List Sleeper) :
    (inWakeOrder l).wakingAt tick = wakingAt tick l := by
  have hperm : (inWakeOrder l).Perm l := List.mergeSort_perm l _
  have hsub : (wakingAt tick l).Sublist (inWakeOrder l) := by
    refine List.sublist_mergeSort wake_le_trans wake_le_total ?_ List.filter_sublist
    refine List.pairwise_of_forall_mem_list fun a ha b hb => decide_eq_true (Nat.le_of_eq ?_)
    rw [(mem_wakingAt.mp ha).2, (mem_wakingAt.mp hb).2]
  have hfilter := hsub.filter fun s => s.wake = tick
  simp only [wakingAt, List.filter_filter, Bool.and_self] at hfilter
  exact (hfilter.eq_of_length (hperm.filter _).length_eq.symm).symm

/-- Selection may as well come before sorting. -/
theorem filter_inWakeOrder (p : Sleeper → Bool) (l : List Sleeper) :
    (inWakeOrder l).filter p = inWakeOrder (l.filter p) := by
  refine Ascending.eq_of_wakingAt ((ascending_inWakeOrder l).filter p) (ascending_inWakeOrder _)
    fun tick => ?_
  have hsort := wakingAt_inWakeOrder tick l
  rw [wakingAt_inWakeOrder]
  simp only [wakingAt] at hsort ⊢
  rw [List.filter_comm, hsort, List.filter_comm]

/-- And so may removal. -/
theorem erase_inWakeOrder (s : Sleeper) (l : List Sleeper) :
    (inWakeOrder l).erase s = inWakeOrder (l.erase s) := by
  refine Ascending.eq_of_wakingAt ((ascending_inWakeOrder l).sublist List.erase_sublist)
    (ascending_inWakeOrder _) fun tick => ?_
  have hsort := wakingAt_inWakeOrder tick l
  rw [wakingAt_inWakeOrder]
  simp only [wakingAt] at hsort ⊢
  rw [← List.erase_filter, ← List.erase_filter, hsort]

/-- Taking out the first sleeper with `p` is taking out that sleeper. -/
theorem eraseP_eq_erase_of_find? {p : Sleeper → Bool} (h : q.find? p = some s) :
    q.eraseP p = q.erase s := by
  obtain ⟨hs, before, after, rfl, hbefore⟩ := List.find?_eq_some_iff_append.mp h
  have hnot : ∀ x ∈ before, ¬ p x = true := by
    intro x hx hpx
    have := hbefore x hx
    rw [hpx] at this
    cases this
  have hmem : s ∉ before := fun h => hnot s h hs
  rw [List.eraseP_append_right _ hnot, List.eraseP_cons, hs, cond_true,
    List.erase_append_right _ hmem, List.erase_cons_head]

/-- Taking out a thread is taking out one of its sleepers. -/
theorem exists_remove_eq_erase (t : ThreadId) (q : DelayedQueue) :
    ∃ s : Sleeper, q.remove t = q.erase s := by
  cases hf : q.find? fun s => s.thread == t with
  | none =>
    rw [List.find?_eq_none] at hf
    refine ⟨⟨t, 0⟩, ?_⟩
    rw [remove, List.eraseP_of_forall_not hf, List.erase_of_not_mem]
    intro hmem
    exact hf _ hmem (beq_self_eq_true t)
  | some s => exact ⟨s, eraseP_eq_erase_of_find? hf⟩

/-! ## Insertion -/

theorem Ascending.insert (h : q.Ascending) (s : Sleeper) : (q.insert s).Ascending := by
  induction q with
  | nil => exact List.pairwise_singleton _ s
  | cons x q ih =>
    simp only [DelayedQueue.insert]
    split
    next hlt =>
      exact List.Pairwise.cons (fun y hy => Nat.le_trans (Nat.le_of_lt hlt) (h.wake_le_of_mem hy)) h
    next hle =>
      refine List.Pairwise.cons (fun y hy => ?_) (ih h.of_cons)
      rcases mem_insert.mp hy with rfl | hy
      · exact Nat.not_lt.mp hle
      · exact List.rel_of_pairwise_cons h hy

/-- Who is inserted stands behind the others of the same wake tick. -/
theorem Ascending.wakingAt_insert (h : q.Ascending) (s : Sleeper) (tick : Nat) :
    (q.insert s).wakingAt tick = wakingAt tick (q ++ [s]) := by
  induction q with
  | nil => rfl
  | cons x q ih =>
    simp only [DelayedQueue.insert]
    split
    next hlt =>
      -- everybody in the queue wakes later than `s`
      by_cases hs : s.wake = tick
      · have hlater : ∀ y ∈ x :: q, ¬ decide (y.wake = tick) = true := by
          intro y hy hyt
          have hyt := of_decide_eq_true hyt
          have hxy := h.wake_le_of_mem hy
          omega
        have hnone : (x :: q).filter (fun s => decide (s.wake = tick)) = [] :=
          List.filter_eq_nil_iff.mpr hlater
        simp only [wakingAt]
        rw [List.filter_append, List.filter_cons, hnone]
        simp [hs]
      · simp [wakingAt, List.filter_append, List.filter_cons, hs]
    next =>
      simp only [wakingAt] at ih
      simp only [wakingAt, List.cons_append, List.filter_cons, ih h.of_cons]

/-- **Insertion is sorting with one more sleeper**, who comes last. -/
theorem insert_inWakeOrder (s : Sleeper) (l : List Sleeper) :
    (inWakeOrder l).insert s = inWakeOrder (l ++ [s]) := by
  refine Ascending.eq_of_wakingAt ((ascending_inWakeOrder l).insert s) (ascending_inWakeOrder _)
    fun tick => ?_
  have hsort := wakingAt_inWakeOrder tick l
  rw [(ascending_inWakeOrder l).wakingAt_insert, wakingAt_inWakeOrder]
  simp only [wakingAt] at hsort ⊢
  rw [List.filter_append, List.filter_append, hsort]

/-! ## Handing out the due sleepers -/

/-- Who is due stands at the front of an ascending queue, so everybody who is due is handed out. -/
theorem Ascending.due_eq_filter (h : q.Ascending) (tick : Nat) :
    q.due tick = q.filter fun s => s.wake ≤ tick := by
  induction q with
  | nil => rfl
  | cons x q ih =>
    simp only [due] at ih ⊢
    by_cases hx : x.wake ≤ tick
    · simp [hx, ih h.of_cons]
    · rw [List.takeWhile_cons_of_neg (by simpa using hx), eq_comm, List.filter_eq_nil_iff]
      intro y hy hyt
      have hxy := h.wake_le_of_mem hy
      exact hx (Nat.le_trans hxy (of_decide_eq_true hyt))

/-- And those who are not due are left. -/
theorem Ascending.later_eq_filter (h : q.Ascending) (tick : Nat) :
    q.later tick = q.filter fun s => tick < s.wake := by
  induction q with
  | nil => rfl
  | cons x q ih =>
    simp only [later] at ih ⊢
    by_cases hx : x.wake ≤ tick
    · simp [hx, ih h.of_cons]
    · rw [List.dropWhile_cons_of_neg (by simpa using hx), eq_comm, List.filter_eq_self]
      intro y hy
      have hxy := h.wake_le_of_mem hy
      exact decide_eq_true (Nat.lt_of_lt_of_le (Nat.not_le.mp hx) hxy)

end DelayedQueue

end Nucleus
