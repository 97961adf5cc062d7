import Nucleus.Proofs.WakeOrder
import Nucleus.Scenario.Queues

/-!
# The delayed queue as a stable priority queue

Whoever is queued joins a line and stands in it until taken out, so a line has its sleepers in the
order in which they were queued. Whatever is done to a delayed queue, it is the line in wake order.

* `FirstOf` says who comes first among some of a line: the least wake tick, then the oldest.
* `Serves` says what an operation does to the line and what it answers, with no word of the queue.
* `DelayedQueue.exists_firstOf`: whom a search from the front of the queue finds comes first in the
  line, and to take them out of the queue is to take them out of the line.
* `sleepOp_serves` is about one operation on the queue, `sleepScript_serves` about a script, and
  `delayed_queue_sorts_stably` puts together what holds at every point of a script.
-/

namespace Nucleus

open Scenario

/-! ## The line -/

/-- Among the sleepers of a line with `p`, the one at `place` comes first: none of them wakes
earlier, and none of those who wake at the same tick stands before it. -/
structure FirstOf (p : Sleeper → Bool) (sleepers : List Sleeper) (place : Nat) (s : Sleeper) :
    Prop where
  /-- it stands there -/
  stands : sleepers[place]? = some s
  /-- it is one of them -/
  chosen : p s = true
  /-- it has the least wake tick -/
  least : ∀ x ∈ sleepers, p x = true → s.wake ≤ x.wake
  /-- of that wake tick it is the oldest -/
  oldest : ∀ (i : Nat) (x : Sleeper), sleepers[i]? = some x → p x = true → x.wake = s.wake →
    place ≤ i

/-- The thread that an operation names. -/
def Scenario.SleepOp.thread? : SleepOp → Option ThreadId
  | .insert t _ | .remove t | .wakeTickOf t => some t
  | .popDue _ | .malformed _ => none

/-- What an operation does to a line of `n` threads, and what it answers. -/
inductive Serves (n : Nat) (line : List Sleeper) :
    SleepOp → SleepReply → List Sleeper → Prop where
  /-- a thread joins the line at its end -/
  | insert {t : ThreadId} {wake : Nat} (known : t < n) :
    Serves n line (.insert t wake) .unit (line ++ [⟨t, wake⟩])
  /-- the first of all is due, and leaves -/
  | popDue {tick place : Nat} {s : Sleeper} (first : FirstOf (fun _ => true) line place s)
    (due : s.wake ≤ tick) : Serves n line (.popDue tick) (.sleeper s) (line.eraseIdx place)
  /-- nobody is due -/
  | nobodyDue {tick : Nat} (early : ∀ s ∈ line, tick < s.wake) :
    Serves n line (.popDue tick) .unit line
  /-- the first of the thread's sleepers leaves -/
  | remove {t : ThreadId} {place : Nat} {s : Sleeper} (known : t < n)
    (first : FirstOf (·.thread == t) line place s) :
    Serves n line (.remove t) (.truth true) (line.eraseIdx place)
  /-- there is nobody to take out -/
  | removeNobody {t : ThreadId} (known : t < n) (absent : ∀ s ∈ line, s.thread ≠ t) :
    Serves n line (.remove t) (.truth false) line
  /-- the wake tick is that of the first of the thread's sleepers -/
  | wakeTickOf {t : ThreadId} {place : Nat} {s : Sleeper} (known : t < n)
    (first : FirstOf (·.thread == t) line place s) :
    Serves n line (.wakeTickOf t) (.tick s.wake) line
  /-- there is nobody to look up -/
  | wakeTickOfNobody {t : ThreadId} (known : t < n) (absent : ∀ s ∈ line, s.thread ≠ t) :
    Serves n line (.wakeTickOf t) .unit line
  /-- there is no such thread -/
  | unknown {op : SleepOp} {t : ThreadId} (names : op.thread? = some t) (unknown : n ≤ t) :
    Serves n line op (.skipped .noThread) line
  /-- it is not an operation -/
  | malformed {why : Skip} : Serves n line (.malformed why) (.skipped why) line

section Answers

variable {n tick : Nat} {t : ThreadId} {line line' : List Sleeper} {reply : SleepReply}

/-- Nothing is popped if and only if nobody in the line is due. -/
theorem Serves.popDue_unit_iff (h : Serves n line (.popDue tick) reply line') :
    reply = .unit ↔ ∀ s ∈ line, tick < s.wake := by
  cases h with
  | popDue first due =>
    refine iff_of_false nofun fun early => ?_
    exact Nat.not_lt.mpr due (early _ (List.mem_of_getElem? first.stands))
  | nobodyDue early => exact iff_of_true rfl early
  | unknown names => cases names

/-- A thread is taken out if and only if it stands in the line. -/
theorem Serves.remove_true_iff (h : Serves n line (.remove t) reply line') (known : t < n) :
    reply = .truth true ↔ ∃ s ∈ line, s.thread = t := by
  cases h with
  | remove _ first =>
    exact iff_of_true rfl ⟨_, List.mem_of_getElem? first.stands, beq_iff_eq.mp first.chosen⟩
  | removeNobody _ absent =>
    refine iff_of_false nofun ?_
    rintro ⟨s, hs, hst⟩
    exact absent s hs hst
  | unknown names unknown =>
    obtain rfl := Option.some.inj names
    exact absurd known (Nat.not_lt.mpr unknown)

end Answers

/-! ## The queue -/

namespace DelayedQueue

variable {q rest : DelayedQueue} {line : List Sleeper} {s : Sleeper} {tick : Nat}

/-- Whom a search from the front finds wakes no later than anybody else it could have found. -/
theorem Ascending.wake_le_of_find? {p : Sleeper → Bool} (h : q.Ascending) (hs : q.find? p = some s)
    {x : Sleeper} (hx : x ∈ q) (hpx : p x = true) : s.wake ≤ x.wake := by
  obtain ⟨-, before, after, rfl, hbefore⟩ := List.find?_eq_some_iff_append.mp hs
  have hbehind : x ∈ s :: after := by
    rcases List.mem_append.mp hx with hx | hx
    · have := hbefore x hx
      rw [hpx] at this
      cases this
    · exact hx
  exact Ascending.wake_le_of_mem (h.sublist (List.sublist_append_right _ _)) hbehind

/-- Whom a search finds in wake order, it finds in the line too, if it passes over all other wake
ticks: sorting is stable. -/
theorem find?_of_find?_inWakeOrder {p : Sleeper → Bool}
    (h : (inWakeOrder line).find? p = some s) :
    line.find? (fun x => x.wake = s.wake ∧ p x = true) = some s := by
  obtain ⟨hs, before, after, hq, hbefore⟩ := List.find?_eq_some_iff_append.mp h
  have hsame : (wakingAt s.wake (inWakeOrder line)).find? p = some s := by
    rw [wakingAt, List.find?_filter]
    refine List.find?_eq_some_iff_append.mpr ⟨by simpa using hs, before, after, hq, fun x hx => ?_⟩
    simp [(Bool.not_eq_true' _).mp (hbefore x hx)]
  rw [wakingAt_inWakeOrder, wakingAt, List.find?_filter] at hsame
  simpa only [decide_eq_true_eq] using hsame

/-- **Whom a search from the front of the queue finds** comes first in the line, and to take them
out of the queue is to take them out of the line. -/
theorem exists_firstOf {p : Sleeper → Bool} (h : (inWakeOrder line).find? p = some s) :
    ∃ place, FirstOf p line place s ∧
      (inWakeOrder line).eraseP p = inWakeOrder (line.eraseIdx place) := by
  have hline := find?_of_find?_inWakeOrder h
  obtain ⟨hs, place, hlt, hget, hbefore⟩ := List.find?_eq_some_iff_getElem.mp hline
  refine ⟨place, ⟨?_, ?_, ?_, ?_⟩, ?_⟩
  · exact List.getElem?_eq_some_iff.mpr ⟨hlt, hget⟩
  · exact List.find?_some h
  · intro x hx hpx
    exact (ascending_inWakeOrder line).wake_le_of_find? h (mem_inWakeOrder.mpr hx) hpx
  · intro i x hx hpx hwake
    obtain ⟨hi, rfl⟩ := List.getElem?_eq_some_iff.mp hx
    refine Nat.not_lt.mp fun hbetter => ?_
    have := hbefore i hbetter
    simp [hpx, hwake] at this
  · have hplace : line.findIdx? (fun x => x.wake = s.wake ∧ p x = true) = some place := by
      refine List.findIdx?_eq_some_iff_getElem.mpr ⟨hlt, by rwa [hget], fun i hi => ?_⟩
      rw [(Bool.not_eq_true' _).mp (hbefore i hi)]
      exact Bool.false_ne_true
    rw [eraseP_eq_erase_of_find? h, erase_inWakeOrder, ← eraseP_eq_erase_of_find? hline,
      List.eraseP_eq_eraseIdx, hplace]

/-- Who is popped stood at the head, and was due. -/
theorem eq_cons_of_popDue (h : q.popDue tick = some (s, rest)) :
    q = s :: rest ∧ s.wake ≤ tick := by
  cases q with
  | nil => cases h
  | cons x q =>
    simp only [popDue] at h
    split at h
    next due =>
      obtain ⟨rfl, rfl⟩ := Prod.mk.inj (Option.some.inj h)
      exact ⟨rfl, due⟩
    next => cases h

/-- Nothing is popped of a queue in wake order only if nobody in it is due. -/
theorem Ascending.lt_wake_of_popDue (h : q.Ascending) (hnone : q.popDue tick = none) :
    ∀ s ∈ q, tick < s.wake := by
  intro s hs
  have hdue := (due_eq_nil_of_popDue hnone).1
  rw [h.due_eq_filter, List.filter_eq_nil_iff] at hdue
  simpa using hdue s hs

/-- **Popping**: nobody in the line is due and nothing is popped, or the first of the line is due
and leaves. -/
theorem popDue_inWakeOrder_cases (tick : Nat) (line : List Sleeper) :
    ((∀ s ∈ line, tick < s.wake) ∧ (inWakeOrder line).popDue tick = none) ∨
    ∃ place s, FirstOf (fun _ => true) line place s ∧ s.wake ≤ tick ∧
      (inWakeOrder line).popDue tick = some (s, inWakeOrder (line.eraseIdx place)) := by
  cases hpop : (inWakeOrder line).popDue tick with
  | none =>
    have early := (ascending_inWakeOrder line).lt_wake_of_popDue hpop
    exact .inl ⟨fun s hs => early s (mem_inWakeOrder.mpr hs), rfl⟩
  | some popped =>
    obtain ⟨s, rest⟩ := popped
    obtain ⟨hq, due⟩ := eq_cons_of_popDue hpop
    -- the head is whom a search for anybody at all finds
    have hhead : (inWakeOrder line).find? (fun _ => true) = some s := by
      rw [hq]
      rfl
    obtain ⟨place, first, hrest⟩ := exists_firstOf hhead
    rw [hq, List.eraseP_cons_of_pos rfl] at hrest
    exact .inr ⟨place, s, first, due, by rw [hrest]⟩

/-- **Taking out and looking up a thread**: it does not stand in the line and nothing is found, or
both are about the first of its sleepers. -/
theorem remove_inWakeOrder_cases (t : ThreadId) (line : List Sleeper) :
    ((∀ s ∈ line, s.thread ≠ t) ∧ (inWakeOrder line).contains t = false ∧
      (inWakeOrder line).remove t = inWakeOrder line ∧ (inWakeOrder line).wakeTickOf t = none) ∨
    ∃ place s, FirstOf (·.thread == t) line place s ∧ (inWakeOrder line).contains t = true ∧
      (inWakeOrder line).remove t = inWakeOrder (line.eraseIdx place) ∧
      (inWakeOrder line).wakeTickOf t = some s.wake := by
  simp only [contains, remove, wakeTickOf, ← List.isSome_find?]
  cases hfind : (inWakeOrder line).find? fun s => s.thread == t with
  | none =>
    rw [List.find?_eq_none] at hfind
    refine .inl ⟨fun s hs hst => ?_, rfl, List.eraseP_of_forall_not hfind, rfl⟩
    exact hfind s (mem_inWakeOrder.mpr hs) (beq_iff_eq.mpr hst)
  | some s =>
    obtain ⟨place, first, hrest⟩ := exists_firstOf hfind
    exact .inr ⟨place, s, first, rfl, hrest, rfl⟩

end DelayedQueue

/-! ## Scripts -/

open DelayedQueue

theorem sleepOp_of_unknown {n : Nat} {q : DelayedQueue} {op : SleepOp} {t : ThreadId}
    (names : op.thread? = some t) (unknown : n ≤ t) :
    sleepOp n q op = (q, .skipped .noThread) := by
  cases op with
  | insert | remove | wakeTickOf =>
    obtain rfl := Option.some.inj names
    simp only [sleepOp, Nat.not_lt.mpr unknown, if_false]
  | popDue | malformed => cases names

/-- **One operation** on a queue that is the line in wake order serves the line. -/
theorem sleepOp_serves (n : Nat) (line : List Sleeper) (op : SleepOp) :
    ∃ reply line', sleepOp n (inWakeOrder line) op = (inWakeOrder line', reply) ∧
      Serves n line op reply line' := by
  by_cases unknown : ∃ t, op.thread? = some t ∧ n ≤ t
  · obtain ⟨t, names, unknown⟩ := unknown
    exact ⟨_, _, sleepOp_of_unknown names unknown, .unknown names unknown⟩
  cases op with
  | insert t wake =>
    have known : t < n := Nat.not_le.mp fun h => unknown ⟨t, rfl, h⟩
    refine ⟨_, _, ?_, .insert known⟩
    rw [sleepOp, if_pos known, insert_inWakeOrder]
  | popDue tick =>
    rcases popDue_inWakeOrder_cases tick line with ⟨early, hpop⟩ | ⟨place, s, first, due, hpop⟩
    · refine ⟨_, _, ?_, .nobodyDue early⟩
      rw [sleepOp, hpop]
    · refine ⟨_, _, ?_, .popDue first due⟩
      rw [sleepOp, hpop]
  | remove t =>
    have known : t < n := Nat.not_le.mp fun h => unknown ⟨t, rfl, h⟩
    rcases remove_inWakeOrder_cases t line with
      ⟨absent, hqueued, hremove, -⟩ | ⟨place, s, first, hqueued, hremove, -⟩
    · refine ⟨_, _, ?_, .removeNobody known absent⟩
      rw [sleepOp, if_pos known, hqueued, hremove]
    · refine ⟨_, _, ?_, .remove known first⟩
      rw [sleepOp, if_pos known, hqueued, hremove]
  | wakeTickOf t =>
    have known : t < n := Nat.not_le.mp fun h => unknown ⟨t, rfl, h⟩
    rcases remove_inWakeOrder_cases t line with
      ⟨absent, -, -, hwake⟩ | ⟨place, s, first, -, -, hwake⟩
    · refine ⟨_, _, ?_, .wakeTickOfNobody known absent⟩
      rw [sleepOp, if_pos known, hwake]
    · refine ⟨_, _, ?_, .wakeTickOf known first⟩
      rw [sleepOp, if_pos known, hwake]
  | malformed why => exact ⟨_, _, rfl, .malformed⟩

/-- **A script** on a queue that is the line in wake order: each operation serves the line that the
operations before have left. -/
theorem sleepScript_serves (n : Nat) (start : List Sleeper) (ops : List SleepOp) :
    ∃ line : Nat → List Sleeper, line 0 = start ∧
      ∀ (i : Nat) (op : SleepOp), ops[i]? = some op → ∃ reply,
        (sleepScript n (inWakeOrder start) ops)[i]? = some (reply, inWakeOrder (line (i + 1))) ∧
        Serves n (line i) op reply (line (i + 1)) := by
  induction ops generalizing start with
  | nil => exact ⟨fun _ => start, rfl, nofun⟩
  | cons op ops ih =>
    obtain ⟨reply, next, hop, hserves⟩ := sleepOp_serves n start op
    obtain ⟨line, hnext, hline⟩ := ih next
    refine ⟨fun i => Nat.casesOn i start line, rfl, fun i op' hop' => ?_⟩
    simp only [sleepScript, hop]
    cases i with
    | zero =>
      obtain rfl := Option.some.inj hop'
      subst hnext
      exact ⟨reply, rfl, hserves⟩
    | succ i => exact hline i op' hop'

/-- **The delayed queue is a stable priority queue.** Take any script on an empty queue, with any
threads, wake ticks and due ticks. At every point of it there is a line: who was queued and not
taken out since, in the order of queueing. After each operation the queue is the line sorted by
wake tick, where those of one wake tick stay in their order; and each operation does to the line and
answers what `Serves` says. So nothing is popped if and only if nobody queued is due, and otherwise
the first of the line is popped; a thread is taken out if and only if it is queued, and then only
the first of its sleepers; and the wake tick of a thread is that of the same sleeper. -/
theorem delayed_queue_sorts_stably (n : Nat) (ops : List SleepOp) :
    ∃ line : Nat → List Sleeper, line 0 = [] ∧
      ∀ (i : Nat) (op : SleepOp), ops[i]? = some op → ∃ reply,
        (sleepScript n [] ops)[i]? = some (reply, inWakeOrder (line (i + 1))) ∧
        Serves n (line i) op reply (line (i + 1)) ∧
        (∀ tick, op = .popDue tick → (reply = .unit ↔ ∀ s ∈ line i, tick < s.wake)) ∧
        ∀ t, op = .remove t → t < n → (reply = .truth true ↔ ∃ s ∈ line i, s.thread = t) := by
  obtain ⟨line, hstart, hline⟩ := sleepScript_serves n [] ops
  refine ⟨line, hstart, fun i op hop => ?_⟩
  obtain ⟨reply, hreport, hserves⟩ := hline i op hop
  rw [inWakeOrder, List.mergeSort_nil] at hreport
  refine ⟨reply, hreport, hserves, ?_, ?_⟩
  · rintro tick rfl
    exact hserves.popDue_unit_iff
  · rintro t rfl known
    exact hserves.remove_true_iff known

-- thread 0 is queued twice, both times for the wake tick of thread 1
example : ((sleepScript 3 [] [.insert 0 5, .insert 1 5, .insert 0 5, .insert 2 1, .popDue 0,
    .popDue 7, .remove 0]).map fun report => report.2.threads) =
    [[0], [0, 1], [0, 1, 0], [2, 0, 1, 0], [2, 0, 1, 0], [0, 1, 0], [1, 0]] := by
  decide

end Nucleus
