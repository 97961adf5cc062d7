import Nucleus.Proofs.System

/-!
# Where a thread stands

A thread is *placed* if the queues agree with its owner and its state: it stands once in the queue
of its owner that goes with its state, and nowhere else. A thread that is terminated and placed is
*buried*: nobody owns it and it is in no queue.

Every elementary change keeps a thread placed, whatever becomes of the other threads. The only
thing that does not is putting it aside when it is not runnable: the running slot goes on naming a
thread that fell asleep or was killed, and putting it aside once more queues it a second time.

* `Kernel.Carries` relates states between which a thread stays placed and, once terminated, stays
  so; `Change.carries` says that every change does so.
* `Segment.Sound.carries` says it of the segments of operations that do not put the thread aside
  unless it is runnable.
-/

namespace Nucleus

variable {G : Guest}

/-- Ready or running: in the rotation, if some core owns the thread. -/
def ThreadState.IsRunnable (s : ThreadState) : Prop := s = .ready ∨ s = .running

theorem ThreadState.IsRunnable.queue? {s : ThreadState} (h : s.IsRunnable) :
    s.queue? = some .ready := by
  rcases h with rfl | rfl <;> rfl

theorem ThreadState.IsRunnable.ne_terminated {s : ThreadState} (h : s.IsRunnable) :
    s ≠ .terminated := by
  rcases h with rfl | rfl <;> nofun

theorem ThreadState.queue?_eq_ready_iff {s : ThreadState} :
    s.queue? = some .ready ↔ s.IsRunnable := by
  refine ⟨fun h => ?_, IsRunnable.queue?⟩
  rcases s with _ | _ | (_ | _) | _
  · exact .inl rfl
  · exact .inr rfl
  all_goals cases h

namespace Kernel

/-- The queues agree with the owner and the state of a thread. -/
structure Placed (k : Kernel G) (t : ThreadId) : Prop where
  /-- it stands once in the queue of its owner that goes with its state, and nowhere else -/
  occurs : ∀ c i, k.count c i t =
    if k.ownerOf t = some c ∧ (k.stateOf t).queue? = some i then 1 else 0
  /-- a thread without an owner was never started or has ended -/
  unowned : k.ownerOf t = none → k.stateOf t = .ready ∨ k.stateOf t = .terminated
  /-- a thread with an owner has not ended -/
  owned : ∀ c, k.ownerOf t = some c → k.stateOf t ≠ .terminated
  /-- where it is switched in, it is owned or has ended -/
  slot : ∀ c, (k.queues c).running = some t →
    k.ownerOf t = some c ∨ k.stateOf t = .terminated ∧ t < k.threads.length

/-- Ended for good: nobody owns the thread, and it stands in no queue. -/
structure Buried (k : Kernel G) (t : ThreadId) : Prop where
  /-- it is terminated -/
  state : k.stateOf t = .terminated
  /-- nobody owns it -/
  owner : k.ownerOf t = none
  /-- it is in no queue -/
  queues : ∀ c i, t ∉ (k.queues c).threads i

variable {k k' k'' : Kernel G} {t u : ThreadId} {c : CoreId}

namespace Placed

/-- A thread that stands in a queue of a core is owned by it, in the state of that queue. -/
theorem of_mem (h : k.Placed t) {i : Queue} (hm : t ∈ (k.queues c).threads i) :
    k.ownerOf t = some c ∧ (k.stateOf t).queue? = some i := by
  have hpos : 0 < k.count c i t := k.count_pos_iff.mpr hm
  rw [h.occurs] at hpos
  split at hpos
  · assumption
  · cases hpos

/-- A placed thread that runs has an owner. -/
theorem exists_owner (h : k.Placed t) (hs : k.stateOf t = .running) :
    ∃ c, k.ownerOf t = some c := by
  cases ho : k.ownerOf t with
  | none => rcases h.unowned ho with he | he <;> rw [hs] at he <;> cases he
  | some c => exact ⟨c, rfl⟩

theorem count_le_one (h : k.Placed t) (c : CoreId) (i : Queue) : k.count c i t ≤ 1 := by
  rw [h.occurs]
  split
  · exact Nat.le_refl 1
  · exact Nat.zero_le 1

/-- It stands in the queue of its owner that goes with its state. -/
theorem mem_iff (h : k.Placed t) (ho : k.ownerOf t = some c) (i : Queue) :
    t ∈ (k.queues c).threads i ↔ (k.stateOf t).queue? = some i := by
  refine ⟨fun hm => (h.of_mem hm).2, fun hi => k.count_pos_iff.mp ?_⟩
  rw [h.occurs, if_pos ⟨ho, hi⟩]
  exact Nat.one_pos

/-- It stands once with its owner, and nowhere else. -/
theorem sum_count (h : k.Placed t) (c : CoreId) :
    k.count c .ready t + k.count c .delayed t + k.count c .suspended t =
      if k.ownerOf t = some c then 1 else 0 := by
  rw [h.occurs, h.occurs, h.occurs]
  by_cases ho : k.ownerOf t = some c
  · have hs := h.owned c ho
    simp only [ho, true_and, if_true]
    rcases hstate : k.stateOf t with _ | _ | (_ | _) | _
    all_goals first | rfl | exact absurd hstate hs
  · simp only [ho, false_and, if_false]

/-- A placed thread stands nowhere but with its owner. -/
theorem count_eq_zero (h : k.Placed t) (ho : k.ownerOf t = some c) {d : CoreId} (hd : c ≠ d)
    (i : Queue) : k.count d i t = 0 := by
  rw [h.occurs, ho]
  exact if_neg fun hc => hd (Option.some.inj hc.1)

theorem buried (h : k.Placed t) (hs : k.stateOf t = .terminated) : k.Buried t where
  state := hs
  owner := by
    cases ho : k.ownerOf t with
    | none => rfl
    | some c => exact absurd hs (h.owned c ho)
  queues c i hm := by
    have := (h.of_mem hm).2
    rw [hs] at this
    cases this

end Placed

theorem Buried.placed (h : k.Buried t) (ht : t < k.threads.length) : k.Placed t where
  occurs c i := by
    rw [if_neg fun hc => by rw [h.owner] at hc; cases hc.1]
    exact List.count_eq_zero.mpr (h.queues c i)
  unowned _ := .inr h.state
  owned c ho := by
    rw [h.owner] at ho
    cases ho
  slot c _ := .inr ⟨h.state, ht⟩

/-- From one state to the other the thread stays placed, it loses its owner only by ending, and if
it was terminated it still is, with no core having switched to it. -/
structure Carries (k k' : Kernel G) (t : ThreadId) : Prop where
  /-- the thread is placed -/
  placed : k'.Placed t
  /-- it is owned as before, or has ended -/
  owned : k.ownerOf t ≠ none → k'.ownerOf t ≠ none ∨ k'.stateOf t = .terminated
  /-- it stays terminated, and is not switched in where it was not -/
  ended : k.stateOf t = .terminated → t < k.threads.length → k'.stateOf t = .terminated ∧
    ∀ c, (k'.queues c).running = some t → (k.queues c).running = some t
  /-- no thread goes away -/
  threads : k.threads.length ≤ k'.threads.length

theorem Placed.refl (h : k.Placed t) : k.Carries k t :=
  ⟨h, .inl, fun hs _ => ⟨hs, fun _ => id⟩, Nat.le_refl _⟩

theorem Carries.trans (h : k.Carries k' t) (h' : k'.Carries k'' t) : k.Carries k'' t where
  placed := h'.placed
  owned ho := by
    rcases h.owned ho with ho' | hs'
    · exact h'.owned ho'
    · obtain ⟨c, hc⟩ := Option.ne_none_iff_exists'.mp ho
      exact .inr (h'.ended hs' (Nat.lt_of_lt_of_le (lt_length_of_ownerOf hc) h.threads)).1
  ended hs ht := by
    obtain ⟨hs', hslot⟩ := h.ended hs ht
    obtain ⟨hs'', hslot'⟩ := h'.ended hs' (Nat.lt_of_lt_of_le ht h.threads)
    exact ⟨hs'', fun c hc => hslot c (hslot' c hc)⟩
  threads := Nat.le_trans h.threads h'.threads

/-- A change that is not about the thread. -/
theorem Placed.same (h : k.Placed t) (ho : k'.ownerOf t = k.ownerOf t)
    (hs : k'.stateOf t = k.stateOf t) (hc : ∀ c i, k'.count c i t = k.count c i t)
    (hr : ∀ c, (k'.queues c).running = some t → (k.queues c).running = some t)
    (hl : k.threads.length ≤ k'.threads.length) : k.Carries k' t where
  placed :=
    { occurs := fun c i => by rw [hc, ho, hs, h.occurs]
      unowned := by rw [ho, hs]; exact h.unowned
      owned := by rw [ho, hs]; exact h.owned
      slot := fun c hc => by
        rw [ho, hs]
        exact (h.slot c (hr c hc)).imp_right fun ⟨hs, ht⟩ => ⟨hs, Nat.lt_of_lt_of_le ht hl⟩ }
  owned := by
    rw [ho]
    exact .inl
  ended hs' _ := ⟨hs.trans hs', hr⟩
  threads := hl

/-! ## Moves of one thread

Starting, ending, waking and putting aside are moves of one thread: it gets an owner and a state,
and changes queues; no other thread is concerned, and no running slot. -/

/-- Thread `u`, if there is one, gets the owner `o` and the state `s`, and nothing else happens to
any thread. -/
structure Moves (k k' : Kernel G) (u : ThreadId) (o : Option CoreId) (s : ThreadState) : Prop where
  /-- its owner -/
  owner : u < k.threads.length → k'.ownerOf u = o
  /-- its state -/
  state : u < k.threads.length → k'.stateOf u = s
  /-- others keep their owner -/
  owner_of_ne : ∀ v, u ≠ v → k'.ownerOf v = k.ownerOf v
  /-- others keep their state -/
  state_of_ne : ∀ v, u ≠ v → k'.stateOf v = k.stateOf v
  /-- others stay in their queues -/
  count_of_ne : ∀ d i v, u ≠ v → k'.count d i v = k.count d i v
  /-- slots stay as they are -/
  running : ∀ d, (k'.queues d).running = (k.queues d).running
  /-- no thread is made -/
  length : k'.threads.length = k.threads.length

/-- A move is not about other threads. -/
theorem Placed.other {o : Option CoreId} {s : ThreadState} (h : k.Placed t) (hm : k.Moves k' u o s)
    (hne : u ≠ t) : k.Carries k' t :=
  h.same (hm.owner_of_ne t hne) (hm.state_of_ne t hne) (fun d i => hm.count_of_ne d i t hne)
    (fun d hd => hm.running d ▸ hd) (Nat.le_of_eq hm.length.symm)

/-- A thread that stays with its owner is placed if it comes to stand where its new state says. -/
theorem Placed.relocate (h : k.Placed t) (ho : k.ownerOf t = some c) (ho' : k'.ownerOf t = some c)
    (hs : k'.stateOf t ≠ .terminated)
    (hcount : ∀ d i, k'.count d i t = if c = d ∧ (k'.stateOf t).queue? = some i then 1 else 0)
    (hslot : ∀ d, (k'.queues d).running = some t → (k.queues d).running = some t ∨ c = d)
    (hl : k.threads.length ≤ k'.threads.length) : k.Carries k' t := by
  have hkept : k'.ownerOf t ≠ none := ho' ▸ Option.some_ne_none c
  refine ⟨⟨fun d i => ?_, fun hn => absurd hn hkept, fun _ _ => hs, fun d hd => .inl ?_⟩,
    fun _ => .inl hkept, fun he => absurd he (h.owned c ho), hl⟩
  · rw [hcount, ho']
    simp only [Option.some.injEq]
  · rw [ho']
    rcases hslot d hd with hd | rfl
    · rw [← ho]
      exact (h.slot d hd).resolve_right fun he => h.owned c ho he.1
    · rfl

/-- Moves that set a state only. -/
theorem moves_setState {s : ThreadState} (hthreads : k'.threads = (k.setState u s).threads)
    (hcount : ∀ d i v, u ≠ v → k'.count d i v = k.count d i v)
    (hrun : ∀ d, (k'.queues d).running = (k.queues d).running) :
    k.Moves k' u (k.ownerOf u) s := by
  have howner (v : ThreadId) : k'.ownerOf v = k.ownerOf v := by
    rw [← ownerOf_setState k u v s]
    simp only [ownerOf]
    rw [hthreads]
  have hstate (v : ThreadId) : k'.stateOf v = (k.setState u s).stateOf v := by
    simp only [stateOf]
    rw [hthreads]
  refine ⟨fun _ => howner u, fun hu => ?_, fun v _ => howner v, fun v hv => ?_, hcount, hrun, ?_⟩
  · rw [hstate, stateOf_setState_self k s hu]
  · rw [hstate, stateOf_setState_of_ne k s hv]
  · rw [hthreads]
    exact k.length_threads_updateThread u _

/-- Moves that set an owner and a state. -/
theorem moves_setOwner_setState {o : Option CoreId} {s : ThreadState}
    (hthreads : k'.threads = ((k.setOwner u o).setState u s).threads)
    (hcount : ∀ d i v, u ≠ v → k'.count d i v = k.count d i v)
    (hrun : ∀ d, (k'.queues d).running = (k.queues d).running) : k.Moves k' u o s := by
  have hlen : (k.setOwner u o).threads.length = k.threads.length :=
    k.length_threads_updateThread u _
  have hm : (k.setOwner u o).Moves k' u ((k.setOwner u o).ownerOf u) s :=
    moves_setState hthreads hcount hrun
  refine ⟨fun hu => ?_, fun hu => hm.state (hlen.symm ▸ hu), fun v hv => ?_, fun v hv => ?_, hcount,
    hrun, hm.length.trans hlen⟩
  · rw [hm.owner (hlen.symm ▸ hu), ownerOf_setOwner_self k o hu]
  · rw [hm.owner_of_ne v hv, ownerOf_setOwner_of_ne k o hv]
  · rw [hm.state_of_ne v hv, stateOf_setOwner]

theorem moves_start (hc : k.manages c = true) (u : ThreadId) :
    k.Moves ((k.setOwner u (some c)).makeReady c u) u (some c) .ready := by
  refine moves_setOwner_setState rfl (fun d i v hv => ?_) fun d => ?_
  · rw [count_makeReady (k.setOwner u (some c)) hc, if_neg fun h => hv h.2.2]
    rfl
  · exact running_makeReady _ c u d

theorem moves_kill (hc : k.manages c = true) (u : ThreadId) :
    k.Moves ((k.setOwner u none).terminate c u) u none .terminated := by
  refine moves_setOwner_setState rfl (fun d i v hv => ?_) fun d => ?_
  · rw [count_terminate (k.setOwner u none) hc, if_neg fun h => hv h.2]
    rfl
  · exact running_terminate _ c u d

theorem moves_wake (hc : k.manages c = true) (u : ThreadId) :
    k.Moves (k.wake c u) u (k.ownerOf u) .ready := by
  refine moves_setState rfl (fun d i v hv => ?_) fun d => running_wake k c u d
  rw [count_wake k hc, if_neg fun h => hv h.2.2, if_neg fun h => hv h.2.2]
  rfl

/-- What a thread waits for that is put aside until a tick or without a deadline. -/
def waitKind : Option Nat → WaitKind
  | none => .infinite
  | some _ => .timed

theorem count_setAside {wake : Option Nat} (hr : (k.queues c).running = some u) (d : CoreId)
    (i : Queue) (v : ThreadId) : (k.setAside c wake).count d i v =
      (k.count d i v - if c = d ∧ i = .ready ∧ u = v then 1 else 0) +
        if c = d ∧ (ThreadState.wait (waitKind wake)).queue? = some i ∧ u = v then 1 else 0 := by
  have hc := manages_of_running hr
  simp only [setAside]
  rw [hr]
  cases wake with
  | none =>
    dsimp only
    rw [count_suspend k hc]
    simp only [ThreadState.queue?, waitKind, Option.some.injEq, eq_comm (a := i) (b := .suspended)]
  | some wake =>
    dsimp only
    rw [count_sleep k hc]
    simp only [ThreadState.queue?, waitKind, Option.some.injEq, eq_comm (a := i) (b := .delayed)]

theorem running_setAside (wake : Option Nat) (c d : CoreId) :
    ((k.setAside c wake).queues d).running = (k.queues d).running := by
  simp only [setAside]
  split
  · rfl
  · refine running_updateQueues (k.setState _ _) ?_ d
    exact fun _ => rfl
  · refine running_updateQueues (k.setState _ _) ?_ d
    exact fun _ => rfl

theorem moves_setAside {wake : Option Nat} (hr : (k.queues c).running = some u) :
    k.Moves (k.setAside c wake) u (k.ownerOf u) (.wait (waitKind wake)) := by
  refine moves_setState ?_ (fun d i v hv => ?_) fun d => running_setAside wake c d
  · simp only [setAside]
    rw [hr]
    cases wake <;> rfl
  · rw [count_setAside hr, if_neg fun h => hv h.2.2, if_neg fun h => hv h.2.2]
    rfl

/-! ## Every move carries every thread along -/

theorem Placed.start (h : k.Placed t) (hc : k.manages c = true) (hs : k.stateOf u ≠ .terminated)
    (ho : k.ownerOf u = none) : k.Carries ((k.setOwner u (some c)).makeReady c u) t := by
  have hm := moves_start hc u
  by_cases hne : u = t
  · subst hne
    have hu : u < k.threads.length := lt_length_of_stateOf hs
    -- nobody owned the thread, so it stood in no slot and in no queue
    have hslot (d : CoreId) : (k.queues d).running ≠ some u := by
      intro hd
      rcases h.slot d hd with hd | ⟨hd, -⟩
      · rw [ho] at hd
        cases hd
      · exact hs hd
    have hzero (d : CoreId) (i : Queue) : (k.setOwner u (some c)).count d i u = 0 := by
      refine (h.occurs d i).trans (if_neg fun hd => ?_)
      rw [ho] at hd
      cases hd.1
    refine ⟨⟨fun d i => ?_, fun hn => ?_, fun d _ => ?_, fun d hd => ?_⟩, fun h => absurd ho h,
      fun he => absurd he hs, Nat.le_of_eq hm.length.symm⟩
    · rw [count_makeReady (k.setOwner u (some c)) hc, hzero, hm.owner hu, hm.state hu]
      simp only [Nat.zero_add, ThreadState.queue?, Option.some.injEq, and_true, eq_comm (a := i)]
    · rw [hm.owner hu] at hn
      cases hn
    · rw [hm.state hu]
      nofun
    · rw [hm.running] at hd
      exact absurd hd (hslot d)
  · exact h.other hm hne

theorem Placed.kill (h : k.Placed t) (hc : k.manages c = true) (ho : k.ownerOf u = some c) :
    k.Carries ((k.setOwner u none).terminate c u) t := by
  have hm := moves_kill hc u
  by_cases hne : u = t
  · subst hne
    have hu : u < k.threads.length := lt_length_of_ownerOf ho
    have hburied : ((k.setOwner u none).terminate c u).Buried u := by
      refine ⟨hm.state hu, hm.owner hu, fun d i hi => ?_⟩
      have hpos := (count_pos_iff _).mpr hi
      rw [count_terminate (k.setOwner u none) hc] at hpos
      by_cases hd : c = d
      · have hle : (k.setOwner u none).count d i u ≤ 1 := h.count_le_one d i
        rw [if_pos ⟨hd, rfl⟩, Nat.sub_eq_zero_of_le hle] at hpos
        cases hpos
      · have hzero : (k.setOwner u none).count d i u = 0 := h.count_eq_zero ho hd i
        rw [hzero, Nat.zero_sub] at hpos
        cases hpos
    exact ⟨hburied.placed (hm.length ▸ hu), fun _ => .inr (hm.state hu),
      fun _ _ => ⟨hm.state hu, fun d hd => hm.running d ▸ hd⟩, Nat.le_of_eq hm.length.symm⟩
  · exact h.other hm hne

theorem manages_of_isParked (hp : (k.queues c).isParked u = true) : k.manages c = true := by
  rcases RunQueues.isParked_iff.mp hp with hm | hm
  · exact manages_of_count (k.count_pos_iff.mpr hm)
  · exact manages_of_count (k.count_pos_iff.mpr hm)

/-- A placed thread that sleeps or stands parked waits in the queue from which it is woken. -/
theorem Placed.of_isParked (h : k.Placed t) (hp : (k.queues c).isParked t = true) :
    k.ownerOf t = some c ∧ (k.stateOf t).queue? = some ((k.queues c).parkedIn t) :=
  h.of_mem (RunQueues.mem_parkedIn hp)

theorem Placed.wake (h : k.Placed t) (hp : (k.queues c).isParked u = true) :
    k.Carries (k.wake c u) t := by
  have hc : k.manages c = true := manages_of_isParked hp
  have hm := moves_wake hc u
  by_cases hne : u = t
  · subst hne
    obtain ⟨ho, hq⟩ := h.of_isParked hp
    have hu : u < k.threads.length := lt_length_of_ownerOf ho
    refine h.relocate ho ((hm.owner hu).trans ho) ?_ (fun d i => ?_)
      (fun d hd => .inl (hm.running d ▸ hd)) (Nat.le_of_eq hm.length.symm)
    · rw [hm.state hu]
      nofun
    · rw [count_wake k hc, h.occurs, ho, hq, hm.state hu]
      by_cases hd : c = d
      · subst hd
        cases i <;> cases (k.queues c).parkedIn u <;> simp [ThreadState.queue?]
      · simp [hd]
  · exact h.other hm hne

/-- A runnable thread that is put aside stands among those who wait. -/
theorem Placed.setAside (h : k.Placed t) (wake : Option Nat)
    (hr : (k.queues c).running = some t → (k.stateOf t).IsRunnable) :
    k.Carries (k.setAside c wake) t := by
  cases hrun : (k.queues c).running with
  | none =>
    simp only [Kernel.setAside]
    rw [hrun]
    exact h.refl
  | some u =>
    have hm : k.Moves (k.setAside c wake) u (k.ownerOf u) (.wait (waitKind wake)) :=
      moves_setAside hrun
    by_cases hne : u = t
    · subst hne
      have hs : (k.stateOf u).IsRunnable := hr hrun
      have ho : k.ownerOf u = some c :=
        (h.slot c hrun).resolve_right fun he => hs.ne_terminated he.1
      have hu : u < k.threads.length := lt_length_of_ownerOf ho
      refine h.relocate ho ((hm.owner hu).trans ho) ?_ (fun d i => ?_)
        (fun d hd => .inl (hm.running d ▸ hd)) (Nat.le_of_eq hm.length.symm)
      · intro hended
        rw [hm.state hu] at hended
        cases hended
      · rw [count_setAside hrun, h.occurs, ho, hs.queue?, hm.state hu]
        by_cases hd : c = d
        · subst hd
          cases i <;> cases wake <;> simp [waitKind, ThreadState.queue?]
        · simp [hd]
    · exact h.other hm hne

/-- A tick moves the due sleepers into the rotation. -/
theorem Placed.advance (h : k.Placed t) (c : CoreId) : k.Carries (k.advance c) t := by
  cases hc : k.manages c with
  | false =>
    rw [advance_of_not_manages k hc]
    exact h.refl
  | true =>
    have hl : k.threads.length ≤ (k.advance c).threads.length :=
      Nat.le_of_eq (k.length_threads_advance c).symm
    by_cases hdue : t ∈ DelayedQueue.threads (k.dueNext c)
    · obtain ⟨ho, hq⟩ := h.of_mem (k.mem_delayed_of_dueNext hdue)
      have hs : (k.advance c).stateOf t = .ready :=
        k.stateOf_advance_of_mem hdue (lt_length_of_ownerOf ho)
      have hone : (DelayedQueue.threads (k.dueNext c)).count t = 1 := by
        have hle := k.count_dueNext c t
        have := h.count_le_one c .delayed
        have := List.count_pos_iff.mpr hdue
        omega
      refine h.relocate ho ((k.ownerOf_advance c t).trans ho) ?_ (fun d i => ?_)
        (fun d hd => .inl (k.running_advance c d ▸ hd)) hl
      · rw [hs]
        nofun
      · rw [count_advance k hc, h.occurs, ho, hq, hs, hone]
        by_cases hd : c = d
        · subst hd
          cases i <;> simp [ThreadState.queue?]
        · simp [hd]
    · refine h.same (k.ownerOf_advance c t) (k.stateOf_advance_of_not_mem hdue) (fun d i => ?_)
        (fun d hd => k.running_advance c d ▸ hd) hl
      rw [count_advance k hc, List.count_eq_zero.mpr hdue]
      simp

/-! ## Switching -/

/-- A thread that is interrupted stays in the rotation. -/
theorem Placed.interruptRunning (h : k.Placed t) (c : CoreId) (context : Context) :
    k.Carries (k.interruptRunning c context) t := by
  have hq (d : CoreId) := k.queues_interruptRunning c context d
  have hstate := k.stateOf_interruptRunning c context t
  have howner := k.ownerOf_interruptRunning c context t
  have hl := Nat.le_of_eq (k.length_threads_interruptRunning c context).symm
  by_cases hs : (k.queues c).running = some t ∧ k.stateOf t = .running
  · rw [if_pos hs] at hstate
    obtain ⟨d₀, ho⟩ := h.exists_owner hs.2
    refine h.relocate ho (howner.trans ho) ?_ (fun d i => ?_) (fun d hd => .inl (hq d ▸ hd)) hl
    · rw [hstate]
      nofun
    · rw [count, hq, hstate]
      refine (h.occurs d i).trans ?_
      rw [ho, hs.2]
      simp only [Option.some.injEq, ThreadState.queue?]
  · rw [if_neg hs] at hstate
    exact h.same howner hstate (fun d i => by rw [count, hq]; rfl) (fun d hd => hq d ▸ hd) hl

theorem manages_of_mem_ready (hu : u ∈ (k.queues c).ready) : k.manages c = true := by
  have hpos : 0 < k.count c .ready u := k.count_pos_iff.mpr hu
  exact manages_of_count hpos

/-- Switching to a thread of the rotation. -/
theorem Placed.switchTo (h : k.Placed t) (hu : u ∈ (k.queues c).ready) :
    k.Carries (k.switchTo c u) t := by
  have hc : k.manages c = true := manages_of_mem_ready hu
  have hl : (k.switchTo c u).threads.length = k.threads.length :=
    k.length_threads_updateThread u _
  have howner : (k.switchTo c u).ownerOf t = k.ownerOf t := k.ownerOf_setState u t .running
  by_cases hne : u = t
  · subst hne
    obtain ⟨ho, hq⟩ := h.of_mem (i := .ready) hu
    have hs : (k.switchTo c u).stateOf u = .running :=
      k.stateOf_setState_self .running (lt_length_of_ownerOf ho)
    refine h.relocate ho (howner.trans ho) ?_ (fun d i => ?_) (fun d hd => ?_)
      (Nat.le_of_eq hl.symm)
    · rw [hs]
      nofun
    · rw [count_switchTo k hc, h.occurs, ho, hq, hs]
      simp only [Option.some.injEq, ThreadState.queue?]
    · rw [running_switchTo k hc] at hd
      split at hd
      · exact .inr ‹_›
      · exact .inl hd
  · refine h.same howner (k.stateOf_setState_of_ne .running hne)
      (fun d i => k.count_switchTo hc u d i t) (fun d hd => ?_) (Nat.le_of_eq hl.symm)
    rw [running_switchTo k hc] at hd
    split at hd
    · exact absurd (Option.some.inj hd) hne
    · exact hd

theorem Placed.turn (h : k.Placed t) (c : CoreId) (context : Context) :
    k.Carries (Effect.yieldThread c context k).1 t := by
  simp only [Effect.yieldThread, rotate]
  cases hn : (k.queues c).successor with
  | none => exact h.refl
  | some next =>
    have hmem : next ∈ ((k.interruptRunning c context).queues c).ready := by
      rw [queues_interruptRunning]
      exact RunQueues.mem_ready_of_successor hn
    have hi := h.interruptRunning c context
    exact hi.trans (hi.placed.switchTo hmem)

/-! ## The other changes -/

/-- A change of a core outside its queues. -/
theorem Placed.updateCore (h : k.Placed t) (c : CoreId) {f : Core G → Core G}
    (hf : ∀ core, (f core).queues = core.queues) : k.Carries (k.updateCore c f) t := by
  have hq := k.queues_updateCore hf (c := c)
  refine h.same rfl rfl (fun d i => ?_) (fun d hd => ?_) (Nat.le_refl _)
  · simp only [count]
    rw [hq]
  · rw [hq] at hd
    exact hd

theorem Placed.startThread (h : k.Placed t) (hc : k.manages c = true) (u : ThreadId) :
    k.Carries (Effect.startThread c u k).1 t := by
  simp only [Effect.startThread]
  split
  · exact h.refl
  · split
    next hs ho => exact h.start hc hs (Option.isNone_iff_eq_none.mp ho)
    next => exact h.refl

theorem Placed.killThread (h : k.Placed t) (hc : k.manages c = true) (ho : k.ownerOf u = some c) :
    k.Carries (Effect.killThread c u k).1 t := by
  simp only [Effect.killThread]
  rw [if_pos ho]
  have hk := h.kill hc ho
  dsimp only
  split
  · refine hk.trans (hk.placed.updateCore c ?_)
    exact fun _ => rfl
  · exact hk

theorem Placed.prepare (h : k.Placed t) (hc : k.manages c = true) :
    k.Carries (Effect.prepare c k) t := by
  have hk : k.Carries (k.updateCore c fun core => { core with started := true }) t := by
    refine h.updateCore c ?_
    exact fun _ => rfl
  simp only [Effect.prepare, Effect.bringIdle]
  split
  · exact hk
  next idle _ => exact hk.trans (hk.placed.startThread ((k.manages_updateCore c c _).trans hc) idle)

theorem Placed.install (h : k.Placed t) (c : CoreId) : k.Carries (Effect.install c k).1 t := by
  simp only [Effect.install, Effect.switchFirst]
  cases hd : (k.queues c).ready.head? with
  | none => exact h.refl
  | some next =>
    have hk := h.switchTo (List.mem_of_head? hd)
    refine hk.trans (hk.placed.updateCore c ?_)
    exact fun _ => rfl

/-- A thread that is made is placed: it is in no queue yet. -/
theorem Placed.addThread (h : k.Placed t) {th : Thread G} (hs : th.state = .ready)
    (ho : th.owner = none) : k.Carries (k.addThread th) t := by
  have hl : k.threads.length ≤ (k.addThread th).threads.length := by
    rw [length_threads_addThread]
    exact Nat.le_succ _
  by_cases hne : t = k.threads.length
  · have hstate : (k.addThread th).stateOf t = .ready := by rw [stateOf_addThread, if_pos hne, hs]
    have howner : (k.addThread th).ownerOf t = none := by rw [ownerOf_addThread, if_pos hne, ho]
    have hold : k.ownerOf t = none := k.ownerOf_eq_none_of_le (Nat.le_of_eq hne.symm)
    have hgone : ¬ t < k.threads.length := Nat.not_lt.mpr (Nat.le_of_eq hne.symm)
    refine ⟨⟨fun d i => ?_, fun _ => .inl hstate, fun d hd => ?_, fun d hd => ?_⟩,
      fun h => absurd hold h, fun _ ht => absurd ht hgone, hl⟩
    · refine (h.occurs d i).trans ?_
      rw [hold, howner, if_neg nofun, if_neg nofun]
    · rw [howner] at hd
      cases hd
    · rcases h.slot d hd with hd | ⟨-, ht⟩
      · rw [hold] at hd
        cases hd
      · exact absurd ht hgone
  · refine h.same ?_ ?_ (fun _ _ => rfl) (fun _ => id) hl
    · rw [ownerOf_addThread, if_neg hne]
    · rw [stateOf_addThread, if_neg hne]

/-- **Every change carries every placed thread along.** -/
theorem Placed.apply (h : k.Placed t) {ch : Change G} (enabled : ch.Enabled k) :
    k.Carries (ch.apply k) t := by
  cases ch with
  | start c u => exact h.start enabled.1 enabled.2.1 enabled.2.2
  | kill c u => exact h.killThread enabled.1 enabled.2
  | wake c u => exact h.wake enabled
  | advance c => exact h.advance c
  | turn c context => exact h.turn c context
  | bootstrap c =>
    have hk := h.prepare enabled.1
    exact hk.trans (hk.placed.install c)
  | addThread th => exact h.addThread enabled.1 enabled.2
  | adjust u f =>
    exact h.same (k.ownerOf_updateThread (fun th => (enabled th).2) t)
      (k.stateOf_updateThread (fun th => (enabled th).1) t) (fun _ _ => rfl) (fun _ => id)
      (Nat.le_of_eq (k.length_threads_updateThread u f).symm)
  | defer c d => exact h.updateCore c fun _ => rfl
  | undefer c => exact h.updateCore c fun _ => rfl
  | setHandler c irq hd => exact h.updateCore c fun _ => by cases irq <;> rfl
  | addEvent | setRaised | setWaiters | addWait | updateWait | setObjects =>
    exact h.same rfl rfl (fun _ _ => rfl) (fun _ => id) (Nat.le_refl _)

theorem Placed.path (h : k.Placed t) {admits : Change G → Prop} (path : Path admits k k') :
    k.Carries k' t :=
  path.keeps (I := fun k' => k.Carries k' t)
    (fun _ _ _ enabled hk => hk.trans (hk.placed.apply enabled)) h.refl

end Kernel

/-! ## Segments -/

/-- The segment puts the thread aside. -/
def Segment.Parks (seg : Segment G) (t : ThreadId) : Prop :=
  ∃ c, seg.parked = some c ∧ (seg.before.queues c).running = some t

/-- **A segment carries a placed thread along**, unless it puts the thread aside when it is not
runnable. -/
theorem Segment.Sound.carries {seg : Segment G} {t : ThreadId} (hseg : seg.Sound)
    (h : seg.before.Placed t) (hp : seg.Parks t → (seg.before.stateOf t).IsRunnable) :
    seg.before.Carries seg.after t := by
  obtain ⟨k, path, rfl | ⟨c, wake, hparked, rfl⟩⟩ := hseg.exists_path
  · exact h.path path
  · have hk := h.setAside wake fun hr => hp ⟨c, hparked, hr⟩
    exact hk.trans (hk.placed.path path)

/-- After a segment that puts a thread aside, the thread waits. -/
theorem Segment.Sound.waits_of_parks {seg : Segment G} {t : ThreadId} (hseg : seg.Sound)
    (ht : t < seg.before.threads.length) (hp : seg.Parks t) :
    (seg.after.stateOf t).isWaiting = true := by
  obtain ⟨c, hparked, hr⟩ := hp
  have hleads := hseg.leads
  rw [hparked] at hleads
  obtain ⟨wake, -, hthreads, -⟩ := hleads
  have hstate : seg.after.stateOf t = (seg.before.setAside c wake).stateOf t := by
    simp only [Kernel.stateOf]
    rw [hthreads]
  rw [hstate, (Kernel.moves_setAside hr).state ht]
  rfl

/-- Every thread of a booted kernel is placed. -/
theorem Kernel.Fresh.placed {k : Kernel G} (h : k.Fresh) (t : ThreadId) : k.Placed t := by
  refine ⟨fun c i => ?_, fun _ => ?_, fun c hc => ?_, fun c hc => ?_⟩
  · rw [h.owner, if_neg nofun]
    simp only [Kernel.count]
    rw [h.queues]
    cases i <;> rfl
  · rcases Nat.lt_or_ge t k.threads.length with ht | ht
    · exact .inl (h.state t ht)
    · exact .inr (k.stateOf_eq_terminated_of_le ht)
  · rw [h.owner] at hc
    cases hc
  · rw [h.queues] at hc
    cases hc

/-- A thread that is put aside only when it is runnable is placed. -/
theorem System.Runs.placed {m : Machine G} {s : System G} {past : List (Segment G)} {t : ThreadId}
    (booted : m.Booted) (run : Runs ⟨m, []⟩ past s)
    (hp : ∀ seg ∈ past, seg.Parks t → (seg.before.stateOf t).IsRunnable) :
    s.machine.kernel.Placed t :=
  (run.keeps (I := fun k => k.Placed t) forall_tasks_start hp
    (fun _ hp hseg h => (hseg.carries h hp).placed) (booted.fresh.placed t)).1

end Nucleus
