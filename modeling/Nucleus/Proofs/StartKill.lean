import Nucleus.Proofs.Crossing
import Nucleus.Proofs.Frame
import Nucleus.Proofs.Placement
import Nucleus.Proofs.Script

/-!
# Starting and killing at the same time

Starting a thread and killing it both change the owner first, in one atomic access, and the queues
and the state later, under the lock of the queues. Each of them may be carried out whole while the
other stands at one of its windows.

* `Call.crosses_startThread` and `Call.crosses_killThread` say what a call at a window of either
  finds, and what becomes of it.
* `start_kill_atomic_iff` is the exact condition under which the two are atomic against each other:
  unless one of them came in at a window of the other and both succeeded. If both do, the thread
  is left in the rotation without an owner, or ended with an owner, or it is started after its end.
* `started_while_killed` shows such a state.
-/

namespace Nucleus

variable {G : Guest} {β : Type}

/-! ## The windows of the two calls -/

/-- Take ownership of a thread that nobody owns, and bring it into the rotation. -/
def Effect.enroll (c : CoreId) (t : ThreadId) : Effect G Bool := fun k =>
  if (k.ownerOf t).isNone then ((k.setOwner t (some c)).makeReady c t, true) else (k, false)

/-- Tell a core to reschedule, if the thread is switched in on it. -/
def Effect.notifyKilled (c : CoreId) (t : ThreadId) (k : Kernel G) : Kernel G :=
  if (k.queues c).running = some t then requestYield c k else k

namespace Call

variable {here : CoreId} {g : Effect G β}

/-- A start that has found the thread not terminated. -/
theorem does_enroll (c : CoreId) (t : ThreadId) :
    (do
      if ← claim t c then
        locked (.queues c) (change (·.makeReady c t))
        note (.threadStarted c t (← read (·.descriptionOf t)))
        return true
      else return false : Call G Bool).Does here (Effect.enroll c t) := by
  refine Does.congr (does_bind (does_claim t c) fun b => does_ite
    (fun _ => does_bind (does_locked _ (does_change _)) fun _ =>
      does_bind (does_read (·.descriptionOf t)) fun _ => does_bind (does_note _) fun _ =>
        does_pure true) fun _ => does_pure false) fun k => ?_
  simp only [Effect.enroll]
  by_cases ho : (k.ownerOf t).isNone <;> simp [ho]

theorem closed_claim (c : CoreId) (t : ThreadId) : (claim t c : Call G Bool).Closed := by
  refine closed_bind (closed_read _) fun o => ?_
  split
  · exact closed_bind (closed_change _) fun _ => closed_pure true
  · exact closed_pure false

theorem closed_disown (c : CoreId) (t : ThreadId) : (disown t c : Call G Bool).Closed := by
  refine closed_bind (closed_read _) fun o => ?_
  split
  · exact closed_bind (closed_change _) fun _ => closed_pure true
  · exact closed_pure false

/-- Once it has found the thread not terminated, a start has one window: it owns the thread, and has
not queued it. -/
theorem crosses_enroll (c : CoreId) (t : ThreadId) :
    (do
      if ← claim t c then
        locked (.queues c) (change (·.makeReady c t))
        note (.threadStarted c t (← read (·.descriptionOf t)))
        return true
      else return false : Call G Bool).Crosses here g fun k k' a b =>
        k.ownerOf t = none ∧ a = true ∧ b = (g (k.setOwner t (some c))).2 ∧
          k' = (g (k.setOwner t (some c))).1.makeReady c t := by
  have hend : (do
      note (.threadStarted c t (← read (·.descriptionOf t)))
      return true : Call G Bool).Does here fun k => (k, true) :=
    does_bind (does_read (·.descriptionOf t)) fun _ => does_bind (does_note _) fun _ =>
      does_pure true
  have hclosed : (do
      note (.threadStarted c t (← read (·.descriptionOf t)))
      return true : Call G Bool).Closed :=
    closed_bind (closed_read _) fun _ => closed_bind (closed_note _) fun _ => closed_pure true
  refine (crosses_bind_closed (does_claim t c) (closed_claim c t) fun b => crosses_ite
    (fun _ => crosses_bind (does_locked _ (does_change _))
      (crosses_locked _ (does_change (·.makeReady c t)) (closed_change _)) (fun _ => hend)
      fun _ => crosses_of_closed hclosed)
    fun _ => crosses_of_closed (closed_pure false)).imp fun k k' a b h => ?_
  by_cases ho : (k.ownerOf t).isNone
  · simp only [ho, if_true] at h
    rcases h with ⟨k₁, _, ⟨hk₁, hb⟩, h⟩ | h
    · cases hk₁
      cases h
      exact ⟨Option.isNone_iff_eq_none.mp ho, rfl, hb, rfl⟩
    · exact h.elim
  · simp [ho] at h

/-- **The windows of a start.** It has found the thread not terminated, and either goes on to take
it, or owns it and has not queued it. -/
theorem crosses_startThread (c : CoreId) (t : ThreadId) :
    (startThread c t : Call G Bool).Crosses here g fun k k' a b => k.stateOf t ≠ .terminated ∧
      ((b = (g k).2 ∧ (k', a) = Effect.enroll c t (g k).1) ∨
        (k.ownerOf t = none ∧ a = true ∧ b = (g (k.setOwner t (some c))).2 ∧
          k' = (g (k.setOwner t (some c))).1.makeReady c t)) := by
  refine (crosses_bind_closed (does_read (·.stateOf t)) (closed_read _) fun s => crosses_ite
    (fun _ => crosses_of_closed (closed_pure false))
    fun _ => crosses_bind (does_pause _) (crosses_pause _) (fun _ => does_enroll c t)
      fun _ => crosses_enroll c t).imp fun k k' a b h => ?_
  by_cases hs : k.stateOf t = .terminated
  · simp [hs] at h
  · simp only [hs, if_false] at h
    refine ⟨hs, ?_⟩
    rcases h with ⟨k₁, _, hg, h⟩ | h
    · refine .inl ⟨congrArg Prod.snd hg, ?_⟩
      rw [← hg]
      exact h
    · exact .inr h

theorem crosses_requestYield (c : CoreId) :
    (requestYield c : Call G Unit).Crosses here g fun k k' _ b =>
      k' = Effect.requestYield c (g k).1 ∧ b = (g k).2 := by
  refine (crosses_bind (does_locked _ (does_change _))
    (crosses_locked _ (does_change _) (closed_change _))
    (fun _ => does_command (f := (·.notify)) fun _ => rfl)
    fun _ => crosses_of_closed (closed_command _)).imp fun k k' a b h => ?_
  rcases h with ⟨k₁, _, ⟨hk₁, hb⟩, h⟩ | h
  · cases hk₁
    cases h
    exact ⟨rfl, hb⟩
  · exact h.elim

theorem crosses_afterKill (c : CoreId) (wasRunning : Bool) :
    (do
      if wasRunning then requestYield c
      return .ok () : Call G (Outcome Unit)).Crosses here g fun k k' a b =>
        wasRunning = true ∧ a = .ok () ∧ b = (g k).2 ∧ k' = Effect.requestYield c (g k).1 := by
  cases wasRunning with
  | false => exact (crosses_of_closed (closed_pure _)).imp fun _ _ _ _ h => h.elim
  | true =>
    refine (crosses_bind (does_requestYield c) (crosses_requestYield c)
      (fun _ => does_pure _) fun _ => crosses_of_closed (closed_pure _)).imp fun k k' a b h => ?_
    rcases h with ⟨k₁, _, ⟨hk₁, hb⟩, h⟩ | h
    · cases h
      exact ⟨rfl, rfl, hb, hk₁⟩
    · exact h.elim

/-- **The windows of a kill.** It has given up the thread and not yet ended it, or the thread has
ended and the core is to be told. -/
theorem crosses_killThread (c : CoreId) (t : ThreadId) :
    (killThread c t : Call G (Outcome Unit)).Crosses here g fun k k' a b =>
      k.ownerOf t = some c ∧ a = .ok () ∧
        ((b = (g (k.setOwner t none)).2 ∧
            k' = Effect.notifyKilled c t ((g (k.setOwner t none)).1.terminate c t)) ∨
          (b = (g ((k.setOwner t none).terminate c t)).2 ∧
            (((k.setOwner t none).terminate c t).queues c).running = some t ∧
            k' = Effect.requestYield c (g ((k.setOwner t none).terminate c t)).1)) := by
  have hbody : (do
      change (·.terminate c t)
      read fun k => (k.queues c).running == some t : Call G Bool).Does here fun k =>
        (k.terminate c t, ((k.terminate c t).queues c).running == some t) :=
    does_bind (does_change (·.terminate c t)) fun _ => does_read _
  have hclosed : (do
      change (·.terminate c t)
      read fun k => (k.queues c).running == some t : Call G Bool).Closed :=
    closed_bind (closed_change _) fun _ => closed_read _
  refine (crosses_bind_closed (does_disown t c) (closed_disown c t) fun b => crosses_ite
    (fun _ => crosses_bind (does_locked _ hbody) (crosses_locked _ hbody hclosed)
      (fun wasRunning => does_bind (does_note _) fun _ => does_afterKill c wasRunning)
      fun wasRunning => crosses_bind_closed (does_note _) (closed_note _) fun _ =>
        crosses_afterKill c wasRunning)
    fun _ => crosses_of_closed (closed_pure _)).imp fun k k' a b h => ?_
  by_cases ho : k.ownerOf t = some c
  · simp only [ho, if_true] at h
    refine ⟨ho, ?_⟩
    rcases h with ⟨k₁, _, ⟨hk₁, hb⟩, h⟩ | ⟨hr, ha, hb, hk⟩
    · cases hk₁
      cases h
      refine ⟨rfl, .inl ⟨hb, ?_⟩⟩
      simp only [Effect.notifyKilled]
      simp only [beq_iff_eq]
    · exact ⟨ha, .inr ⟨hb, beq_iff_eq.mp hr, hk⟩⟩
  · simp [ho] at h

end Call

/-! ## One after the other -/

namespace Kernel

variable {k k' : Kernel G} {t : ThreadId} {c d : CoreId}

/-- The thread is buried, or one core owns it, it has not ended, and it stands once, in the queues
of that core. -/
def Settled (k : Kernel G) (t : ThreadId) : Prop :=
  k.Buried t ∨ ∃ c, k.ownerOf t = some c ∧ k.stateOf t ≠ .terminated ∧
    ∀ d, k.count d .ready t + k.count d .delayed t + k.count d .suspended t = if c = d then 1 else 0

/-- The state is that after a start and a kill of the thread, in one of the two orders. -/
def AfterBoth (k : Kernel G) (c d : CoreId) (t : ThreadId) (k' : Kernel G) : Prop :=
  k' = (Effect.killThread d t (Effect.startThread c t k).1).1 ∨
    k' = (Effect.startThread c t (Effect.killThread d t k).1).1

/-- A placed thread is settled, unless it was never started. -/
theorem Placed.settled (h : k.Placed t) (hn : k.ownerOf t ≠ none ∨ k.stateOf t = .terminated) :
    k.Settled t := by
  by_cases hs : k.stateOf t = .terminated
  · exact .inl (h.buried hs)
  · obtain ⟨c, hc⟩ := Option.ne_none_iff_exists'.mp (hn.resolve_right hs)
    refine .inr ⟨c, hc, hs, fun d => ?_⟩
    rw [h.sum_count, hc]
    simp only [Option.some.injEq]

/-- A settled thread has an owner if and only if it has not ended. -/
theorem Settled.owner_iff (h : k.Settled t) : k.ownerOf t = none ↔ k.stateOf t = .terminated := by
  rcases h with h | ⟨c, hc, hs, -⟩
  · exact ⟨fun _ => h.state, fun _ => h.owner⟩
  · refine ⟨fun hn => ?_, fun he => absurd he hs⟩
    rw [hc] at hn
    cases hn

theorem startThread_of_owned (c : CoreId) (ho : k.ownerOf t ≠ none) :
    Effect.startThread c t k = (k, false) := by
  simp only [Effect.startThread]
  split
  · rfl
  · exact if_neg fun hn => ho (Option.isNone_iff_eq_none.mp hn)

theorem startThread_of_terminated (c : CoreId) (hs : k.stateOf t = .terminated) :
    Effect.startThread c t k = (k, false) := if_pos hs

theorem startThread_of_not_terminated (c : CoreId) (hs : k.stateOf t ≠ .terminated) :
    Effect.startThread c t k = Effect.enroll c t k := if_neg hs

theorem enroll_of_unowned (c : CoreId) (ho : k.ownerOf t = none) :
    Effect.enroll c t k = ((k.setOwner t (some c)).makeReady c t, true) :=
  if_pos (Option.isNone_iff_eq_none.mpr ho)

theorem killThread_of_ne (ho : k.ownerOf t ≠ some d) :
    Effect.killThread d t k = (k, .error .invalidOperation) := if_neg ho

theorem killThread_of_owned (ho : k.ownerOf t = some d) : Effect.killThread d t k =
    (Effect.notifyKilled d t ((k.setOwner t none).terminate d t), .ok ()) := if_pos ho

@[simp] theorem stateOf_notifyKilled (k : Kernel G) (d : CoreId) (t u : ThreadId) :
    (Effect.notifyKilled d t k).stateOf u = k.stateOf u := by
  simp only [Effect.notifyKilled]
  split <;> rfl

@[simp] theorem ownerOf_notifyKilled (k : Kernel G) (d : CoreId) (t u : ThreadId) :
    (Effect.notifyKilled d t k).ownerOf u = k.ownerOf u := by
  simp only [Effect.notifyKilled]
  split <;> rfl

/-- After a start the thread has an owner, if it has not ended. -/
theorem owned_or_terminated_startThread (k : Kernel G) (c : CoreId) (t : ThreadId) :
    (Effect.startThread c t k).1.ownerOf t ≠ none ∨
      (Effect.startThread c t k).1.stateOf t = .terminated := by
  by_cases hs : k.stateOf t = .terminated
  · rw [startThread_of_terminated c hs]
    exact .inr hs
  · by_cases ho : k.ownerOf t = none
    · rw [startThread_of_not_terminated c hs, enroll_of_unowned c ho]
      refine .inl ?_
      have : ((k.setOwner t (some c)).makeReady c t).ownerOf t = some c :=
        (ownerOf_setState _ t t .ready).trans
          (k.ownerOf_setOwner_self (some c) (lt_length_of_stateOf hs))
      rw [this]
      exact Option.some_ne_none c
    · rw [startThread_of_owned c ho]
      exact .inl ho

/-- After a kill by its owner the thread has ended. -/
theorem killed_of_owned (ho : k.ownerOf t = some d) :
    (Effect.killThread d t k).1.ownerOf t = none ∧
      (Effect.killThread d t k).1.stateOf t = .terminated := by
  have ht : t < k.threads.length := lt_length_of_ownerOf ho
  have ht' : t < (k.setOwner t none).threads.length :=
    Nat.lt_of_lt_of_eq ht (k.length_threads_updateThread t _).symm
  rw [killThread_of_owned ho]
  refine ⟨?_, ?_⟩
  · rw [ownerOf_notifyKilled]
    exact (ownerOf_setState _ t t .terminated).trans (k.ownerOf_setOwner_self none ht)
  · rw [stateOf_notifyKilled]
    exact stateOf_setState_self _ .terminated ht'

theorem Placed.kill_of_manages (h : k.Placed t) (hd : k.manages d = true) :
    (Effect.killThread d t k).1.Placed t := by
  by_cases ho : k.ownerOf t = some d
  · exact (h.killThread hd ho).placed
  · rw [killThread_of_ne ho]
    exact h

/-- **One after the other, start and kill leave a thread settled.** -/
theorem Placed.settled_of_afterBoth (h : k.Placed t) (hc : k.manages c = true)
    (hd : k.manages d = true) (hk : k.AfterBoth c d t k') : k'.Settled t := by
  rcases hk with rfl | rfl
  · have hstart := (h.startThread hc t).placed
    have hd' : (Effect.startThread c t k).1.manages d = true :=
      ((Adjusts.refl.startThread c t).manages d).trans hd
    refine (hstart.kill_of_manages hd').settled ?_
    by_cases ho : (Effect.startThread c t k).1.ownerOf t = some d
    · exact .inr (killed_of_owned ho).2
    · rw [killThread_of_ne ho]
      exact owned_or_terminated_startThread k c t
  · have hc' : (Effect.killThread d t k).1.manages c = true :=
      ((Adjusts.refl.killThread d t).manages c).trans hc
    exact ((h.kill_of_manages hd).startThread hc' t).placed.settled
      (owned_or_terminated_startThread _ c t)

/-! ## One at a window of the other -/

/-- In either order, a kill by the owner ends the thread. -/
theorem terminated_of_afterBoth (ho : k.ownerOf t = some d) (hk : k.AfterBoth c d t k') :
    k'.stateOf t = .terminated := by
  rcases hk with rfl | rfl
  · rw [startThread_of_owned c (ho ▸ Option.some_ne_none d)]
    exact (killed_of_owned ho).2
  · rw [startThread_of_terminated c (killed_of_owned ho).2]
    exact (killed_of_owned ho).2

theorem ownerOf_makeReady (k : Kernel G) (c : CoreId) (t u : ThreadId) :
    (k.makeReady c t).ownerOf u = k.ownerOf u :=
  ownerOf_setState _ t u .ready

/-- A kill between the look of a start at the state and its claim: if it succeeds, so does the
start, and a thread that has ended is started. -/
theorem killed_before_claim (hs : k.stateOf t ≠ .terminated) {a : Bool} {b : Outcome Unit}
    (hb : b = (Effect.killThread d t k).2)
    (hk : (k', a) = Effect.enroll c t (Effect.killThread d t k).1) :
    k.AfterBoth c d t k' ↔ ¬ (a = true ∧ b = .ok ()) := by
  by_cases ho : k.ownerOf t = some d
  · -- both orders end the thread, but here the claim comes last and makes it ready
    have hkill := killed_of_owned ho
    rw [enroll_of_unowned c hkill.1] at hk
    cases hk
    rw [killThread_of_owned ho] at hb
    refine ⟨fun hboth => ?_, fun hnot => absurd ⟨rfl, hb⟩ hnot⟩
    have hended := terminated_of_afterBoth ho hboth
    rw [stateOf_makeReady_self] at hended
    · cases hended
    · exact Nat.lt_of_lt_of_eq (lt_length_of_ownerOf ho)
        ((Adjusts.refl.killThread d t).thread t _).length_threads.symm
  · rw [killThread_of_ne ho] at hb hk
    refine ⟨fun _ hboth => ?_, fun _ => .inr ?_⟩
    · rw [hb] at hboth
      cases hboth.2
    · rw [killThread_of_ne ho, startThread_of_not_terminated c hs]
      exact congrArg Prod.fst hk

/-- A kill between the claim of a start and its lock: if it succeeds, the thread is left in the
rotation without an owner. -/
theorem killed_before_lock (h : k.Placed t) (hc : k.manages c = true) (hd : k.manages d = true)
    (hs : k.stateOf t ≠ .terminated) (ho : k.ownerOf t = none) {b : Outcome Unit}
    (hb : b = (Effect.killThread d t (k.setOwner t (some c))).2)
    (hk : k' = (Effect.killThread d t (k.setOwner t (some c))).1.makeReady c t) :
    k.AfterBoth c d t k' ↔ ¬ (true = true ∧ b = .ok ()) := by
  have ht : t < k.threads.length := lt_length_of_stateOf hs
  have howner := k.ownerOf_setOwner_self (some c) ht
  by_cases hcd : c = d
  · -- the kill undoes the claim, and the start queues the thread all the same
    subst hcd
    have hkill := killed_of_owned howner
    rw [killThread_of_owned howner] at hb
    refine ⟨fun hboth => ?_, fun hnot => absurd ⟨rfl, hb⟩ hnot⟩
    have hiff := (h.settled_of_afterBoth hc hd hboth).owner_iff
    rw [hk, ownerOf_makeReady, stateOf_makeReady_self] at hiff
    · cases hiff.mp hkill.1
    · exact Nat.lt_of_lt_of_eq ht
        ((Adjusts.refl.thread t _).killThread c t).length_threads.symm
  · have hne : (k.setOwner t (some c)).ownerOf t ≠ some d := by
      rw [howner]
      exact fun he => hcd (Option.some.inj he)
    rw [killThread_of_ne hne] at hb hk
    refine ⟨fun _ hboth => ?_, fun _ => .inr ?_⟩
    · rw [hb] at hboth
      cases hboth.2
    · have hkeep : k.ownerOf t ≠ some d := ho ▸ nofun
      rw [killThread_of_ne hkeep, startThread_of_not_terminated c hs, enroll_of_unowned c ho]
      exact hk

/-- A start between the release of a kill and its lock succeeds, and the thread is left ended with
an owner. -/
theorem started_before_lock (h : k.Placed t) (hc : k.manages c = true) (hd : k.manages d = true)
    (ho : k.ownerOf t = some d) {a : Bool} (ha : a = (Effect.startThread c t (k.setOwner t none)).2)
    (hk : k' = Effect.notifyKilled d t
      ((Effect.startThread c t (k.setOwner t none)).1.terminate d t)) :
    k.AfterBoth c d t k' ↔ ¬ (a = true ∧ (.ok () : Outcome Unit) = .ok ()) := by
  have ht : t < k.threads.length := lt_length_of_ownerOf ho
  have ht' : t < (k.setOwner t none).threads.length :=
    Nat.lt_of_lt_of_eq ht (k.length_threads_updateThread t _).symm
  have hs : (k.setOwner t none).stateOf t ≠ .terminated := by
    rw [stateOf_setOwner]
    exact h.owned d ho
  rw [startThread_of_not_terminated c hs,
    enroll_of_unowned c (k.ownerOf_setOwner_self none ht)] at ha hk
  refine ⟨fun hboth => ?_, fun hnot => absurd ⟨ha, rfl⟩ hnot⟩
  -- the kill sets the state and leaves the owner, who is now the core that started the thread
  have hiff := (h.settled_of_afterBoth hc hd hboth).owner_iff
  have howner : k'.ownerOf t = some c := by
    rw [hk, ownerOf_notifyKilled]
    exact (ownerOf_setState _ t t .terminated).trans ((ownerOf_makeReady _ c t t).trans
      (ownerOf_setOwner_self _ (some c) ht'))
  rw [howner] at hiff
  exact nomatch hiff.mpr (terminated_of_afterBoth ho hboth)

/-- A start between the end of the thread and the notice to the core is refused. -/
theorem started_after_end (ho : k.ownerOf t = some d) {a : Bool}
    (ha : a = (Effect.startThread c t ((k.setOwner t none).terminate d t)).2)
    (hr : (((k.setOwner t none).terminate d t).queues d).running = some t)
    (hk : k' = Effect.requestYield d
      (Effect.startThread c t ((k.setOwner t none).terminate d t)).1) :
    k.AfterBoth c d t k' ↔ ¬ (a = true ∧ (.ok () : Outcome Unit) = .ok ()) := by
  have ht' : t < (k.setOwner t none).threads.length :=
    Nat.lt_of_lt_of_eq (lt_length_of_ownerOf ho) (k.length_threads_updateThread t _).symm
  have hended : ((k.setOwner t none).terminate d t).stateOf t = .terminated :=
    stateOf_setState_self _ .terminated ht'
  rw [startThread_of_terminated c hended] at ha hk
  refine ⟨fun _ hboth => ?_, fun _ => .inl ?_⟩
  · rw [ha] at hboth
    cases hboth.1
  · rw [startThread_of_owned c (ho ▸ Option.some_ne_none d), killThread_of_owned ho]
    exact hk.trans (if_pos hr).symm

end Kernel

namespace Call

variable {i j c d : CoreId} {t : ThreadId} {m n : Machine G} {nested a : Bool} {b : Outcome Unit}

/-- A call with an effect, carried out while another core executes, has that effect. -/
theorem Does.between {x : Call G β} {f : Effect G β} (hx : x.Does j f) (m m' : Machine G) (b : β)
    (h : Between j x m m' b) : m'.chip.current = m.chip.current ∧ (m'.kernel, b) = f m.kernel := by
  obtain ⟨n, hrests, rfl⟩ := h
  obtain ⟨-, hk, hb⟩ := hx (m := m.on j) rfl hrests
  exact ⟨rfl, Prod.ext hk (Sum.inl.inj hb)⟩

/-- **Any order of the two.** The state is that of one of the sequential orders, unless one call
came in at a window of the other and both succeeded. -/
theorem Interleaved.afterBoth_iff
    (h : Interleaved i j (startThread c t) (killThread d t) m nested n a b)
    (hm : m.kernel.Placed t) (hc : m.kernel.manages c = true) (hd : m.kernel.manages d = true) :
    m.kernel.AfterBoth c d t n.kernel ↔ ¬ (nested = true ∧ a = true ∧ b = .ok ()) := by
  cases h with
  | inTurn first second =>
    obtain ⟨-, hk, -⟩ := does_startThread c t (m := m.on i) rfl first
    obtain ⟨-, hn, -⟩ := does_killThread d t (m := Machine.on _ j) rfl second
    refine ⟨nofun, fun _ => .inl (hn.trans ?_)⟩
    exact congrArg (fun k => (Effect.killThread d t k).1) hk
  | inReverse first second =>
    obtain ⟨-, hk, -⟩ := does_killThread d t (m := m.on j) rfl first
    obtain ⟨-, hn, -⟩ := does_startThread c t (m := Machine.on _ i) rfl second
    refine ⟨nofun, fun _ => .inr (hn.trans ?_)⟩
    exact congrArg (fun k => (Effect.startThread c t k).1) hk
  | within crossed =>
    rw [and_iff_right rfl]
    obtain ⟨-, hs, hcases⟩ :=
      crosses_startThread c t (does_killThread d t).between (m := m.on i) rfl crossed
    rcases hcases with ⟨hb, hk⟩ | ⟨ho, rfl, hb, hk⟩
    · exact Kernel.killed_before_claim hs hb hk
    · exact Kernel.killed_before_lock hm hc hd hs ho hb hk
  | around crossed =>
    rw [and_iff_right rfl]
    obtain ⟨-, ho, rfl, hcases⟩ :=
      crosses_killThread d t (does_startThread c t).between (m := m.on j) rfl crossed
    rcases hcases with ⟨ha, hk⟩ | ⟨ha, hr, hk⟩
    · exact Kernel.started_before_lock hm hc hd ho ha hk
    · exact Kernel.started_after_end ho ha hr hk

end Call

/-- **When start and kill are atomic.** At any point of a run from a boot, let a thread have been
put aside only while it was runnable, and let it be started by one core and killed by another or the
same, one after the other or one at a window of the other. The state is then that of one of the
sequential orders, with the thread settled, if and only if they did not both succeed with one at a
window of the other. -/
theorem start_kill_atomic_iff {m n : Machine G} {s : System G} {past : List (Segment G)}
    {t : ThreadId} {c d i j : CoreId} {nested a : Bool} {b : Outcome Unit} (booted : m.Booted)
    (reached : System.Runs ⟨m, []⟩ past s)
    (hp : ∀ seg ∈ past, seg.Parks t → (seg.before.stateOf t).IsRunnable)
    (hc : s.machine.kernel.manages c = true) (hd : s.machine.kernel.manages d = true)
    (h : Call.Interleaved i j (Call.startThread c t) (Call.killThread d t) s.machine nested n a b) :
    s.machine.kernel.AfterBoth c d t n.kernel ∧ n.kernel.Settled t ↔
      ¬ (nested = true ∧ a = true ∧ b = .ok ()) := by
  have hplaced := reached.placed booted hp
  rw [← h.afterBoth_iff hplaced hc hd]
  exact and_iff_left_of_imp (hplaced.settled_of_afterBoth hc hd)

/-- A thread that was made on a machine of two cores, and not started. -/
def makeThread : List (CoreId × Op ⟨Unit, Unit⟩) := [(0, .createThread () "worker")]

/-- A kill on behalf of a core that does not own the thread, between the claim and the lock of a
start, is refused, and the thread is started. -/
theorem foreign_kill_is_atomic : ∃ m past s n b,
    Machine.boot? { processors := 2 } {} = some m ∧
    System.play ⟨m, []⟩ makeThread = some (past, s) ∧
    Call.Interleaved 0 1 (Call.startThread 0 2) (Call.killThread 1 2) s.machine true n true b ∧
    s.machine.kernel.AfterBoth 0 1 2 n.kernel ∧ n.kernel.Settled 2 := by
  obtain ⟨m, past, s, -, -, hm, hplay, -, htest⟩ := System.exists_play { processors := 2 } {}
    makeThread []
    (fun past s _ _ => past.all (·.parked.isNone) && s.machine.kernel.manages 0 &&
      s.machine.kernel.manages 1 &&
      (Call.crossed? 0 1 (Call.startThread 0 2) (Call.killThread 1 2) s.machine 1).any
        fun (_, a, b) => a && !b.isOk) (by decide +kernel)
  simp only [Bool.and_eq_true, List.all_eq_true, Option.any_eq_true] at htest
  obtain ⟨⟨⟨hpast, h0⟩, h1⟩, ⟨n, a, b⟩, hcross, rfl, hb⟩ := htest
  have hcross := Call.interleaved_of_crossed? hcross
  refine ⟨m, past, s, n, b, hm, hplay, hcross, (start_kill_atomic_iff (Machine.booted_of_boot? hm)
    (System.runs_of_play hplay) (fun seg hseg hparks => ?_) h0 h1 hcross).mpr ?_⟩
  · obtain ⟨c, hc, -⟩ := hparks
    have hnone := hpast seg hseg
    rw [hc] at hnone
    cases hnone
  · rintro ⟨-, -, rfl⟩
    cases hb

/-- **A thread that is started and killed.** A kill between the claim and the lock of a start leaves
the thread ready and in the rotation, without an owner. -/
theorem started_while_killed : ∃ m past s n b,
    Machine.boot? { processors := 2 } {} = some m ∧
    System.play ⟨m, []⟩ makeThread = some (past, s) ∧
    Call.Interleaved 0 1 (Call.startThread 0 2) (Call.killThread 0 2) s.machine true n true b ∧
    n.kernel.stateOf 2 = .ready ∧ n.kernel.ownerOf 2 = none ∧ 2 ∈ (n.kernel.queues 0).ready ∧
    ¬ n.kernel.Settled 2 := by
  obtain ⟨m, past, s, -, -, hm, hplay, -, htest⟩ := System.exists_play { processors := 2 } {}
    makeThread []
    (fun _ s _ _ => (Call.crossed? 0 1 (Call.startThread 0 2) (Call.killThread 0 2) s.machine 1).any
      fun (n, a, _) => a && (decide (n.kernel.stateOf 2 = .ready) &&
        (decide (n.kernel.ownerOf 2 = none) && (n.kernel.queues 0).ready.contains 2)))
    (by decide +kernel)
  simp only [Bool.and_eq_true, Option.any_eq_true, decide_eq_true_eq,
    List.contains_iff_mem] at htest
  obtain ⟨⟨n, a, b⟩, hcross, rfl, hstate, howner, hmem⟩ := htest
  refine ⟨m, past, s, n, b, hm, hplay, Call.interleaved_of_crossed? hcross, hstate, howner, hmem,
    fun hsettled => ?_⟩
  have hended := hsettled.owner_iff.mp howner
  rw [hstate] at hended
  cases hended

end Nucleus
