import Nucleus.Proofs.Interrupts
import Nucleus.Proofs.Locality

/-!
# Cores are isolated

The scheduler of a core changes its own core and its own threads: those that it owns, the one in its
slot, and the one it is about to take. Where threads are placed and none stands in the slots of two
cores, these are threads of no other core, and so what the schedulers of two cores do is made in
either order.

A thread that an operation names may be in the hands of another core. The operation is refused then,
and is refused whatever that core does with the thread: a thread that has an owner keeps it, or ends
and is never started again. That is why a refusal needs no look at the thread, and why a thread must
not be put aside once it has been killed: it would seem to live, and could be started.

* `Kernel.Reach` are the threads that an operation of a scheduler touches at most.
* `Kernel.Apart` is the invariant that keeps the threads of cores apart.
* `Op.exists_local` says that every operation of a scheduler is local.
* `cores_are_isolated` is the main result.
-/

namespace Nucleus

variable {G : Guest}

/-- The core whose scheduler the operation is one of. -/
def Op.scheduler? : Op G → Option CoreId
  | startThread c _ | killThread c _ | delay c _ | undelay c _ | yieldThread c _ | onTick c _
  | bootstrap c => some c
  | _ => none

/-- The thread that an operation of a scheduler is given; a bootstrap is given the idle thread. -/
def Op.argument? (k : Kernel G) : Op G → Option ThreadId
  | startThread _ t | killThread _ t | undelay _ t => some t
  | bootstrap c => k.idleOf? c
  | _ => none

namespace Kernel

variable {k k' : Kernel G} {c d : CoreId} {t : ThreadId} {o o' : Option ThreadId}

/-! ## The threads of a core -/

/-- May the thread be started? -/
def Startable (k : Kernel G) (t : ThreadId) : Prop :=
  k.stateOf t ≠ .terminated ∧ k.ownerOf t = none

/-- The threads that an operation of the core's scheduler touches at most: those that the core owns,
the one in its slot, and the one that it is given, if it may be started. -/
def Reach (k : Kernel G) (c : CoreId) (o : Option ThreadId) (t : ThreadId) : Prop :=
  k.ownerOf t = some c ∨ (k.queues c).running = some t ∨ o = some t ∧ k.Startable t

namespace Placed

/-- A thread that stands in a queue of the core is in its reach. -/
theorem reach (h : k.Placed t) {i : Queue} (hm : t ∈ (k.queues c).threads i) : k.Reach c o t :=
  .inl (h.of_mem hm).1

/-- A thread in a slot cannot be started. -/
theorem not_startable (h : k.Placed t) (hr : (k.queues c).running = some t) : ¬ k.Startable t := by
  rintro ⟨hs, hnone⟩
  rcases h.slot c hr with ho | ⟨hended, -⟩
  · exact nomatch hnone.symm.trans ho
  · exact hs hended

/-- A thread of another core is out of reach. -/
theorem not_reach (h : k.Placed t) (ho : k.ownerOf t = some d) (hcd : c ≠ d) :
    ¬ k.Reach c o t := by
  rintro (hc | hr | ⟨-, -, hnone⟩)
  · exact hcd (Option.some.inj (hc.symm.trans ho))
  · rcases h.slot c hr with hc | ⟨hs, -⟩
    · exact hcd (Option.some.inj (hc.symm.trans ho))
    · exact h.owned d ho hs
  · exact nomatch hnone.symm.trans ho

theorem lt_length (h : k.Placed t) (hr : k.Reach c o t) : t < k.threads.length := by
  rcases hr with ho | hr | ⟨-, hs, -⟩
  · exact lt_length_of_ownerOf ho
  · rcases h.slot c hr with ho | ⟨-, hlt⟩
    · exact lt_length_of_ownerOf ho
    · exact hlt
  · exact lt_length_of_stateOf hs

end Placed

/-- Every thread is placed, and none stands in the slots of two cores. -/
structure Apart (k : Kernel G) : Prop where
  /-- threads are placed -/
  placed : ∀ t, k.Placed t
  /-- slots are for different threads -/
  alone : ∀ {c d t}, (k.queues c).running = some t → (k.queues d).running = some t → c = d

namespace Apart

/-- **Two cores reach no thread both**, if they are given different ones. -/
theorem disjoint (h : k.Apart) (hcd : c ≠ d) (harg : ∀ t, o = some t → o' ≠ some t) :
    ∀ t, k.Reach c o t → ¬ k.Reach d o' t := by
  rintro t (ho | hr | ⟨hc, hs⟩) hreach
  · exact (h.placed t).not_reach ho hcd.symm hreach
  · rcases hreach with ho | hr' | ⟨-, hs⟩
    · exact (h.placed t).not_reach ho hcd (.inr (.inl hr) : k.Reach c none t)
    · exact hcd (h.alone hr hr')
    · exact (h.placed t).not_startable hr hs
  · rcases hreach with ho | hr | ⟨hd, -⟩
    · exact nomatch hs.2.symm.trans ho
    · exact (h.placed t).not_startable hr hs
    · exact harg t hc hd

/-- Threads stay apart if they stay placed and a core that has another thread in its slot than
before owns that thread. -/
theorem of_slots (h : k.Apart) (placed : ∀ t, k'.Placed t)
    (hslot : ∀ c t, (k'.queues c).running = some t →
      (k.queues c).running = some t ∨ k'.ownerOf t = some c) : k'.Apart := by
  refine ⟨placed, fun {c d t} hc hd => ?_⟩
  -- a core with the thread in its slot that another one owns would find it ended
  have howned {c d : CoreId} (ho : k'.ownerOf t = some c) (hd : (k'.queues d).running = some t) :
      c = d := by
    rcases (placed t).slot d hd with ho' | ⟨hended, -⟩
    · exact Option.some.inj (ho.symm.trans ho')
    · exact absurd hended ((placed t).owned c ho)
  rcases hslot c t hc with hc' | ho
  · rcases hslot d t hd with hd' | ho
    · exact h.alone hc' hd'
    · exact (howned ho hc).symm
  · exact howned ho hd

theorem unswitched (h : k.Apart) (placed : ∀ t, k'.Placed t) (hk : k.Unswitched k') :
    k'.Apart :=
  h.of_slots placed fun c _ hr => .inl (hk.slot c ▸ hr)

/-- A core switches to a thread of its rotation. -/
theorem turn (h : k.Apart) (c : CoreId) (x : Context) :
    (Effect.yieldThread c x k).1.Apart := by
  refine h.of_slots (fun t => ((h.placed t).turn c x).placed) fun d t hr => ?_
  rcases k.turn_cases c x with ⟨-, hk⟩ | ⟨next, hnext, hc, hk⟩
  · rw [hk] at hr
    exact .inl hr
  · rw [hk] at hr ⊢
    rw [running_switchTo _ hc] at hr
    split at hr
    next hcd =>
      subst hcd
      obtain rfl := Option.some.inj hr
      refine .inr ((ownerOf_setState _ next next .running).trans ?_)
      rw [ownerOf_interruptRunning]
      exact ((h.placed next).of_mem (i := .ready) hnext).1
    next =>
      rw [queues_interruptRunning] at hr
      exact .inl hr

/-- A core switches to the head of its rotation. -/
theorem install (h : k.Apart) (hc : k.manages c = true) : (Effect.install c k).1.Apart := by
  refine h.of_slots (fun t => ((h.placed t).install c).placed) fun d t hr => ?_
  cases hh : (k.queues c).ready.head? with
  | none =>
    simp only [Effect.install, Effect.switchFirst] at hr
    rw [hh] at hr
    exact .inl hr
  | some u =>
    rw [running_install hc hh] at hr
    split at hr
    next hcd =>
      subst hcd
      obtain rfl := Option.some.inj hr
      have ho : (Effect.install c k).1.ownerOf u = k.ownerOf u := by
        simp only [Effect.install, Effect.switchFirst]
        rw [hh]
        exact ownerOf_setState k u u .running
      exact .inr (ho.trans ((h.placed u).of_mem (i := .ready) (List.mem_of_head? hh)).1)
    next => exact .inl hr

/-- **Every change keeps the threads of cores apart.** -/
theorem apply (h : k.Apart) {ch : Change G} (enabled : ch.Enabled k) : (ch.apply k).Apart := by
  have placed : ∀ t, (ch.apply k).Placed t := fun t => ((h.placed t).apply enabled).placed
  by_cases hturn : ∃ c x, ch = .turn c x
  · obtain ⟨c, x, rfl⟩ := hturn
    exact h.turn c x
  · by_cases hboot : ∃ c, ch = .bootstrap c
    · obtain ⟨c, rfl⟩ := hboot
      have hprepared : (Effect.prepare c k).Apart :=
        h.unswitched (fun t => ((h.placed t).prepare enabled.1).placed) (.prepare enabled.1)
      exact hprepared.install (((Adjusts.refl.prepare c).manages c).trans enabled.1)
    · refine h.unswitched placed (unswitched_apply enabled ?_ ?_)
      · exact fun c x hch => hturn ⟨c, x, hch⟩
      · exact fun c hch => hboot ⟨c, hch⟩

theorem path (h : k.Apart) {admits : Change G → Prop} (path : Path admits k k') : k'.Apart :=
  path.keeps (I := Apart) (fun _ _ _ enabled hk => hk.apply enabled) h

end Apart

theorem Fresh.apart (h : k.Fresh) : k.Apart := by
  refine ⟨h.placed, fun {c d t} hc _ => ?_⟩
  rw [h.queues] at hc
  cases hc

end Kernel

/-- A segment keeps the threads of cores apart, if it puts nobody aside who is not runnable. -/
theorem Segment.Sound.apart {seg : Segment G} (hseg : seg.Sound)
    (hp : ∀ t, seg.Parks t → (seg.before.stateOf t).IsRunnable) (h : seg.before.Apart) :
    seg.after.Apart := by
  obtain ⟨k, path, rfl | ⟨c, wake, hparked, rfl⟩⟩ := hseg.exists_path
  · exact h.path path
  · refine (h.unswitched (fun t => ?_) (.setAside _ c wake)).path path
    exact ((h.placed t).setAside wake fun hr => hp t ⟨c, hparked, hr⟩).placed

/-- A run keeps the threads of cores apart. -/
theorem System.Runs.apart {m : Machine G} {s : System G} {past : List (Segment G)}
    (booted : m.Booted) (run : Runs ⟨m, []⟩ past s)
    (hp : ∀ seg ∈ past, ∀ t, seg.Parks t → (seg.before.stateOf t).IsRunnable) :
    s.machine.kernel.Apart :=
  (run.keeps (I := Kernel.Apart) forall_tasks_start hp
    (fun _ hp hseg h => hseg.apart hp h) booted.fresh.apart).1

/-! ## What the scheduler of a core can tell -/

namespace Kernel

variable {k k' : Kernel G} {c d : CoreId} {t : ThreadId} {o : Option ThreadId}

/-- The scheduler of the core, given this thread, finds in `k'` what it finds in `k`: its core and
the threads in its reach, nobody else who is its own, and a thread that may be started only if it
might before. -/
structure SameFor (c : CoreId) (o : Option ThreadId) (k k' : Kernel G) : Prop where
  /-- the same cores are managed -/
  manages : ∀ d, k'.manages d = k.manages d
  /-- what is in its reach is the same -/
  alike : Alike c (k.Reach c o) k k'
  /-- nobody has come to the core -/
  owned : ∀ t, k'.ownerOf t = some c → k.ownerOf t = some c
  /-- the thread it is given has not become startable -/
  startable : ∀ t, o = some t → k'.Startable t → k.Startable t

namespace SameFor

theorem refl (c : CoreId) (o : Option ThreadId) (k : Kernel G) : k.SameFor c o k :=
  ⟨fun _ => rfl, .refl c _ k, fun _ h => h, fun _ _ h => h⟩

theorem startable_iff (h : SameFor c o k k') (ho : o = some t) :
    k'.Startable t ↔ k.Startable t := by
  refine ⟨h.startable t ho, fun hs => ?_⟩
  have hreach : k.Reach c o t := .inr (.inr ⟨ho, hs⟩)
  exact ⟨h.alike.stateOf hreach ▸ hs.1, h.alike.ownerOf hreach ▸ hs.2⟩

theorem owned_iff (h : SameFor c o k k') : k'.ownerOf t = some c ↔ k.ownerOf t = some c :=
  ⟨h.owned t, fun ho => (h.alike.ownerOf (.inl ho)).trans ho⟩

end SameFor

/-- **What happens out of its reach** a scheduler does not find, if threads stay placed, with an
owner or ended: a thread that could not be started cannot be started now. -/
theorem Touches.sameFor {T : ThreadId → Prop} (h : Touches c T k k') (hcd : c ≠ d)
    (disjoint : ∀ t, T t → ¬ k.Reach d o t) (length : ∀ t, T t → t < k.threads.length)
    (carries : ∀ t, k.Carries k' t) : SameFor d o k k' := by
  refine ⟨h.manages, h.alike hcd disjoint, fun t => h.owner t d hcd.symm, fun t _ hs => ?_⟩
  by_cases ht : T t
  · refine ⟨fun hended => hs.1 ((carries t).ended hended (length t ht)).1, ?_⟩
    refine Classical.byContradiction fun ho => ?_
    rcases (carries t).owned ho with ho' | hended
    · exact ho' hs.2
    · exact hs.1 hended
  · have hsame := h.threads t ht
    simp only [Startable, stateOf, ownerOf] at hs ⊢
    rwa [hsame] at hs

end Kernel

/-! ## Operations of a scheduler are local -/

namespace Effect

open Kernel (SameFor)

variable {k : Kernel G} {c : CoreId} {t : ThreadId}

theorem startThread_of_startable (c : CoreId) (h : k.Startable t) :
    startThread c t k = ((k.setOwner t (some c)).makeReady c t, true) := by
  simp only [startThread]
  rw [if_neg h.1, if_pos (Option.isNone_iff_eq_none.mpr h.2)]

theorem startThread_of_not_startable (c : CoreId) (h : ¬ k.Startable t) :
    startThread c t k = (k, false) := by
  simp only [startThread]
  split
  · rfl
  next hs =>
    rw [if_neg]
    exact fun ho => h ⟨hs, Option.isNone_iff_eq_none.mp ho⟩

theorem exists_local_startThread (k : Kernel G) (c : CoreId) (t : ThreadId) :
    ∃ g, Local g c (k.Reach c (some t)) k ∧
      ∀ k', k.SameFor c (some t) k' → startThread c t k' = g k' := by
  by_cases hs : k.Startable t
  · refine ⟨_, .const (Kernel.local_start (.inr (.inr ⟨rfl, hs⟩))) true, fun k' h => ?_⟩
    exact startThread_of_startable c ((h.startable_iff rfl).mpr hs)
  · refine ⟨_, .const (.id c _ k) false, fun k' h => ?_⟩
    exact startThread_of_not_startable c (mt (h.startable_iff rfl).mp hs)

theorem exists_local_killThread (k : Kernel G) (c : CoreId) (t : ThreadId) :
    ∃ g, Local g c (k.Reach c (some t)) k ∧
      ∀ k', k.SameFor c (some t) k' → killThread c t k' = g k' := by
  by_cases ho : k.ownerOf t = some c
  · refine ⟨_, .const ((Kernel.local_notifyKilled t).comp (Kernel.local_end (.inl ho))) (.ok ()),
      fun k' h => ?_⟩
    simp only [killThread]
    rw [if_pos (h.owned_iff.mpr ho)]
    rfl
  · refine ⟨_, .const (.id c _ k) (.error .invalidOperation), fun k' h => ?_⟩
    simp only [killThread]
    rw [if_neg (mt h.owned_iff.mp ho)]

theorem local_delay (k : Kernel G) (c : CoreId) (span : TimeSpan) (o : Option ThreadId) :
    Local (delay c span) c (k.Reach c o) k := by
  have hslot (t : ThreadId) (hr : (k.queues c).running = some t) : k.Reach c o t := .inr (.inl hr)
  by_cases hn : span.isNegative
  · refine (Local.const (.id c _ k) (.error .argumentOutOfRange)).congr fun k' _ => ?_
    simp only [delay]
    rw [if_pos hn]
  · by_cases hz : span.isZero
    · refine (Local.const Kernel.local_requestYield (.ok ())).congr fun k' _ => ?_
      simp only [delay]
      rw [if_neg hn, if_pos hz]
    · have hpark := Kernel.local_requestYield.comp (Kernel.local_park hslot span)
      refine (Local.const hpark (.ok ())).congr fun k' _ => ?_
      simp only [delay]
      rw [if_neg hn, if_neg hz]

theorem local_undelay (placed : ∀ t, k.Placed t) (c : CoreId) (t : ThreadId)
    (o : Option ThreadId) : Local (undelay c t) c (k.Reach c o) k := by
  cases hp : (k.queues c).isParked t with
  | false =>
    refine (Local.const (.id c _ k) false).congr fun k' h => ?_
    simp only [undelay]
    rw [h.queues, hp]
    rfl
  | true =>
    have ht : k.Reach c o t := (placed t).reach (RunQueues.mem_parkedIn hp)
    refine (Local.const (Kernel.local_wake ht) true).congr fun k' h => ?_
    simp only [undelay]
    rw [h.queues, hp]
    rfl

/-- A switch of a core whose threads are those of an earlier state. -/
theorem local_turn {k₁ : Kernel G} {o : Option ThreadId} (placed : ∀ t, k₁.Placed t)
    (hslot : (k₁.queues c).running = (k.queues c).running)
    (howner : ∀ t, k₁.ownerOf t = some c → k.Reach c o t) (x : Context) :
    Local (yieldThread c x) c (k.Reach c o) k₁ := by
  refine local_yieldThread (fun t hr => ?_) (fun t ht => ?_) x
  · exact .inr (.inl (hslot ▸ hr))
  · exact howner t ((placed t).of_mem (i := .ready) ht).1

theorem local_onTick (placed : ∀ t, k.Placed t) (c : CoreId) (x : Context)
    (o : Option ThreadId) : Local (onTick c x) c (k.Reach c o) k := by
  cases htick : (k.queues c).canTick with
  | false =>
    refine (Local.const (.id c _ k) 0).congr fun k' h => ?_
    simp only [onTick]
    rw [h.queues, htick]
    rfl
  | true =>
    have hsleep (t : ThreadId) (ht : t ∈ (k.queues c).threads .delayed) : k.Reach c o t :=
      (placed t).reach ht
    have hturn : Local (yieldThread c x) c (k.Reach c o) (k.advance c) :=
      local_turn (fun t => ((placed t).advance c).placed) (k.running_advance c c)
        (fun t ho => .inl (k.ownerOf_advance c t ▸ ho)) x
    refine (hturn.after (Kernel.local_advance hsleep)).congr fun k' h => ?_
    simp only [onTick]
    rw [h.queues, htick, if_pos rfl]

/-- What becomes of a core that is about to be started is local, and a thread that the core owns
then it owned before, or it is the idle thread. -/
theorem exists_local_prepare (k : Kernel G) (c : CoreId) :
    ∃ g, Kernel.Local g c (k.Reach c (k.idleOf? c)) k ∧
      (∀ k', k.SameFor c (k.idleOf? c) k' → prepare c k' = g k') ∧
      ∀ t, (prepare c k).ownerOf t = some c → k.Reach c (k.idleOf? c) t := by
  let mark (k : Kernel G) : Kernel G := k.updateCore c fun core => { core with started := true }
  have hmark {T : ThreadId → Prop} : Kernel.Local mark c T k := .updateCore _
  have hidle (k : Kernel G) : (mark k).idleOf? c = k.idleOf? c := by
    simp only [Kernel.idleOf?, mark]
    rw [Kernel.getElem?_cores_updateCore, if_pos rfl, Option.map_map]
    rfl
  by_cases hs : ∃ idle, k.idleOf? c = some idle ∧ k.Startable idle
  · obtain ⟨idle, hi, hs⟩ := hs
    have hprepare (k' : Kernel G) (h : k.SameFor c (k.idleOf? c) k') :
        prepare c k' = ((mark k').setOwner idle (some c)).makeReady c idle := by
      have hs' : (mark k').Startable idle := (h.startable_iff hi).mpr hs
      simp only [prepare, bringIdle]
      rw [hidle, h.alike.idleOf?, hi]
      exact congrArg Prod.fst (startThread_of_startable c hs')
    refine ⟨_, (Kernel.local_start (.inr (.inr ⟨hi, hs⟩))).comp hmark, hprepare, fun t ho => ?_⟩
    rw [hprepare k (.refl c _ k)] at ho
    by_cases hne : idle = t
    · exact .inr (.inr (hne ▸ ⟨hi, hs⟩))
    · refine .inl (((mark k).ownerOf_setOwner_of_ne (some c) hne).symm.trans ?_)
      exact (Kernel.ownerOf_setState _ idle t .ready).symm.trans ho
  · have hprepare (k' : Kernel G) (h : k.SameFor c (k.idleOf? c) k') : prepare c k' = mark k' := by
      simp only [prepare, bringIdle]
      rw [hidle, h.alike.idleOf?]
      cases hi : k.idleOf? c with
      | none => rfl
      | some idle =>
        have hs' : ¬ (mark k').Startable idle := by
          intro hs'
          exact hs ⟨idle, hi, (h.startable_iff hi).mp hs'⟩
        exact congrArg Prod.fst (startThread_of_not_startable c hs')
    refine ⟨mark, hmark, hprepare, fun t ho => .inl ?_⟩
    rw [hprepare k (.refl c _ k)] at ho
    exact ho

theorem exists_local_bootstrap (placed : ∀ t, k.Placed t) (hc : k.manages c = true) :
    ∃ g, Local g c (k.Reach c (k.idleOf? c)) k ∧
      ∀ k', k.SameFor c (k.idleOf? c) k' → bootstrap c k' = g k' := by
  cases hb : k.isStarted c with
  | true =>
    refine ⟨_, .const (.id c _ k) (.error .invalidOperation), fun k' h => ?_⟩
    simp only [bootstrap]
    rw [h.alike.isStarted, hb]
    rfl
  | false =>
    obtain ⟨g, hg, hprepare, howner⟩ := exists_local_prepare k c
    have hk : prepare c k = g k := hprepare k (.refl c _ k)
    have hinstall : Local (install c) c (k.Reach c (k.idleOf? c)) (g k) := by
      refine local_install fun t ht => howner t ?_
      rw [← hk] at ht
      have hplaced : (prepare c k).Placed t := ((placed t).prepare hc).placed
      exact (hplaced.of_mem (i := .ready) (List.mem_of_head? ht)).1
    refine ⟨_, hinstall.after hg, fun k' h => ?_⟩
    simp only [bootstrap]
    rw [h.alike.isStarted, hb, hprepare k' h]
    rfl

end Effect

namespace Op

open Kernel (SameFor Alike Touches)

variable {op : Op G} {f : Effect G op.Result} {here : CoreId} {k k' : Kernel G} {c : CoreId}

/-- **Every operation of a scheduler is local** to its core and its reach: an operation that names a
thread out of reach is refused, whatever has become of that thread. -/
theorem exists_local (hop : op.scheduler? = some c) (hf : op.effect here = some f)
    (valid : op.Valid k) (placed : ∀ t, k.Placed t) :
    ∃ g : Effect G op.Result, g.Local c (k.Reach c (op.argument? k)) k ∧
      ∀ k', k.SameFor c (op.argument? k) k' → f k' = g k' := by
  cases op with
  | startThread d t =>
    cases hop
    cases hf
    exact Effect.exists_local_startThread k c t
  | killThread d t =>
    cases hop
    cases hf
    exact Effect.exists_local_killThread k c t
  | delay d span =>
    cases hop
    cases hf
    exact ⟨_, Effect.local_delay k c span none, fun _ _ => rfl⟩
  | undelay d t =>
    cases hop
    cases hf
    exact ⟨_, Effect.local_undelay placed c t (some t), fun _ _ => rfl⟩
  | yieldThread d x =>
    cases hop
    cases hf
    exact ⟨_, Effect.local_turn placed rfl (fun _ => .inl) x, fun _ _ => rfl⟩
  | onTick d x =>
    cases hop
    cases hf
    exact ⟨_, Effect.local_onTick placed c x none, fun _ _ => rfl⟩
  | bootstrap d =>
    cases hop
    cases hf
    exact Effect.exists_local_bootstrap placed valid
  | _ => cases hop

/-- What an operation of a scheduler does where its scheduler finds the same: it touches no more
than its core and its reach, answers the same, and makes the same of them. -/
theorem same_effect (hop : op.scheduler? = some c) (hf : op.effect here = some f)
    (valid : op.Valid k) (placed : ∀ t, k.Placed t) (h : k.SameFor c (op.argument? k) k') :
    Touches c (k.Reach c (op.argument? k)) k' (f k').1 ∧ (f k').2 = (f k).2 ∧
      Alike c (k.Reach c (op.argument? k)) (f k).1 (f k').1 := by
  obtain ⟨g, hg, heq⟩ := exists_local hop hf valid placed
  rw [heq k (.refl c _ k), heq k' h]
  exact ⟨hg.change.touches k' h.alike, hg.answer k' h.alike, hg.change.alike k' h.alike⟩

theorem touches_effect (hop : op.scheduler? = some c) (hf : op.effect here = some f)
    (valid : op.Valid k) (placed : ∀ t, k.Placed t) :
    Touches c (k.Reach c (op.argument? k)) k (f k).1 :=
  (same_effect hop hf valid placed (.refl c _ k)).1

/-- An operation of a scheduler puts nobody aside but on its own core. -/
theorem eq_of_parks {a : op.Result} (hop : op.scheduler? = some c) {d : CoreId}
    (h : op.parks here a = some d) : d = c := by
  cases op with
  | delay e span =>
    cases hop
    simp only [parks, Effect.delayParks] at h
    cases a with
    | error why => cases h
    | ok u =>
      dsimp only at h
      split at h
      · cases h
      · exact (Option.some.inj h).symm
  | startThread | killThread | undelay | yieldThread | onTick | bootstrap => cases h
  | _ => cases hop

end Op

/-! ## Operations that return -/

/-- A delay that returns is refused, or a plain yield, or has found somebody to put aside. -/
theorem Call.running_of_rests_delay {c : CoreId} {span : TimeSpan} {m n : Machine G}
    {r : Outcome Unit ⊕ Call G (Outcome Unit)} (h : (delay c span m).Rests false n r) :
    span.isNegative ∨ span.isZero ∨ (m.kernel.queues c).running ≠ none := by
  by_cases hn : span.isNegative
  · exact .inl hn
  · cases hz : span.isZero with
    | true => exact .inr (.inl rfl)
    | false =>
      refine .inr (.inr fun hr => ?_)
      simp only [delay, hn, hz] at h
      rcases Run.rests_bind.mp h with ⟨_, _, hlocked, -⟩ | ⟨_, hlocked, -⟩
      · obtain ⟨m', n', hm', hpark⟩ := rests_locked hlocked
        simp only [park] at hpark
        rw [bind_of_done (read_apply _ m'), hm', hr] at hpark
        exact Run.rests_halt.mp hpark
      · obtain ⟨-, -, hrest⟩ := does_locked (.queues c) (does_park c span) rfl hlocked
        cases hrest

namespace Op

open Kernel (SameFor)

/-- Has the operation of a scheduler no reason to stop for good? A delay that is no plain yield
needs somebody in the slot, a switch somebody to switch to, and a tick must be counted. -/
def Proceeds (k : Kernel G) : Op G → Prop
  | delay c span => span.isNegative ∨ span.isZero ∨ (k.queues c).running ≠ none
  | yieldThread c _ => (k.queues c).successor ≠ none
  | onTick c _ => (k.queues c).canTick = true ∧ ((k.advance c).queues c).successor ≠ none
  | _ => True

variable {op : Op G} {m n : Machine G} {k k' : Kernel G} {c : CoreId}

theorem proceeds_of_rests {r : op.Result ⊕ Call G op.Result}
    (h : (op.call m).Rests false n r) : op.Proceeds m.kernel := by
  cases op with
  | delay c span => exact Call.running_of_rests_delay h
  | yieldThread c x => exact Call.successor_of_rests_yieldThread h
  | onTick c x => exact Call.successor_of_rests_onTick h
  | _ => exact trivial

theorem returns_of_proceeds (hop : op.scheduler? = some c) (free : m.chip.held = [])
    (h : op.Proceeds m.kernel) : (op.call m).Returns := by
  have hfree (l : Lock) : l ∉ m.chip.held := free ▸ List.not_mem_nil
  cases op with
  | delay c span => exact Call.returns_delay h (hfree _) (hfree _)
  | yieldThread c x => exact Call.returns_yieldThread x free h
  | onTick c x => exact Call.returns_onTick x free h.1 h.2
  | startThread | killThread | undelay | bootstrap =>
    exact returns_call rfl free rfl (not_mayStop nofun nofun (fun _ => id) id nofun)
  | _ => cases hop

/-- Whether it proceeds is decided by what its scheduler finds. -/
theorem proceeds_iff (hop : op.scheduler? = some c) (placed : ∀ t, k.Placed t)
    (h : k.SameFor c (op.argument? k) k') : op.Proceeds k' ↔ op.Proceeds k := by
  have hq := h.alike.queues
  cases op with
  | delay d span =>
    cases hop
    simp only [Proceeds]
    rw [hq]
  | yieldThread d x =>
    cases hop
    simp only [Proceeds]
    rw [hq]
  | onTick d x =>
    cases hop
    have hsleep (t : ThreadId) (ht : t ∈ (k.queues c).threads .delayed) : k.Reach c none t :=
      (placed t).reach ht
    have hadvance := Kernel.local_advance hsleep
    simp only [Proceeds]
    rw [hq, (hadvance.alike k' h.alike).queues]
  | startThread | killThread | undelay | bootstrap => exact Iff.rfl
  | _ => cases hop

theorem exists_effect (hop : op.scheduler? = some c) (here : CoreId) :
    ∃ f, op.effect here = some f := by
  cases op with
  | startThread | killThread | delay | undelay | yieldThread | onTick | bootstrap =>
    exact ⟨_, rfl⟩
  | _ => cases hop

theorem not_mayPause (hop : op.scheduler? = some c) : ¬ op.MayPause := by
  cases op with
  | enqueueWait => cases hop
  | _ => exact id

theorem valid_iff (hop : op.scheduler? = some c) : op.Valid k ↔ k.manages c = true := by
  cases op with
  | startThread | killThread | delay | undelay | yieldThread | onTick | bootstrap =>
    cases hop
    exact Iff.rfl
  | _ => cases hop

end Op

/-! ## Operations of two schedulers -/

namespace System

variable {s s₁ s₂ : System G} {seg seg₁ seg₂ : Segment G} {c d : CoreId}

theorem Runs.two (h : Runs s [seg₂, seg₁] s₂) : ∃ s₁, Step s seg₁ s₁ ∧ Step s₁ seg₂ s₂ := by
  cases h with
  | @step _ s₁ _ _ earlier second =>
    cases earlier with
    | step before first =>
      cases before
      exact ⟨s₁, first, second⟩

/-- A segment of an operation of a scheduler is the whole operation. -/
theorem Step.whole (h : Step s seg s₁) (hs : ∀ task ∈ s.tasks, task.Sound)
    (hop : seg.op.scheduler? = some c) :
    ∃ f, seg.op.effect seg.core = some f ∧ s.machine.kernel.manages seg.core = true ∧
      seg.op.Valid s.machine.kernel ∧ seg.op.Proceeds s.machine.kernel ∧ seg.first = true ∧
      seg.before = s.machine.kernel ∧ seg.after = (f s.machine.kernel).1 ∧
      seg.answer = some (f s.machine.kernel).2 := by
  cases h with
  | @call core op pausing m r managed valid mayPause rests =>
    cases pausing with
    | true => exact absurd (mayPause rfl) (Op.not_mayPause hop)
    | false =>
      dsimp only at hop ⊢
      obtain ⟨f, hf⟩ := Op.exists_effect hop core
      obtain ⟨-, hk, rfl⟩ := Op.does_call hf (m := s.machine.on core) rfl rests
      have hproceeds := Op.proceeds_of_rests (m := s.machine.on core) rests
      exact ⟨f, hf, managed, valid, hproceeds, rfl, rfl, hk, rfl⟩
  | @resume task older newer m r tasks rests =>
    have htask : task.Sound := hs task (by simp [tasks])
    cases htask with
    | @client core op rest noEffect stays =>
      obtain ⟨f, hf⟩ := Op.exists_effect hop core
      exact nomatch hf.symm.trans noEffect
    | wait => cases hop

/-- **An operation of a scheduler touches its core and its reach.** -/
theorem Step.touches (h : Step s seg s₁) (hs : ∀ task ∈ s.tasks, task.Sound)
    (hop : seg.op.scheduler? = some c) (placed : ∀ t, s.machine.kernel.Placed t) :
    s.machine.kernel.Touches c
      (s.machine.kernel.Reach c (seg.op.argument? s.machine.kernel)) s₁.machine.kernel := by
  obtain ⟨f, hf, -, valid, -, -, -, hafter, -⟩ := h.whole hs hop
  rw [← h.kernels.2, hafter]
  exact Op.touches_effect hop hf valid placed

theorem Step.carries (h : Step s seg s₁) (hs : ∀ task ∈ s.tasks, task.Sound)
    (placed : ∀ t, s.machine.kernel.Placed t)
    (runnable : ∀ t, seg.Parks t → (seg.before.stateOf t).IsRunnable) (t : ThreadId) :
    s.machine.kernel.Carries s₁.machine.kernel t := by
  obtain ⟨hbefore, hafter⟩ := h.kernels
  rw [← hbefore, ← hafter]
  exact (h.sound hs).1.carries (hbefore ▸ placed t) (runnable t)

/-- **An operation is carried out elsewhere** as it is here, if its scheduler finds the same: in
both places what it finds in the state `k`. -/
theorem Step.transfer {k : Kernel G} {there : System G} (h : Step s seg s₁)
    (hs : ∀ task ∈ s.tasks, task.Sound) (hop : seg.op.scheduler? = some c)
    (placed : ∀ t, k.Placed t) (same : k.SameFor c (seg.op.argument? k) s.machine.kernel)
    (same' : k.SameFor c (seg.op.argument? k) there.machine.kernel) (free : there.Unlocked) :
    ∃ s', Step there { seg with before := there.machine.kernel, after := s'.machine.kernel } s' ∧
      Kernel.Touches c (k.Reach c (seg.op.argument? k)) s.machine.kernel s₁.machine.kernel ∧
      Kernel.Touches c (k.Reach c (seg.op.argument? k)) there.machine.kernel s'.machine.kernel ∧
      Kernel.Alike c (k.Reach c (seg.op.argument? k)) s₁.machine.kernel s'.machine.kernel := by
  obtain ⟨f, effect, managed, valid, proceeds, hfirst, -, hafter, hanswer⟩ := h.whole hs hop
  have hk : s₁.machine.kernel = (f s.machine.kernel).1 := h.kernels.2.symm.trans hafter
  rw [Op.proceeds_iff hop placed same, ← Op.proceeds_iff hop placed same'] at proceeds
  rw [same.manages, ← same'.manages] at managed
  rw [Op.valid_iff hop, same.manages, ← Op.valid_iff hop] at valid
  obtain ⟨touches, answer, alike⟩ := Op.same_effect hop effect valid placed same
  obtain ⟨touches', answer', alike'⟩ := Op.same_effect hop effect valid placed same'
  rw [Op.valid_iff hop, ← same'.manages, ← Op.valid_iff hop] at valid
  obtain ⟨s', step⟩ := exists_step_of_returns managed valid effect
    (Op.returns_of_proceeds (m := there.machine.on seg.core) hop free.held proceeds)
  have hk' : (f there.machine.kernel).1 = s'.machine.kernel := step.kernels.2
  rw [hk'] at step touches' alike'
  rw [hk]
  refine ⟨s', ?_, touches, touches', alike.symm.trans alike'⟩
  rw [hfirst, hanswer, answer, ← answer']
  exact step

/-- **Operations of two schedulers are carried out in either order**, with the same answers and the
same kernel state at the end. -/
theorem Step.exchange (first : Step s seg₁ s₁) (second : Step s₁ seg₂ s₂) (free : s.Unlocked)
    (hs : ∀ task ∈ s.tasks, task.Sound) (apart : s.machine.kernel.Apart)
    (runnable₁ : ∀ t, seg₁.Parks t → (seg₁.before.stateOf t).IsRunnable)
    (runnable₂ : ∀ t, seg₂.Parks t → (seg₂.before.stateOf t).IsRunnable)
    (hop₁ : seg₁.op.scheduler? = some c) (hop₂ : seg₂.op.scheduler? = some d) (hcd : c ≠ d)
    (harg : ∀ t, seg₁.op.argument? s.machine.kernel = some t →
      seg₂.op.argument? s.machine.kernel ≠ some t) :
    ∃ k s', Runs s [{ seg₁ with before := k, after := s₂.machine.kernel },
      { seg₂ with before := s.machine.kernel, after := k }] s' ∧
        s'.machine.kernel = s₂.machine.kernel := by
  have placed := apart.placed
  have disjoint := apart.disjoint hcd harg
  -- the second operation finds what it would have found without the first
  have touches₁ := first.touches hs hop₁ placed
  have same₂ := touches₁.sameFor hcd disjoint (fun t => (placed t).lt_length)
    (first.carries hs placed runnable₁)
  obtain ⟨s', step₂, touches₁₂, touches₂, alike₂⟩ :=
    second.transfer (first.sound hs).2 hop₂ placed same₂ (.refl d _ _) free
  -- it puts nobody aside who is not runnable: the thread in its slot is in its reach
  have runnable (t : ThreadId) (hp : Segment.Parks
      { seg₂ with before := s.machine.kernel, after := s'.machine.kernel } t) :
      (s.machine.kernel.stateOf t).IsRunnable := by
    obtain ⟨e, he, hr⟩ := hp
    obtain ⟨a, -, ha⟩ := Option.bind_eq_some_iff.mp he
    obtain rfl : e = d := Op.eq_of_parks hop₂ ha
    rw [← same₂.alike.stateOf (.inr (.inl hr)), ← second.kernels.1]
    refine runnable₂ t ⟨e, he, ?_⟩
    rw [second.kernels.1, same₂.alike.queues]
    exact hr
  -- so the first finds what it has found without the second
  have same₁ := touches₂.sameFor hcd.symm (fun t h₂ h₁ => disjoint t h₁ h₂)
    (fun t => (placed t).lt_length) (step₂.carries hs placed runnable)
  obtain ⟨s'', step₁, -, touches₂₁, alike₁⟩ :=
    first.transfer hs hop₁ placed (.refl c _ _) same₁ (step₂.unlocked free)
  have hlast : s₂.machine.kernel = s''.machine.kernel :=
    touches₁.comm hcd disjoint touches₁₂ touches₂ touches₂₁ alike₁ alike₂.symm
  refine ⟨_, s'', .step (.step .start step₂) ?_, hlast.symm⟩
  rw [hlast]
  exact step₁

end System

/-- **Cores are isolated.** Take any run from a boot in which nobody is put aside who is not
runnable. An operation of the scheduler of a core, whatever thread it is given and whatever it
answers, changes no other core and no thread that another core owns. Two such operations of
different cores that are given different threads, a bootstrap being given the idle thread, can be
carried out in the other order as well, each with the same answer, and with the same kernel state at
the end. -/
theorem cores_are_isolated {m : Machine G} {s : System G} {past : List (Segment G)}
    (booted : m.Booted) (free : m.chip.held = []) (run : System.Runs ⟨m, []⟩ past s)
    (runnable : ∀ seg ∈ past, ∀ t, seg.Parks t → (seg.before.stateOf t).IsRunnable) :
    (∀ c seg s', System.Step s seg s' → seg.op.scheduler? = some c →
      (∀ d, d ≠ c → s'.machine.kernel.cores[d]? = s.machine.kernel.cores[d]?) ∧
      ∀ t d, d ≠ c → s.machine.kernel.ownerOf t = some d →
        s'.machine.kernel.threads[t]? = s.machine.kernel.threads[t]?) ∧
    ∀ c d seg₁ seg₂ s', System.Runs s [seg₂, seg₁] s' →
      (∀ seg ∈ [seg₂, seg₁], ∀ t, seg.Parks t → (seg.before.stateOf t).IsRunnable) →
      seg₁.op.scheduler? = some c → seg₂.op.scheduler? = some d → c ≠ d →
      (∀ t, seg₁.op.argument? s.machine.kernel = some t →
        seg₂.op.argument? s.machine.kernel ≠ some t) →
      ∃ k s'', System.Runs s [{ seg₁ with before := k, after := s'.machine.kernel },
        { seg₂ with before := s.machine.kernel, after := k }] s'' ∧
          s''.machine.kernel = s'.machine.kernel := by
  have apart : s.machine.kernel.Apart := run.apart booted runnable
  have tasks := (run.sound System.forall_tasks_start).2
  constructor
  · intro c seg s' step hop
    have touches := step.touches tasks hop apart.placed
    refine ⟨touches.cores, fun t d hd ho => touches.threads t ?_⟩
    exact (apart.placed t).not_reach ho hd.symm
  · intro c d seg₁ seg₂ s' later runnable' hop₁ hop₂ hcd harg
    obtain ⟨s₁, first, second⟩ := later.two
    obtain ⟨runnable₂, runnable₁⟩ := List.forall_mem_cons.mp runnable'
    exact first.exchange second (run.unlocked (System.unlocked_start free)) tasks apart
      (runnable₁ seg₁ List.mem_cons_self) runnable₂ hop₁ hop₂ hcd harg

/-- A thread is put aside on one core, and on the other, where a killed thread is still switched in,
the processor is given to the next thread and the context is saved into the killed one; the two can
be carried out in the other order. -/
theorem delay_and_yield_in_either_order : ∃ m past s seg₁ seg₂ s',
    Machine.boot? { processors := 2 } {} = some m ∧
    System.play ⟨m, []⟩ (twoCores ++ [(0, .killThread 1 3)]) = some (past, s) ∧
    s.play [(0, .delay 0 (.ofMillis 10)), (1, .yieldThread 1 9)] = some ([seg₂, seg₁], s') ∧
    s'.machine.kernel.stateOf 2 = .wait .timed ∧ s'.machine.kernel.contextOf 3 = 9 ∧
    seg₁.after.cores[1]? = s.machine.kernel.cores[1]? ∧
    ∃ k s'', System.Runs s [{ seg₁ with before := k, after := s'.machine.kernel },
      { seg₂ with before := s.machine.kernel, after := k }] s'' ∧
        s''.machine.kernel = s'.machine.kernel := by
  obtain ⟨m, past, s, later, s', hm, hfirst, hsecond, htest⟩ := System.exists_play
    { processors := 2 } {} (twoCores ++ [(0, .killThread 1 3)])
    [(0, .delay 0 (.ofMillis 10)), (1, .yieldThread 1 9)]
    (fun past s later s' => (later ++ past).all (·.isOrderly) &&
      (decide (s'.machine.kernel.stateOf 2 = .wait .timed) &&
        (decide (s'.machine.kernel.contextOf 3 = 9) &&
          decide (later.map (fun seg => (seg.op.scheduler?, seg.op.argument? s.machine.kernel)) =
            [(some 1, none), (some 0, none)])))) (by decide +kernel)
  simp only [Bool.and_eq_true, decide_eq_true_eq, List.all_eq_true] at htest
  obtain ⟨horderly, hwaits, hsaved, hops⟩ := htest
  obtain ⟨seg₂, _, rfl, h₂, hops⟩ := List.map_eq_cons_iff.mp hops
  obtain ⟨seg₁, _, rfl, h₁, hops⟩ := List.map_eq_cons_iff.mp hops
  obtain rfl := List.map_eq_nil_iff.mp hops
  obtain ⟨hop₂, -⟩ := Prod.mk.inj h₂
  obtain ⟨hop₁, harg₁⟩ := Prod.mk.inj h₁
  have hrunnable (seg : Segment ⟨Unit, Unit⟩) (hseg : seg ∈ [seg₂, seg₁] ++ past) (t : ThreadId)
      (hp : seg.Parks t) : (seg.before.stateOf t).IsRunnable :=
    .inr ((Segment.orderly_of_isOrderly (horderly seg hseg)).parks t hp)
  have hlater := System.runs_of_play hsecond
  obtain ⟨s₁, first, second⟩ := hlater.two
  obtain ⟨hframe, hexchange⟩ := cores_are_isolated (Machine.booted_of_boot? hm)
    (Machine.held_of_boot? hm) (System.runs_of_play hfirst)
    fun seg hseg => hrunnable seg (List.mem_append_right _ hseg)
  refine ⟨m, past, s, seg₁, seg₂, s', hm, hfirst, hsecond, hwaits, hsaved, ?_, ?_⟩
  · rw [first.kernels.2]
    exact (hframe 0 seg₁ s₁ first hop₁).1 1 (by decide)
  · refine hexchange 0 1 seg₁ seg₂ s' hlater (fun seg hseg => ?_) hop₁ hop₂ (by decide) ?_
    · exact hrunnable seg (List.mem_append_left _ hseg)
    · rw [harg₁]
      nofun

end Nucleus
