import Mathlib.Data.List.Forall2
import Nucleus.Proofs.Interleaving
import Nucleus.Proofs.Phases

/-!
# A thread is admitted once

Several cores may try to start the same thread at the same time, and all of them may look at it
before the first of them takes it. One of them gets it.

* `System.Stretch.isMove` says that a stretch in a system moves one operation from phase to phase.
* `Stage` is how far the thread has come: nobody has taken it, or one call has and will queue it, or
  one call has queued it. `Stage.move` leads from stage to stage.
* `Admission` ties the operations in progress, the kernel and the history together, and holds all
  along a run in stretches.
* `thread_admitted_once` is about runs in which all who tried have returned: one of them has queued
  the thread, once, and no other core has ever held it.
-/

namespace Nucleus

variable {G : Guest}

/-! ## Operations in progress -/

/-- What a segment tells about the start of a thread. -/
def Segment.told (t : ThreadId) (seg : Segment G) : Option Bool := seg.answer.bind (seg.op.told t)

/-- The segment takes a thread from its owner, on behalf of an operation that may end it. -/
def Segment.Kills (t : ThreadId) (seg : Segment G) : Prop :=
  seg.op.MayEnd t ∧ seg.before.GivesUp seg.after t

section Progress

variable (idle : CoreId → Option ThreadId) (t : ThreadId)

/-- The operation in progress stands in this phase, and goes on from the kernel `k` or later. -/
structure Task.In (k : Kernel G) (p : Phase) (task : Task G) : Prop where
  /-- the phase is about the core that the operation starts the thread on -/
  core : p.core? = task.op.startsOn idle task.core t
  /-- that core is managed -/
  managed : ∀ c, p.core? = some c → idle c ≠ none
  /-- what is left of it makes the moves of the phase -/
  follows : ∀ m : Machine G, m.Found idle task.core k.threads.length →
    (task.rest m).Follows (task.op.watch idle task.core t) p m.kernel

/-- The segment is a move, and tells whether it has queued the thread. -/
structure Segment.IsMove (seg : Segment G) (p p' : Phase) (queued : Bool) : Prop where
  /-- it is a move -/
  moves : p.Moves t seg.before seg.after p' queued
  /-- the phase is about the core that the operation starts the thread on -/
  core : p.core? = seg.op.startsOn idle seg.core t
  /-- that core is managed -/
  managed : ∀ c, p.core? = some c → idle c ≠ none
  /-- what it tells is true -/
  honest : ∀ b, seg.told t = some b → b = queued
  /-- if it queues the thread it tells so, or the operation never tells -/
  told : queued = true → seg.told t = some true ∨ ∀ a, seg.op.told t a = none

end Progress

variable {idle : CoreId → Option ThreadId} {t : ThreadId}

theorem Task.In.mono {k k' : Kernel G} {p : Phase} {task : Task G} (h : task.In idle t k p)
    (hk : k.threads.length ≤ k'.threads.length) : task.In idle t k' p :=
  ⟨h.core, h.managed, fun m hm => h.follows m ⟨hm.idle, hm.current, Nat.le_trans hk hm.threads⟩⟩

/-- What is left of an operation whose phase is `p`: nothing, if there is nothing to do any more. -/
def Phase.Leaves (p : Phase) (left : List Phase) : Prop := left = [p] ∨ (left = [] ∧ p.IsOver)

/-- A stretch of an operation that stands in a phase is a move, and what is left of it stands in the
next phase. -/
theorem isMove_of_rests {k : Kernel G} {core : CoreId} {op : Op G} {first : Bool} {p : Phase}
    {x : Run G op.Result} {m : Machine G} {r : op.Result ⊕ Call G op.Result}
    (hx : x.Follows (op.watch idle core t) p k) (hcore : p.core? = op.startsOn idle core t)
    (hmanaged : ∀ c, p.core? = some c → idle c ≠ none) (h : x.Rests true m r)
    (hkill : ¬ (⟨core, op, first, k, m.kernel, r.getLeft?⟩ : Segment G).Kills t) :
    ∃ p' queued left, (⟨core, op, first, k, m.kernel, r.getLeft?⟩ : Segment G).IsMove idle t p p'
      queued ∧ p'.Leaves left ∧
      List.Forall₂ (Task.In idle t m.kernel) left (Task.left core op r) := by
  rcases hx.rests h with hends | ⟨p', queued, hmove, hleft⟩
  · exact absurd hends hkill
  · cases r with
    | inl a =>
      refine ⟨p', queued, [], ⟨hmove, hcore, hmanaged, hleft.2, fun hq => ?_⟩, .inr ⟨rfl, hleft.1⟩,
        .nil⟩
      refine (op.told_cases idle core t).symm.imp_left fun htells => ?_
      obtain ⟨b, htold⟩ := Option.ne_none_iff_exists'.mp (htells.1 a)
      have hb : b = true := (hleft.2 b htold).trans hq
      exact htold.trans (congrArg some hb)
    | inr rest =>
      refine ⟨p', queued, [p'], ⟨hmove, hcore, hmanaged, nofun, fun hq => .inr (hleft.1 hq)⟩,
        .inl rfl, .cons ⟨?_, ?_, hleft.2⟩ .nil⟩
      · exact hmove.core?.trans hcore
      · rw [hmove.core?]
        exact hmanaged

/-- A core that an operation starts a thread on is managed. -/
theorem Op.manages_of_startsOn {op : Op G} {k : Kernel G} {core c : CoreId}
    (managed : k.manages core = true) (valid : op.Valid k)
    (h : op.startsOn idle core t = some c) : k.manages c = true := by
  simp only [startsOn] at h
  cases op with
  | startThread d u | bootstrap d =>
    obtain ⟨-, hd⟩ := Option.ite_none_right_eq_some.mp h
    exact Option.some.inj hd ▸ valid
  | startThreadHere u argument =>
    obtain ⟨-, hd⟩ := Option.ite_none_right_eq_some.mp h
    exact Option.some.inj hd ▸ managed
  | _ => cases h

theorem Kernel.idleOf?_ne_none {k : Kernel G} {c : CoreId} :
    k.idleOf? c ≠ none ↔ k.manages c = true := by
  simp only [idleOf?, manages, ne_eq, Option.map_eq_none_iff, List.getElem?_eq_none_iff,
    Nat.not_le, decide_eq_true_eq]

/-- The operation of the segment begins in the phase `p`, or it is one of those in progress. -/
def Segment.Stands (seg : Segment G) (idle : CoreId → Option ThreadId) (t : ThreadId)
    (phases newer : List Phase) (p : Phase) (older : List Phase) : Prop :=
  (seg.first = true ∧ newer = [] ∧ older = phases ∧
    p = seg.op.phase idle seg.core t seg.before) ∨
  (seg.first = false ∧ phases = newer ++ p :: older)

/-- Where a task stands among the tasks, its phase stands among the phases. -/
theorem exists_phase_of_task {R : Phase → Task G → Prop} {phases : List Phase}
    {newer older : List (Task G)} {task : Task G}
    (h : List.Forall₂ R phases (newer ++ task :: older)) :
    ∃ pn p po, phases = pn ++ p :: po ∧ List.Forall₂ R pn newer ∧ R p task ∧
      List.Forall₂ R po older := by
  obtain ⟨p, po, htask, holder, hdrop⟩ :=
    List.forall₂_cons_right_iff.mp (List.forall₂_drop_append _ _ _ h)
  refine ⟨phases.take newer.length, p, po, ?_, List.forall₂_take_append _ _ _ h, htask, holder⟩
  rw [← hdrop, List.take_append_drop]

/-- **A stretch is a move of one operation**, and the others stay in their phases. -/
theorem System.Stretch.isMove {s s' : System G} {seg : Segment G} {phases : List Phase}
    (h : Stretch s seg s') (hidle : s.machine.kernel.idleOf? = idle)
    (htasks : List.Forall₂ (Task.In idle t s.machine.kernel) phases s.tasks)
    (hkill : ¬ seg.Kills t) :
    ∃ newer p older p' queued left, seg.Stands idle t phases newer p older ∧
      seg.IsMove idle t p p' queued ∧ p'.Leaves left ∧
      List.Forall₂ (Task.In idle t s'.machine.kernel) (newer ++ (left ++ older)) s'.tasks := by
  cases h with
  | @call core op m r managed valid rests =>
    have hmanaged (c : CoreId) (hc : op.startsOn idle core t = some c) : idle c ≠ none := by
      rw [← hidle]
      exact Kernel.idleOf?_ne_none.mpr (op.manages_of_startsOn managed valid hc)
    have hcore : (op.phase idle core t s.machine.kernel).core? = op.startsOn idle core t :=
      (op.phase_spec s.machine.kernel).1
    have hfollows : (op.call (s.machine.on core)).Follows (op.watch idle core t)
        (op.phase idle core t s.machine.kernel) s.machine.kernel :=
      op.follows_call (s.machine.on core) hidle
    obtain ⟨p', queued, left, hmove, hleft, hlefts⟩ := isMove_of_rests hfollows hcore
      (fun c hc => hmanaged c (hcore.symm.trans hc)) rests hkill
    refine ⟨[], _, phases, p', queued, left, .inl ⟨rfl, rfl, rfl, rfl⟩, hmove, hleft, ?_⟩
    exact List.rel_append hlefts (htasks.imp fun _ _ hin => hin.mono hmove.moves.threads)
  | @resume task older newer m r tasks rests =>
    rw [tasks] at htasks
    obtain ⟨pn, p, po, rfl, hnewer, htask, holder⟩ := exists_phase_of_task htasks
    have hfound : (s.machine.on task.core).Found idle task.core
        s.machine.kernel.threads.length := ⟨hidle, rfl, Nat.le_refl _⟩
    obtain ⟨p', queued, left, hmove, hleft, hlefts⟩ := isMove_of_rests
      (htask.follows _ hfound) htask.core htask.managed rests hkill
    have hmono (p : Phase) (task : Task G) (hin : task.In idle t s.machine.kernel p) :
        task.In idle t m.kernel p := hin.mono hmove.moves.threads
    refine ⟨pn, p, po, p', queued, left, .inr ⟨rfl, rfl⟩, hmove, hleft, ?_⟩
    exact List.rel_append (hnewer.imp hmono) (List.rel_append hlefts (holder.imp hmono))

/-! ## One of them is admitted -/

/-- The cores for which the thread has been taken and is still to be queued. -/
def pushers (phases : List Phase) : List CoreId := phases.filterMap (·.pushing?)

theorem pushers_append (newer older : List Phase) :
    pushers (newer ++ older) = pushers newer ++ pushers older :=
  List.filterMap_append

theorem pushers_cons (p : Phase) (phases : List Phase) :
    pushers (p :: phases) = p.pushing?.toList ++ pushers phases := by
  simp only [pushers, List.filterMap_cons]
  cases p.pushing? <;> rfl

/-- Whether or not anything is left of an operation that is through. -/
theorem Phase.Leaves.pushers {p : Phase} {left : List Phase} (h : p.Leaves left) :
    pushers left = p.pushing?.toList := by
  rcases h with rfl | ⟨rfl, hover⟩
  · rw [pushers_cons]
    exact List.append_nil _
  · cases p with
    | passing | settled c => rfl
    | seeking c | pushing c => exact hover.elim

section Stage

variable (idle : CoreId → Option ThreadId) (t : ThreadId)

/-- The segment begins a start of the thread, which is there. -/
def Segment.Calls (seg : Segment G) : Prop :=
  seg.first = true ∧ t < seg.before.threads.length ∧
    seg.op.startsOn idle seg.core t ≠ none ∧ seg.op.comesLate seg.before = false

/-- **The segment admits the thread**: it queues the thread on the core that it is started on, and
tells so; a bootstrap keeps it to itself. -/
structure Segment.Admits (seg : Segment G) (c : CoreId) : Prop where
  /-- it is a start on this core -/
  starts : seg.op.startsOn idle seg.core t = some c
  /-- the thread comes to the end of the rotation -/
  queued : (seg.after.queues c).ready = (seg.before.queues c).ready ++ [t]
  /-- nothing else happens -/
  after : seg.after = seg.before.makeReady c t
  /-- the start succeeds -/
  told : seg.told t = some true ∨ seg.op = .bootstrap c

/-- If the segment belongs to a start of the thread, the start does not succeed in it, and no
rotation changes. -/
def Segment.Abstains (seg : Segment G) : Prop :=
  seg.op.startsOn idle seg.core t ≠ none →
    seg.told t ≠ some true ∧ ∀ d, (seg.after.queues d).ready = (seg.before.queues d).ready

/-- How far the thread has come. -/
inductive Stage (history : List (Segment G)) (k : Kernel G) (phases : List Phase) : Prop where
  /-- nobody has taken it, and who has tried is still on the way -/
  | free (owner : k.ownerOf t = none) (alive : k.Alive t)
    (abstain : ∀ seg ∈ history, seg.Abstains idle t) (nobody : pushers phases = [])
    (called : (∃ seg ∈ history, seg.Calls idle t) →
      t < k.threads.length ∧ ∃ c, .seeking c ∈ phases)
  /-- it has been taken for a core, and one call will queue it there -/
  | claimed {c : CoreId} (owner : k.ownerOf t = some c)
    (abstain : ∀ seg ∈ history, seg.Abstains idle t) (one : pushers phases = [c])
  /-- one call has queued it -/
  | admitted {c : CoreId} (newer older : List (Segment G)) (seg : Segment G)
    (owner : k.ownerOf t = some c) (made : history = newer ++ seg :: older)
    (admits : seg.Admits idle t c) (abstain : ∀ other ∈ newer ++ older, other.Abstains idle t)
    (nobody : pushers phases = [])

end Stage

theorem Segment.IsMove.abstains {seg : Segment G} {p p' : Phase}
    (h : seg.IsMove idle t p p' false) : seg.Abstains idle t := by
  intro hstart
  refine ⟨fun htold => Bool.noConfusion (h.honest true htold), ?_⟩
  have hcore := h.core
  cases h.moves with
  | pass => exact absurd hcore.symm hstart
  | seek bypasses => exact bypasses.ready trivial
  | refuse bypasses => exact bypasses.ready trivial
  | claim free found claimed =>
    rw [claimed]
    exact fun _ => rfl
  | rest bypasses => exact bypasses.ready trivial

theorem Segment.IsMove.admits {seg : Segment G} {p' : Phase} {c : CoreId}
    (h : seg.IsMove idle t (.pushing c) p' true) (hidle : seg.before.idleOf? = idle) :
    seg.Admits idle t c := by
  have hc : seg.before.manages c = true := by
    refine Kernel.idleOf?_ne_none.mp ?_
    rw [hidle]
    exact h.managed c rfl
  have hstarts : seg.op.startsOn idle seg.core t = some c := h.core.symm
  cases h.moves with
  | push pushed =>
    refine ⟨hstarts, ?_, pushed, (h.told rfl).imp_right (Op.eq_bootstrap_of_told hstarts)⟩
    rw [pushed, Kernel.makeReady, Kernel.queues_updateQueues (Kernel.setState _ t .ready) c c _ hc,
      if_pos rfl]
    rfl

namespace Stage

variable {history : List (Segment G)} {k k' : Kernel G} {phases newer older left : List Phase}
  {p p' : Phase} {seg : Segment G} {c : CoreId}

/-- Another operation begins. -/
theorem call (h : Stage idle t history k phases) (hp : p.pushing? = none) :
    Stage idle t history k (p :: phases) := by
  have hpushers : pushers (p :: phases) = pushers phases := by
    rw [pushers_cons, hp]
    rfl
  cases h with
  | free owner alive abstain nobody called =>
    refine .free owner alive abstain (hpushers.trans nobody) fun hcalled => ?_
    obtain ⟨ht, c, hc⟩ := called hcalled
    exact ⟨ht, c, List.mem_cons_of_mem _ hc⟩
  | claimed owner abstain one => exact .claimed owner abstain (hpushers.trans one)
  | admitted later past seg owner made admits abstain nobody =>
    exact .admitted later past seg owner made admits abstain (hpushers.trans nobody)

/-- Who still has to queue the thread owns it, and is the only one. -/
theorem of_pushing (h : Stage idle t history k (newer ++ .pushing c :: older)) :
    k.ownerOf t = some c ∧ pushers newer = [] ∧ pushers older = [] ∧
      ∀ seg ∈ history, seg.Abstains idle t := by
  have hpushers : pushers (newer ++ .pushing c :: older) = pushers newer ++ c :: pushers older := by
    rw [pushers_append, pushers_cons]
    rfl
  cases h with
  | free owner alive abstain nobody called => simp [hpushers] at nobody
  | admitted later past seg owner made admits abstain nobody => simp [hpushers] at nobody
  | claimed owner abstain one =>
    rw [hpushers] at one
    rcases List.append_eq_singleton_iff.mp one with ⟨hnewer, hone⟩ | ⟨-, hnone⟩
    · obtain ⟨rfl, holder⟩ := List.cons.inj hone
      exact ⟨owner, hnewer, holder, abstain⟩
    · cases hnone

/-- A stretch that passes the thread by leaves it at its stage. A call that seeks a thread that is
there and that nobody owns goes on seeking. -/
theorem bypass (h : Stage idle t history k (newer ++ p :: older)) (hk : k.Bypasses k' t False)
    (habstain : seg.Abstains idle t) (hleft : p'.Leaves left) (hp : p.pushing? = none)
    (hp' : p'.pushing? = none)
    (hcalls : seg.Calls idle t → t < k.threads.length ∧ ∃ c, p = .seeking c)
    (hseek : ∀ c, p = .seeking c → t < k.threads.length → k.ownerOf t = none → k.Alive t →
      p' = .seeking c) : Stage idle t (seg :: history) k' (newer ++ (left ++ older)) := by
  have hpushers : pushers (newer ++ (left ++ older)) = pushers (newer ++ p :: older) := by
    rw [pushers_append, pushers_append, pushers_append, pushers_cons, hleft.pushers, hp, hp']
  cases h with
  | free owner alive abstain nobody called =>
    refine .free (hk.owner.trans owner) (hk.alive alive)
      (List.forall_mem_cons.mpr ⟨habstain, abstain⟩) (hpushers.trans nobody) ?_
    rintro ⟨other, hother, hcall⟩
    -- somebody has tried, so somebody seeks
    obtain ⟨ht, c, hc⟩ : t < k.threads.length ∧ ∃ c, .seeking c ∈ newer ++ p :: older := by
      rcases List.mem_cons.mp hother with rfl | hother
      · obtain ⟨ht, c, rfl⟩ := hcalls hcall
        exact ⟨ht, c, by simp⟩
      · exact called ⟨other, hother, hcall⟩
    refine ⟨Nat.lt_of_lt_of_le ht hk.threads, c, ?_⟩
    rw [List.mem_append, List.mem_cons] at hc
    rw [List.mem_append, List.mem_append]
    refine hc.imp_right (Or.imp_left fun hcp => ?_)
    have hstill : p' = .seeking c := hseek c hcp.symm ht owner alive
    rcases hleft with rfl | ⟨-, hover⟩
    · exact List.mem_singleton.mpr hstill.symm
    · rw [hstill] at hover
      exact hover.elim
  | claimed owner abstain one =>
    exact .claimed (hk.owner.trans owner) (List.forall_mem_cons.mpr ⟨habstain, abstain⟩)
      (hpushers.trans one)
  | admitted later past other owner made admits abstain nobody =>
    exact .admitted (seg :: later) past other (hk.owner.trans owner) (congrArg (seg :: ·) made)
      admits (List.forall_mem_cons.mpr ⟨habstain, abstain⟩) (hpushers.trans nobody)

/-- **A move leads from stage to stage.** -/
theorem move {queued : Bool} (h : Stage idle t history seg.before (newer ++ p :: older))
    (hm : seg.IsMove idle t p p' queued) (hidle : seg.before.idleOf? = idle)
    (hleft : p'.Leaves left)
    (hcalls : seg.Calls idle t → t < seg.before.threads.length ∧ ∃ c, p = .seeking c) :
    Stage idle t (seg :: history) seg.after (newer ++ (left ++ older)) := by
  cases hmoves : hm.moves with
  | pass bypasses => exact h.bypass bypasses hm.abstains hleft rfl rfl hcalls nofun
  | seek bypasses =>
    exact h.bypass bypasses.loud hm.abstains hleft rfl rfl hcalls fun _ hp _ _ _ => hp
  | refuse bypasses refused =>
    refine h.bypass bypasses.loud hm.abstains hleft rfl rfl hcalls fun _ _ ht howner halive => ?_
    -- it is refused only if somebody owns the thread or the thread has ended
    rcases refused with howned | hended
    · exact absurd (bypasses.owner.trans howner) howned
    · exact absurd hended (bypasses.alive halive (Nat.lt_of_lt_of_le ht bypasses.threads))
  | rest bypasses => exact h.bypass bypasses.loud hm.abstains hleft rfl rfl hcalls nofun
  | @claim c free found claimed =>
    cases h with
    | free owner alive abstain nobody called =>
      rw [pushers_append, pushers_cons] at nobody
      obtain ⟨hnewer, holder⟩ := List.append_eq_nil_iff.mp nobody
      have howner : seg.after.ownerOf t = some c := by
        rw [claimed]
        exact seg.before.ownerOf_setOwner_self (some c) found
      refine .claimed howner (List.forall_mem_cons.mpr ⟨hm.abstains, abstain⟩) ?_
      rw [pushers_append, pushers_append, hleft.pushers, hnewer]
      exact congrArg (c :: ·) holder
    | claimed owner => exact absurd (free.symm.trans owner) nofun
    | admitted later past other owner => exact absurd (free.symm.trans owner) nofun
  | @push c pushed =>
    obtain ⟨howner, hnewer, holder, abstain⟩ := h.of_pushing
    refine .admitted [] history seg (hm.moves.owner howner) rfl (hm.admits hidle) abstain ?_
    rw [pushers_append, pushers_append, hleft.pushers, hnewer, holder]
    rfl

end Stage

/-! ## Runs -/

/-- What the operations in progress, the kernel and the history have to do with each other. -/
structure Admission (idle : CoreId → Option ThreadId) (t : ThreadId) (history : List (Segment G))
    (s : System G) (phases : List Phase) : Prop where
  /-- cores have kept their idle threads -/
  idles : s.machine.kernel.idleOf? = idle
  /-- every operation in progress stands in a phase -/
  tasks : List.Forall₂ (Task.In idle t s.machine.kernel) phases s.tasks
  /-- nobody but the owner holds the thread -/
  holds : ∀ d, (s.machine.kernel.queues d).Holds t → s.machine.kernel.ownerOf t = some d
  /-- nobody but the owner has ever held it -/
  past : ∀ seg ∈ history, ∀ d, (seg.before.queues d).Holds t ∨ (seg.after.queues d).Holds t →
    s.machine.kernel.ownerOf t = some d
  /-- the thread has come to a stage -/
  stage : Stage idle t history s.machine.kernel phases

/-- **One stretch.** -/
theorem Admission.step {history : List (Segment G)} {s s' : System G} {phases : List Phase}
    {seg : Segment G} (h : Admission idle t history s phases) (next : System.Stretch s seg s')
    (hkill : ¬ seg.Kills t) : ∃ phases', Admission idle t (seg :: history) s' phases' := by
  obtain ⟨hbefore, hafter⟩ := next.kernels
  obtain ⟨newer, p, older, p', queued, left, hstands, hmove, hleft, htasks⟩ :=
    next.isMove h.idles h.tasks hkill
  have hidle : seg.before.idleOf? = idle := by
    rw [hbefore]
    exact h.idles
  -- an operation that begins is put with those in progress
  have hstage : Stage idle t history seg.before (newer ++ p :: older) := by
    rw [hbefore]
    rcases hstands with ⟨-, rfl, rfl, rfl⟩ | ⟨-, rfl⟩
    · exact h.stage.call (Op.phase_spec _ _).2
    · exact h.stage
  have hcalls (hcall : seg.Calls idle t) :
      t < seg.before.threads.length ∧ ∃ c, p = .seeking c := by
    obtain ⟨hfirst, ht, hstart, hlate⟩ := hcall
    refine ⟨ht, ?_⟩
    rcases hstands with ⟨-, -, -, rfl⟩ | ⟨hlater, -⟩
    · obtain ⟨c, hc⟩ := Option.ne_none_iff_exists'.mp hstart
      refine ⟨c, (Op.phase_of_some seg.before hc).trans ?_⟩
      rw [hlate]
      rfl
    · exact absurd (hfirst.symm.trans hlater) nofun
  have howner (d : CoreId) (hd : s.machine.kernel.ownerOf t = some d) :
      s'.machine.kernel.ownerOf t = some d := by
    rw [← hafter]
    refine hmove.moves.owner ?_
    rw [hbefore]
    exact hd
  have hholds (d : CoreId) (hd : (s'.machine.kernel.queues d).Holds t) :
      s'.machine.kernel.ownerOf t = some d := by
    rw [← hafter] at hd ⊢
    refine hmove.moves.holds ?_ ?_ hd
    · rw [hbefore]
      exact h.holds
    · rintro c rfl
      exact hstage.of_pushing.1
  refine ⟨newer ++ (left ++ older), ?_, htasks, hholds, ?_, ?_⟩
  · rw [← hafter, hmove.moves.idle]
    exact hidle
  · refine List.forall_mem_cons.mpr ⟨fun d hd => ?_, fun other hother d hd => ?_⟩
    · rw [hbefore, hafter] at hd
      exact hd.elim (fun hd => howner d (h.holds d hd)) (hholds d)
    · exact howner d (h.past other hother d hd)
  · rw [← hafter]
    exact hstage.move hmove hidle hleft hcalls

/-- **A whole run.** -/
theorem Admission.run {m : Machine G} {history : List (Segment G)} {s : System G}
    (booted : m.Booted) (run : System.Weaves ⟨m, []⟩ history s)
    (hkill : ∀ seg ∈ history, ¬ seg.Kills t) :
    ∃ phases, Admission m.kernel.idleOf? t history s phases := by
  induction run with
  | start =>
    have fresh := booted.fresh
    have hnobody (d : CoreId) : ¬ (m.kernel.queues d).Holds t := by
      rw [fresh.queues d]
      rintro (hrun | ⟨i, hi⟩)
      · cases hrun
      · cases i <;> cases hi
    have hpast {P : Segment G → Prop} : ∀ seg ∈ [], P seg := fun _ h => (List.not_mem_nil h).elim
    refine ⟨[], rfl, .nil, fun d hd => absurd hd (hnobody d), hpast, ?_⟩
    refine .free (fresh.owner t) (fun ht => ?_) hpast rfl ?_
    · rw [fresh.state t ht]
      nofun
    · rintro ⟨seg, hseg, -⟩
      cases hseg
  | step run next ih =>
    obtain ⟨hseg, hkill⟩ := List.forall_mem_cons.mp hkill
    obtain ⟨phases, h⟩ := ih hkill
    exact h.step next hseg

/-- A phase that is about a core is that of an operation that starts the thread there. -/
theorem Admission.exists_task {history : List (Segment G)} {s : System G} {phases : List Phase}
    {p : Phase} {c : CoreId} (h : Admission idle t history s phases) (hp : p ∈ phases)
    (hc : p.core? = some c) :
    ∃ task ∈ s.tasks, task.op.startsOn idle task.core t = some c := by
  obtain ⟨pn, po, rfl⟩ := List.append_of_mem hp
  have htasks := List.forall₂_drop_append _ _ _ h.tasks.flip
  obtain ⟨task, rest, htask, -, hdrop⟩ := List.forall₂_cons_right_iff.mp htasks
  refine ⟨task, List.mem_of_mem_drop (i := pn.length) ?_, htask.core.symm.trans hc⟩
  rw [hdrop]
  exact List.mem_cons_self

/-- **A thread is admitted once.** A thread is started any number of times, on any cores, and all
stretches of these calls are interleaved in any way with each other and with stretches of any other
operations, none of which takes the thread from its owner to end it. Once all these calls have
returned, exactly one of them has succeeded: it has queued the thread on its core, once; its core
owns the thread; the other calls have changed no rotation; and no other core has ever held it. -/
theorem thread_admitted_once {m : Machine G} {history : List (Segment G)} {s : System G}
    {t : ThreadId} (booted : m.Booted) (run : System.Weaves ⟨m, []⟩ history s)
    (called : ∃ seg ∈ history, seg.Calls m.kernel.idleOf? t)
    (spared : ∀ seg ∈ history, ¬ seg.Kills t)
    (returned : ∀ task ∈ s.tasks, task.op.startsOn m.kernel.idleOf? task.core t = none) :
    ∃ c newer seg older, history = newer ++ seg :: older ∧ seg.Admits m.kernel.idleOf? t c ∧
      (∀ other ∈ newer ++ older, other.Abstains m.kernel.idleOf? t) ∧
      s.machine.kernel.ownerOf t = some c ∧
      ∀ seg ∈ history, ∀ d, d ≠ c →
        ¬ (seg.before.queues d).Holds t ∧ ¬ (seg.after.queues d).Holds t := by
  obtain ⟨phases, h⟩ := Admission.run booted run spared
  have hnone {p : Phase} {c : CoreId} (hp : p ∈ phases) (hc : p.core? = some c) : False := by
    obtain ⟨task, htask, hstart⟩ := h.exists_task hp hc
    rw [returned task htask] at hstart
    cases hstart
  cases h.stage with
  | free owner alive abstain nobody stillCalled =>
    obtain ⟨-, c, hc⟩ := stillCalled called
    exact (hnone hc rfl).elim
  | @claimed c owner abstain one =>
    have hc : c ∈ pushers phases := by
      rw [one]
      exact List.mem_singleton_self c
    obtain ⟨p, hp, hpushing⟩ := List.mem_filterMap.mp hc
    refine (hnone (c := c) hp ?_).elim
    cases p with
    | pushing d => exact hpushing
    | passing | seeking d | settled d => cases hpushing
  | @admitted c newer older seg owner made admits abstain nobody =>
    refine ⟨c, newer, seg, older, made, admits, abstain, owner, fun other hother d hd => ?_⟩
    have hother (hheld : (other.before.queues d).Holds t ∨ (other.after.queues d).Holds t) :
        False :=
      hd (Option.some.inj ((h.past other hother d hheld).symm.trans owner))
    exact ⟨fun hheld => hother (.inl hheld), fun hheld => hother (.inr hheld)⟩

/-- Thread 3 of a machine with three cores, where core 1 schedules. All three cores start it, and
all have looked at it before core 1 takes it. Core 0 is refused before core 1 has queued the thread.
Then core 1 ticks and switches to the thread while the start on core 2 is still on its way. -/
def raceOfThree : List (Move ⟨Unit, Unit⟩) :=
  [.begin 0 (.createThread () "worker"),
    .begin 1 (.bootstrap 1), .goOn 0, .goOn 0, .goOn 0, .goOn 0,
    .begin 0 (.startThread 0 3), .begin 1 (.startThread 1 3), .begin 2 (.startThreadHere 3 7),
    .goOn 1, .goOn 2, .goOn 1,
    .begin 1 (.onTick 1 5), .goOn 0,
    .goOn 0, .goOn 0, .goOn 0]

/-- Of three cores that race for a thread, one gets it. -/
theorem one_of_three_admitted : ∃ m history s,
    Machine.boot? { processors := 3 } {} = some m ∧
    System.weave? ⟨m, []⟩ raceOfThree = some (history, s) ∧
    (s.machine.kernel.queues 1).running = some 3 ∧
    history.filterMap (·.told 3) = [false, true, false] ∧
    ∃ newer seg older, history = newer ++ seg :: older ∧ seg.Admits m.kernel.idleOf? 3 1 ∧
      (∀ other ∈ newer ++ older, other.Abstains m.kernel.idleOf? 3) ∧
      s.machine.kernel.ownerOf 3 = some 1 ∧
      ∀ seg ∈ history, ∀ d, d ≠ 1 →
        ¬ (seg.before.queues d).Holds 3 ∧ ¬ (seg.after.queues d).Holds 3 := by
  obtain ⟨m, history, s, hm, hscript, htest⟩ := System.exists_weave { processors := 3 } {}
    raceOfThree (fun m history s =>
      decide ((s.machine.kernel.queues 1).running = some 3) &&
      (decide (history.filterMap (·.told 3) = [false, true, false]) &&
      (decide (s.machine.kernel.ownerOf 3 = some 1) && (s.tasks.isEmpty &&
      (history.any (fun seg => seg.first && (decide (3 < seg.before.threads.length) &&
        ((seg.op.startsOn m.kernel.idleOf? seg.core 3).isSome && !seg.op.comesLate seg.before))) &&
      history.all fun seg => (seg.before.ownerOf 3).isNone || (seg.after.ownerOf 3).isSome)))))
    (by decide +kernel)
  simp only [Bool.and_eq_true, decide_eq_true_eq, List.any_eq_true, List.all_eq_true,
    Bool.or_eq_true, Bool.not_eq_true', List.isEmpty_iff] at htest
  obtain ⟨hruns, htold, howner, htasks, ⟨seg, hseg, hfirst, ht, hstarts, hlate⟩, hkept⟩ := htest
  have hspared : ∀ seg ∈ history, ¬ seg.Kills 3 := by
    rintro seg hseg ⟨-, howned, hnone⟩
    rcases hkept seg hseg with h | h
    · exact howned (Option.isNone_iff_eq_none.mp h)
    · rw [hnone] at h
      cases h
  have hreturned : ∀ task ∈ s.tasks, task.op.startsOn m.kernel.idleOf? task.core 3 = none := by
    rw [htasks]
    exact System.forall_tasks_start (m := m)
  obtain ⟨c, newer, seg, older, hhistory, hadmits, habstain, hc, hothers⟩ :=
    thread_admitted_once (Machine.booted_of_boot? hm) (System.weaves_of_weave? hscript)
      ⟨seg, hseg, hfirst, ht, Option.isSome_iff_ne_none.mp hstarts, hlate⟩ hspared hreturned
  obtain rfl : c = 1 := Option.some.inj (hc.symm.trans howner)
  exact ⟨m, history, s, hm, hscript, hruns, htold, newer, seg, older, hhistory, hadmits, habstain,
    hc, hothers⟩

end Nucleus
