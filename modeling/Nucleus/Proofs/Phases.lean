import Nucleus.Proofs.Bystander

/-!
# How far a start has come

A start looks at the state of the thread, takes the thread for its core in one atomic access, and
queues it under the lock of that core; in between, anything may come in. An operation is in one of
four phases towards a thread, and each of its stretches leads from phase to phase.

* `Phase` is how far an operation has come with starting a thread, and `Phase.Moves` what a stretch
  of it does to the kernel.
* `Run.Follows` says that every stretch of a call is such a move, and `Op.follows_call` that this is
  so of every operation.
-/

namespace Nucleus

variable {G : Guest} {α β : Type}

/-! ## Phases of a start -/

/-- How far a call has come with starting a thread. -/
inductive Phase where
  /-- it has nothing to do with it -/
  | passing
  /-- it will try to take the thread for a core -/
  | seeking (c : CoreId)
  /-- it has taken the thread for a core, and will queue it there -/
  | pushing (c : CoreId)
  /-- it has queued the thread, or was refused -/
  | settled (c : CoreId)

namespace Phase

/-- The core that the thread is started on. -/
def core? : Phase → Option CoreId
  | passing => none
  | seeking c | pushing c | settled c => some c

/-- The core on which the thread is still to be queued. -/
def pushing? : Phase → Option CoreId
  | pushing c => some c
  | _ => none

/-- Is there nothing left to do? -/
def IsOver : Phase → Prop
  | passing | settled _ => True
  | _ => False

/-- What a stretch can do in a phase, and whether it queues the thread. -/
inductive Moves (t : ThreadId) (k k' : Kernel G) : Phase → Phase → Bool → Prop where
  /-- it passes the thread by -/
  | pass (bypasses : k.Bypasses k' t False) : Moves t k k' passing passing false
  /-- it has not tried yet -/
  | seek {c : CoreId} (bypasses : k.Bypasses k' t True) :
    Moves t k k' (seeking c) (seeking c) false
  /-- it is refused: somebody owns the thread, or it has ended -/
  | refuse {c : CoreId} (bypasses : k.Bypasses k' t True)
    (refused : k'.ownerOf t ≠ none ∨ k'.stateOf t = .terminated) :
    Moves t k k' (seeking c) (settled c) false
  /-- it takes the thread, which nobody owns -/
  | claim {c : CoreId} (free : k.ownerOf t = none) (found : t < k.threads.length)
    (claimed : k' = k.setOwner t (some c)) : Moves t k k' (seeking c) (pushing c) false
  /-- it queues the thread -/
  | push {c : CoreId} (pushed : k' = k.makeReady c t) : Moves t k k' (pushing c) (settled c) true
  /-- it goes on with other things -/
  | rest {c : CoreId} (bypasses : k.Bypasses k' t True) :
    Moves t k k' (settled c) (settled c) false

variable {t : ThreadId} {k k' : Kernel G} {p p' : Phase} {b : Bool} {c d : CoreId}

namespace Moves

/-- The core stays the same. -/
theorem core? (h : p.Moves t k k' p' b) : p'.core? = p.core? := by
  cases h <;> rfl

/-- The thread is passed by, or taken, or queued. -/
theorem effect (h : p.Moves t k k' p' b) : k.Bypasses k' t False ∨
    (∃ c, k.ownerOf t = none ∧ k' = k.setOwner t (some c)) ∨
    ∃ c, p = pushing c ∧ k' = k.makeReady c t := by
  cases h with
  | pass bypasses => exact .inl bypasses
  | seek bypasses => exact .inl bypasses.loud
  | refuse bypasses => exact .inl bypasses.loud
  | claim free _ claimed => exact .inr (.inl ⟨_, free, claimed⟩)
  | push pushed => exact .inr (.inr ⟨_, rfl, pushed⟩)
  | rest bypasses => exact .inl bypasses.loud

theorem idle (h : p.Moves t k k' p' b) : k'.idleOf? = k.idleOf? := by
  rcases h.effect with bypasses | ⟨c, -, rfl⟩ | ⟨c, -, rfl⟩
  · exact bypasses.idle
  · rfl
  · exact Kernel.idleOf?_updateCore c fun _ => rfl

theorem threads (h : p.Moves t k k' p' b) : k.threads.length ≤ k'.threads.length := by
  rcases h.effect with bypasses | ⟨c, -, rfl⟩ | ⟨c, -, rfl⟩
  · exact bypasses.threads
  · exact Nat.le_of_eq (k.length_threads_updateThread t _).symm
  · exact Nat.le_of_eq (k.length_threads_makeReady c t).symm

/-- Who owns the thread goes on to own it. -/
theorem owner (h : p.Moves t k k' p' b) (ho : k.ownerOf t = some d) : k'.ownerOf t = some d := by
  rcases h.effect with bypasses | ⟨c, free, -⟩ | ⟨c, -, rfl⟩
  · exact bypasses.owner.trans ho
  · rw [free] at ho
    cases ho
  · exact (k.ownerOf_setState t t .ready).trans ho

/-- Nobody but the owner gets hold of the thread. -/
theorem holds (h : p.Moves t k k' p' b) (hk : ∀ d, (k.queues d).Holds t → k.ownerOf t = some d)
    (hp : ∀ c, p = pushing c → k.ownerOf t = some c) (hd : (k'.queues d).Holds t) :
    k'.ownerOf t = some d := by
  rcases h.effect with bypasses | ⟨c, free, rfl⟩ | ⟨c, hpushing, rfl⟩
  · exact bypasses.owner.trans (hk d (bypasses.holds d hd))
  · have hnone := free.symm.trans (hk d hd)
    cases hnone
  · refine (k.ownerOf_setState t t .ready).trans ?_
    by_cases hcd : c = d
    · exact hcd ▸ hp c hpushing
    · exact hk d (Kernel.holds_of_makeReady hcd hd)

end Moves

end Phase

/-! ## Every stretch is a move -/

/-- What is asked of a call about a thread. -/
structure Watch (α : Type) where
  /-- the thread -/
  thread : ThreadId
  /-- the idle threads of the cores -/
  idle : CoreId → Option ThreadId
  /-- the core the call is carried out on -/
  here : CoreId
  /-- may the call end the thread? -/
  ends : Prop
  /-- what its answer tells about the start of the thread, if anything -/
  told : α → Option Bool

/-- What others leave while a call stands at a window: it goes on on its own core, the idle threads
are the same, and no thread has gone away. -/
structure Machine.Found (m : Machine G) (idle : CoreId → Option ThreadId) (here : CoreId)
    (threads : Nat) : Prop where
  /-- the idle threads are the same -/
  idle : m.kernel.idleOf? = idle
  /-- the call goes on on its own core -/
  current : m.chip.current = here
  /-- no thread has gone away -/
  threads : threads ≤ m.kernel.threads.length

/-- Every stretch of the call is a move, the present one from `k` and in the phase `p` on, unless it
takes the thread from its owner. The answer tells whether the thread was queued. -/
def Run.Follows (w : Watch α) : Phase → Kernel G → Run G α → Prop
  | p, k, done m a => ∃ p' b, p.Moves w.thread k m.kernel p' b ∧ p'.IsOver ∧
    ∀ b', w.told a = some b' → b' = b
  | _, _, halt _ _ => True
  | p, k, window m _ resume => (w.ends ∧ k.GivesUp m.kernel w.thread) ∨
    ∃ p' b, p.Moves w.thread k m.kernel p' b ∧ (b = true → ∀ a, w.told a = none) ∧
      ∀ m' : Machine G, m'.Found w.idle w.here m.kernel.threads.length →
        (resume m').Follows w p' m'.kernel
  | p, k, interrupt m _ _ _ resume => p.Moves w.thread k m.kernel p false ∧
    ∀ (m' : Machine G) x, m'.Found w.idle w.here m.kernel.threads.length →
      (resume m' x).Follows w p m'.kernel
  | p, k, enter m _ _ resume => p.Moves w.thread k m.kernel p false ∧
    ∀ (m' : Machine G) o, m'.Found w.idle w.here m.kernel.threads.length →
      (resume m' o).Follows w p m'.kernel

/-- What is left of a call after a stretch that has led to a phase. -/
def Watch.Remains (w : Watch α) (p : Phase) (queued : Bool) (m : Machine G) :
    α ⊕ Call G α → Prop
  | .inl a => p.IsOver ∧ ∀ b, w.told a = some b → b = queued
  | .inr rest => (queued = true → ∀ a, w.told a = none) ∧
    ∀ m' : Machine G, m'.Found w.idle w.here m.kernel.threads.length →
      (rest m').Follows w p m'.kernel

/-- **A stretch is a move**, and what is left goes on from there. -/
theorem Run.Follows.rests {w : Watch α} {p : Phase} {k : Kernel G} {x : Run G α} {n : Machine G}
    {r : α ⊕ Call G α} (hx : x.Follows w p k) (h : x.Rests true n r) :
    (w.ends ∧ k.GivesUp n.kernel w.thread) ∨
      ∃ p' b, p.Moves w.thread k n.kernel p' b ∧ w.Remains p' b n r := by
  cases x with
  | done m a =>
    obtain ⟨rfl, rfl⟩ := rests_done.mp h
    exact .inr hx
  | halt m why => exact (rests_halt.mp h).elim
  | window m w resume =>
    obtain ⟨rfl, rfl⟩ := rests_window_pausing.mp h
    exact hx
  | interrupt m home code x resume =>
    obtain ⟨rfl, x', rfl⟩ := rests_interrupt.mp h
    exact .inr ⟨p, false, hx.1, nofun, fun m' => hx.2 m' x'⟩
  | enter m code a resume =>
    obtain ⟨rfl, o, rfl⟩ := rests_enter.mp h
    exact .inr ⟨p, false, hx.1, nofun, fun m' => hx.2 m' o⟩

/-- A call that passes the thread by stays in its phase, if that is one in which it may do so. -/
theorem Run.Bypasses.follows {w : Watch α} {quiet : Prop} {p : Phase} {k : Kernel G} {x : Run G α}
    (hx : x.Bypasses w.thread w.idle w.ends quiet k) (htold : ∀ a, w.told a = none)
    (hp : p.IsOver) (hmove : ∀ k k' : Kernel G, k.Bypasses k' w.thread quiet →
      p.Moves w.thread k k' p false) : x.Follows w p k := by
  induction x generalizing k with
  | done m a =>
    refine ⟨p, false, hmove _ _ hx, hp, fun b' hb' => ?_⟩
    rw [htold] at hb'
    cases hb'
  | halt m why => trivial
  | window m w resume ih =>
    refine hx.imp_right fun h => ⟨p, false, hmove _ _ h.1, nofun, fun m' hm' => ?_⟩
    exact ih m' (h.2 m' hm'.idle)
  | interrupt m home code x resume ih =>
    exact ⟨hmove _ _ hx.1, fun m' x' hm' => ih m' x' (hx.2 m' x' hm'.idle)⟩
  | enter m code a resume ih =>
    exact ⟨hmove _ _ hx.1, fun m' o hm' => ih m' o (hx.2 m' o hm'.idle)⟩

/-! ### Calls that start the thread -/

namespace Call

variable {t : ThreadId} {idle : CoreId → Option ThreadId} {here c : CoreId} {ends : Prop}

theorem claim_apply_of_free {m : Machine G} (h : m.kernel.ownerOf t = none) :
    claim t c m = .done { m with kernel := m.kernel.setOwner t (some c) } true := by
  simp only [claim]
  rw [bind_of_done (read_apply _ m), h]
  rfl

theorem claim_apply_of_owned {m : Machine G} (h : m.kernel.ownerOf t ≠ none) :
    claim t c m = .done m false := by
  obtain ⟨d, hd⟩ := Option.ne_none_iff_exists'.mp h
  simp only [claim]
  rw [bind_of_done (read_apply _ m), hd]
  rfl

/-- **A start** looks, takes the thread, and queues it. -/
theorem follows_startThread (m : Machine G) :
    (startThread c t m).Follows ⟨t, idle, here, ends, some⟩ (.seeking c) m.kernel := by
  have answered (b b' : Bool) (h : some b = some b') : b' = b := (Option.some.inj h).symm
  simp only [startThread]
  rw [bind_of_done (read_apply _ m)]
  by_cases hs : m.kernel.stateOf t = .terminated
  · rw [if_pos hs]
    exact ⟨_, false, .refuse (.refl _ t True) (.inr hs), trivial, answered false⟩
  · rw [if_neg hs]
    refine .inr ⟨_, false, .seek (.refl _ t True), nofun, fun m' hm' => ?_⟩
    have ht : t < m'.kernel.threads.length :=
      Nat.lt_of_lt_of_le (Kernel.lt_length_of_stateOf hs) hm'.threads
    change Run.Follows _ _ _ ((claim t c >>= _) m')
    by_cases ho : m'.kernel.ownerOf t = none
    · rw [bind_of_done (claim_apply_of_free ho)]
      refine .inr ⟨_, false, .claim ho ht rfl, nofun, fun n _ => ?_⟩
      -- the lock is taken and the thread queued in one stretch
      change Run.Follows _ _ _ (Run.bind (Run.bind (Run.bind (acquire _ n) _) _) _)
      by_cases hl : Lock.queues c ∈ n.chip.held
      · rw [acquire_apply_of_mem hl]
        trivial
      · rw [acquire_apply_of_not_mem hl]
        exact ⟨_, true, .push rfl, trivial, answered true⟩
    · rw [bind_of_done (claim_apply_of_owned ho)]
      exact ⟨_, false, .refuse (.refl _ t True) (.inl ho), trivial, answered false⟩

/-- So does a start on the executing core, which first sets the argument. -/
theorem follows_startThreadHere (argument : UInt64) (m : Machine G) :
    (startThreadHere t argument m).Follows ⟨t, idle, here, ends, some⟩ (.seeking here)
      m.kernel := by
  simp only [startThreadHere]
  rw [bind_of_done (read_apply _ m)]
  cases ho : m.kernel.ownerOf t with
  | some d =>
    rw [if_pos Option.isSome_some]
    refine ⟨_, false, .refuse (.refl _ t True) (.inl ?_), trivial, fun b hb => ?_⟩
    · rw [ho]
      exact Option.some_ne_none d
    · exact (Option.some.inj hb).symm
  | none =>
    rw [if_neg (by simp)]
    refine .inr ⟨_, false, .seek (.refl _ t True), nofun, fun m' _ => ?_⟩
    refine .inr ⟨_, false, .seek ?_, nofun, fun n hn => ?_⟩
    · exact Kernel.bypasses_updateThread t fun _ => ⟨rfl, rfl⟩
    · change Run.Follows _ _ _ ((currentCore >>= _) n)
      by_cases hc : n.kernel.manages n.chip.current = true
      · rw [bind_of_done (currentCore_apply hc), hn.current]
        exact follows_startThread n
      · rw [bind_apply, currentCore_apply_of_unmanaged hc]
        trivial

/-- What follows a start, if it passes the thread by and begins with a window. -/
theorem follows_bind {w : Watch α} {p : Phase} {k : Kernel G} {x : Run G α}
    {f : α → Machine G → Run G β} (hx : x.Follows w p k) (hp : p.core? = some c)
    (hk : k.idleOf? = w.idle) (hf : ∀ a (m : Machine G), m.kernel.idleOf? = w.idle →
      ∃ n wd rest, f a m = .window n wd rest ∧ n.kernel = m.kernel ∧
        (f a m).Bypasses w.thread w.idle w.ends True m.kernel) :
    (x.bind f).Follows { w with told := fun _ => none } p k := by
  induction x generalizing p k with
  | done m a =>
    obtain ⟨p', b, hmove, hover, -⟩ := hx
    obtain ⟨n, wd, rest, hfm, hn, hbypasses⟩ := hf a m (hmove.idle.trans hk)
    have hp' : p' = .settled c := by
      have hcore := hmove.core?.trans hp
      cases p' with
      | settled d => exact congrArg Phase.settled (Option.some.inj hcore)
      | passing => cases hcore
      | seeking d | pushing d => exact hover.elim
    subst hp'
    rw [hfm] at hbypasses
    rw [Run.done_bind, hfm]
    rcases hbypasses with ⟨-, howned, hnone⟩ | ⟨-, hrest⟩
    · rw [hn] at hnone
      exact absurd hnone howned
    · refine .inr ⟨.settled c, b, hn ▸ hmove, fun _ _ => rfl, fun m' hm' => ?_⟩
      have hbypasses := hrest m' hm'.idle
      exact Run.Bypasses.follows hbypasses (fun _ => rfl) trivial fun _ _ => .rest
  | halt m why => trivial
  | window m wd rest ih =>
    rcases hx with hends | ⟨p', b, hmove, -, hrest⟩
    · exact .inl hends
    · exact .inr ⟨p', b, hmove, fun _ _ => rfl, fun m' hm' =>
        ih m' (hrest m' hm') (hmove.core?.trans hp) hm'.idle⟩
  | interrupt m home code y rest ih =>
    exact ⟨hx.1, fun m' y' hm' => ih m' y' (hx.2 m' y' hm') hp hm'.idle⟩
  | enter m code a rest ih =>
    exact ⟨hx.1, fun m' o hm' => ih m' o (hx.2 m' o hm') hp hm'.idle⟩

theorem discard_bind_apply (x : Call G α) (f : Unit → Call G β) (m : Machine G) :
    (discard x >>= f) m = (x m).bind fun _ n => f () n :=
  Run.bind_assoc (x m) _ _

/-- A bootstrap starts the idle thread of its core, unless the core has been started. -/
theorem follows_bootstrap {m : Machine G} (hi : idle c = some t) :
    (bootstrap c m).Follows ⟨t, idle, here, ends, fun _ => none⟩
      (if m.kernel.isStarted c then .settled c else .seeking c) m.kernel := by
  simp only [bootstrap]
  rw [bind_of_done (read_apply _ m)]
  cases m.kernel.isStarted c with
  | true => exact ⟨_, false, .rest (.refl _ t True), trivial, nofun⟩
  | false =>
    refine .inr ⟨_, false, .seek ?_, nofun, fun m' hm' => ?_⟩
    · exact Kernel.bypasses_updateCore c (fun _ => rfl) fun _ => rfl
    · have hidle : m'.kernel.idleOf? c = some t := by
        rw [hm'.idle]
        exact hi
      change Run.Follows _ _ _ ((read (·.idleOf? c) >>= _) m')
      rw [bind_of_done (read_apply _ m'), hidle]
      change Run.Follows _ _ _ ((discard (startThread c t) >>= _) m')
      rw [discard_bind_apply]
      exact follows_bind (follows_startThread m') rfl hm'.idle fun _ n hn =>
        ⟨_, _, _, rfl, rfl, bypasses_install c n hn⟩

end Call

/-! ### Operations -/

namespace Op

variable {idle : CoreId → Option ThreadId} {here : CoreId} {t : ThreadId}

/-- What the answer of an operation tells about the start of a thread. -/
def told (t : ThreadId) : (op : Op G) → op.Result → Option Bool
  | startThread _ u, started => if u = t then some started else none
  | startThreadHere u _, started => if u = t then some started else none
  | _, _ => none

/-- What is asked of an operation on core `here` about a thread. -/
def watch (idle : CoreId → Option ThreadId) (here : CoreId) (t : ThreadId) (op : Op G) :
    Watch op.Result :=
  ⟨t, idle, here, op.MayEnd t, op.told t⟩

/-- Is it a bootstrap of a core that has been started? It starts nobody. -/
def comesLate (k : Kernel G) : Op G → Bool
  | bootstrap c => k.isStarted c
  | _ => false

/-- The phase in which an operation begins. -/
def phase (idle : CoreId → Option ThreadId) (here : CoreId) (t : ThreadId) (k : Kernel G)
    (op : Op G) : Phase :=
  match op.startsOn idle here t with
  | none => .passing
  | some c => if op.comesLate k then .settled c else .seeking c

theorem phase_of_none {op : Op G} (k : Kernel G) (h : op.startsOn idle here t = none) :
    op.phase idle here t k = .passing := by
  simp only [phase]
  rw [h]

theorem phase_of_some {op : Op G} {c : CoreId} (k : Kernel G)
    (h : op.startsOn idle here t = some c) :
    op.phase idle here t k = if op.comesLate k then .settled c else .seeking c := by
  simp only [phase]
  rw [h]

/-- It is about the core that the operation starts the thread on, and there is nothing to queue
yet. -/
theorem phase_spec (k : Kernel G) (op : Op G) :
    (op.phase idle here t k).core? = op.startsOn idle here t ∧
      (op.phase idle here t k).pushing? = none := by
  cases h : op.startsOn idle here t with
  | none =>
    rw [phase_of_none k h]
    exact ⟨rfl, rfl⟩
  | some c =>
    rw [phase_of_some k h]
    split <;> exact ⟨rfl, rfl⟩

/-- An operation tells about the thread always or never, and always only if it starts it. -/
theorem told_cases (idle : CoreId → Option ThreadId) (here : CoreId) (t : ThreadId) (op : Op G) :
    (∀ a, op.told t a = none) ∨ (∀ a, op.told t a ≠ none) ∧ op.startsOn idle here t ≠ none := by
  cases op with
  | startThread c u | startThreadHere u argument =>
    by_cases hu : u = t
    · exact .inr (by simp [told, startsOn, hu])
    · exact .inl fun _ => if_neg hu
  | _ => exact .inl fun _ => rfl

/-- An operation that starts the thread tells so, or it is a bootstrap. -/
theorem eq_bootstrap_of_told {op : Op G} {c : CoreId} (h : op.startsOn idle here t = some c)
    (htold : ∀ a, op.told t a = none) : op = bootstrap c := by
  simp only [startsOn] at h
  cases op with
  | startThread d u | startThreadHere u argument =>
    obtain ⟨hu, -⟩ := Option.ite_none_right_eq_some.mp h
    have hsome : some true = none := (if_pos hu).symm.trans (htold true)
    cases hsome
  | bootstrap d =>
    obtain ⟨-, hd⟩ := Option.ite_none_right_eq_some.mp h
    exact congrArg bootstrap (Option.some.inj hd)
  | _ => cases h

/-- **Every stretch of an operation is a move**, whatever the operation. -/
theorem follows_call (op : Op G) (m : Machine G) (hm : m.kernel.idleOf? = idle) :
    (op.call m).Follows (op.watch idle here t) (op.phase idle here t m.kernel) m.kernel := by
  cases hstart : op.startsOn idle here t with
  | none =>
    have htold : ∀ a, op.told t a = none :=
      (told_cases idle here t op).resolve_right fun h => h.2 hstart
    rw [phase_of_none m.kernel hstart]
    exact Run.Bypasses.follows (bypasses_call hstart m hm) htold trivial fun _ _ => .pass
  | some c =>
    rw [phase_of_some m.kernel hstart]
    simp only [startsOn] at hstart
    cases op with
    | startThread d u =>
      obtain ⟨rfl, hc⟩ := Option.ite_none_right_eq_some.mp hstart
      obtain rfl := Option.some.inj hc
      have htold : (startThread d u : Op G).told u = some := funext fun _ => if_pos rfl
      simp only [watch]
      rw [htold]
      exact Call.follows_startThread m
    | startThreadHere u argument =>
      obtain ⟨rfl, hc⟩ := Option.ite_none_right_eq_some.mp hstart
      obtain rfl := Option.some.inj hc
      have htold : (startThreadHere u argument : Op G).told u = some := funext fun _ => if_pos rfl
      simp only [watch]
      rw [htold]
      exact Call.follows_startThreadHere argument m
    | bootstrap d =>
      obtain ⟨hi, hc⟩ := Option.ite_none_right_eq_some.mp hstart
      obtain rfl := Option.some.inj hc
      exact Call.follows_bootstrap hi
    | _ => cases hstart

end Op

end Nucleus
