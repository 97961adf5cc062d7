import Mathlib.Logic.Hydra
import Mathlib.Tactic.Abel
import Nucleus.Reading
import Nucleus.Proofs.Interrupts

/-!
# Deferred calls, in order and to the end

A core notification runs the deferred calls of a core until none waits. A deferred call may put down
further ones, so the queue grows while it is drained; it is drained all the same, if what a deferred
call puts down has finite depth: it is a tree of deferred calls without infinite branches.

* `Machine.Registers` says that deferred calls are queued one after the other, with whatever else in
  between, and `Dpc.queued` what a deferred call puts down.
* `DrainMeets` says what a drain comes to carry out, with which context and on which machine. What
  a deferred call has to do for a drain to go on, `Dpc.Answers`, and its finite depth,
  `Dpc.FiniteDepth`, are asked for there only.
* `Call.drainServing` is the drain together with a record of the deferred calls it carried out, and
  `Call.drain_eq` says that it is the drain.
* `Call.runDpc_of_answers` says what carrying out one deferred call does, and `Call.exists_drained`
  what the drain does. The queue gets smaller in the order on multisets in which one element is
  replaced by any number of lesser ones.
* `drain_serves_in_order` is the result for a core notification.
-/

namespace Nucleus

variable {G : Guest} {α β : Type}

/-! ## Deferred calls of finite depth -/

/-- Something else is done: the queue of core `c` stays as it is, and nothing is posted. -/
structure Machine.Quiet (c : CoreId) (m n : Machine G) : Prop where
  /-- the queue stays as it is -/
  dpcs : n.kernel.dpcs c = m.kernel.dpcs c
  /-- nothing is posted -/
  notifications : n.chip.notifications = m.chip.notifications
  /-- the core is managed as it was -/
  manages : n.kernel.manages c = m.kernel.manages c

/-- Deferred calls are queued on core `c`, one after the other, and something else may be done
before and after each of them. -/
inductive Machine.Registers (c : CoreId) : List (Dpc G) → Machine G → Machine G → Prop where
  /-- nothing is queued any more -/
  | nil {m n : Machine G} (quiet : m.Quiet c n) : Registers c [] m n
  /-- one is queued, and then the others -/
  | cons {m m₁ m₂ n : Machine G} {d : Dpc G} {later : List (Dpc G)} (quiet : m.Quiet c m₁)
    (registers : (Call.registerDpc c d m₁).ending? = some (m₂, ()))
    (rest : Registers c later m₂ n) : Registers c (d :: later) m n

/-- What carrying out a deferred call does: it puts down deferred calls on core `c`, and gives back
every lock that it takes. -/
structure Machine.Defers (c : CoreId) (later : List (Dpc G)) (m n : Machine G) : Prop where
  /-- it puts down deferred calls -/
  registers : m.Registers c later n
  /-- the locks are as they were -/
  held : n.chip.held = m.chip.held

/-- Which deferred calls the routines of the client put down: that may depend on the context they
are given and the machine they find. -/
abbrev Puts (G : Guest) : Type := CoreId → G.Routine → Context → Machine G → List (Dpc G)

/-- What a deferred call puts down. -/
def Dpc.queued (puts : Puts G) (x : Context) (m : Machine G) : Dpc G → List (Dpc G)
  | reschedule _ => []
  | routine home code => puts home code x m

/-- **A deferred call answers**, given the context `x` on machine `m`: a reschedule finds somebody
in the rotation of its core, and a routine puts down deferred calls on core `c`, whatever else it
does and whatever context it answers with. -/
def Dpc.Answers (client : Client G) (puts : Puts G) (c : CoreId) (x : Context) (m : Machine G) :
    Dpc G → Prop
  | reschedule d => (m.kernel.queues d).ready ≠ []
  | routine home code => m.Defers c (puts home code x m) (client.routine home code x m).1

/-- **Finite depth.** Wherever the deferred call is met, it puts down deferred calls of finite
depth. -/
inductive Dpc.FiniteDepth (puts : Puts G) (met : Dpc G → Context → Machine G → Prop) :
    Dpc G → Prop where
  /-- what it puts down has finite depth -/
  | mk (d : Dpc G) (deep : ∀ x m, met d x m → ∀ d' ∈ d.queued puts x m, FiniteDepth puts met d') :
    FiniteDepth puts met d

/-- A deferred call that the other one puts down, where that one is met. -/
def Dpc.Below (puts : Puts G) (met : Dpc G → Context → Machine G → Prop) (d' d : Dpc G) : Prop :=
  d.FiniteDepth puts met ∧ ∃ x m, met d x m ∧ d' ∈ d.queued puts x m

section

variable {puts : Puts G} {met : Dpc G → Context → Machine G → Prop} {d : Dpc G}

theorem Dpc.FiniteDepth.of_mem_queued {d' : Dpc G} {x : Context} {m : Machine G}
    (h : d.FiniteDepth puts met) (hmet : met d x m) (hd : d' ∈ d.queued puts x m) :
    d'.FiniteDepth puts met := by
  cases h with
  | mk d deep => exact deep x m hmet d' hd

/-- There is no infinite branch. -/
theorem Dpc.wellFounded_below (puts : Puts G) (met : Dpc G → Context → Machine G → Prop) :
    WellFounded (Dpc.Below puts met) := by
  refine ⟨fun d => ⟨d, ?_⟩⟩
  rintro d' ⟨hdepth, x, m, hmet, hd⟩
  induction hdepth generalizing d' x m with
  | mk d deep ih =>
    refine ⟨d', ?_⟩
    rintro d'' ⟨-, x', m', hmet', hd'⟩
    exact ih x m hmet d' hd d'' x' m' hmet' hd'

end

/-! ## What a drain meets -/

/-- The machine that a look at the queue of core `c` leaves: the lock of the queue was taken, and
given back after the interrupt flag. -/
def Machine.looked (m : Machine G) (c : CoreId) : Machine G :=
  { m with chip := ((m.chip.mask.acquire (.dpcs c)).restore m.chip.interrupts).release (.dpcs c) }

/-- The machine on which a deferred call is carried out that was taken from the queue of core `c`,
where `later` is left. -/
def Machine.taking (m : Machine G) (c : CoreId) (later : List (Dpc G)) : Machine G :=
  { m.looked c with
    kernel := m.kernel.setDpcs c later
    log := .runningDpc :: m.log }

/-- **What a drain meets.** A drain of core `c` in the context `x` on machine `m` comes to carry out
a deferred call, in the context and on the machine that those before it have left. -/
inductive DrainMeets (client : Client G) (c : CoreId) :
    Context → Machine G → Dpc G → Context → Machine G → Prop where
  /-- the oldest is carried out first -/
  | first {x : Context} {m : Machine G} {d : Dpc G} {later : List (Dpc G)}
    (h : m.kernel.dpcs c = d :: later) : DrainMeets client c x m d x (m.taking c later)
  /-- another one is met once the oldest is carried out -/
  | next {x x' y : Context} {m m' n : Machine G} {d d' : Dpc G} {later : List (Dpc G)}
    (h : m.kernel.dpcs c = d :: later)
    (hrun : (Call.runDpc d x (m.taking c later)).alone client = .returned n y)
    (rest : DrainMeets client c y n d' x' m') : DrainMeets client c x m d' x' m'

namespace Machine

variable {m : Machine G} {c : CoreId} {later : List (Dpc G)}

/-- The lock of the queue is given back. -/
@[simp] theorem held_looked (m : Machine G) (c : CoreId) :
    (m.looked c).chip.held = m.chip.held := by
  simp [looked]

@[simp] theorem held_taking (m : Machine G) (c : CoreId) (later : List (Dpc G)) :
    (m.taking c later).chip.held = m.chip.held := m.held_looked c

@[simp] theorem notifications_taking (m : Machine G) (c : CoreId) (later : List (Dpc G)) :
    (m.taking c later).chip.notifications = m.chip.notifications := rfl

@[simp] theorem queues_taking (m : Machine G) (c : CoreId) (later : List (Dpc G)) (d : CoreId) :
    (m.taking c later).kernel.queues d = m.kernel.queues d :=
  m.kernel.queues_setDpcs c later d

@[simp] theorem manages_taking (m : Machine G) (c : CoreId) (later : List (Dpc G)) (d : CoreId) :
    (m.taking c later).kernel.manages d = m.kernel.manages d :=
  Kernel.manages_updateCore _ c d _

/-- The others are left in the queue. -/
theorem dpcs_taking (managed : m.kernel.manages c = true) (later : List (Dpc G)) :
    (m.taking c later).kernel.dpcs c = later :=
  (Kernel.dpcs_setDpcs _ managed later c).trans (if_pos rfl)

end Machine

/-- **An invariant of a drain**: what holds before a deferred call is taken, and gives something of
the machine on which that one is carried out, gives it wherever a deferred call is met. -/
theorem DrainMeets.of_invariant {client : Client G} {c : CoreId} {I : Machine G → Prop}
    {J : Dpc G → Machine G → Prop} {x x' : Context} {m m' : Machine G} {d' : Dpc G}
    (taken : ∀ {m d later}, I m → m.kernel.dpcs c = d :: later → J d (m.taking c later))
    (carriedOut : ∀ {d x m n y}, J d m → (Call.runDpc d x m).alone client = .returned n y → I n)
    (hmeets : DrainMeets client c x m d' x' m') (hm : I m) : J d' m' := by
  induction hmeets with
  | first h => exact taken hm h
  | next h hrun rest ih => exact ih (carriedOut (taken hm h) hrun)

/-! ## What one deferred call does -/

namespace Run

/-- A call that runs no client code ends the same with any client. -/
theorem alone_of_ending? (client : Client G) {x : Run G α} {n : Machine G} {a : α}
    (h : x.ending? = some (n, a)) : x.alone client = .returned n a := by
  induction x with
  | done m b =>
    cases h
    rfl
  | window m w resume ih => exact ih m h
  | halt | interrupt | enter => cases h

/-- The second call begins where the first has returned. -/
theorem alone_bind_of_returned {client : Client G} {x : Run G α} {n : Machine G} {a : α}
    (h : x.alone client = .returned n a) (f : α → Machine G → Run G β) :
    (x.bind f).alone client = (f a n).alone client := by
  rw [alone_bind, h]
  rfl

end Run

namespace Call

variable {client : Client G} {puts : Puts G} {c : CoreId} {m n : Machine G}

/-- **A deferred call is queued, and then announced.** -/
theorem ending?_registerDpc (d : Dpc G) (hl : .dpcs c ∉ m.chip.held) :
    ∃ m₁ : Machine G, m₁.kernel = m.kernel.setDpcs c (m.kernel.dpcs c ++ [d]) ∧
      m₁.chip.notifications = m.chip.notifications ∧ m₁.chip.held = m.chip.held ∧
      (registerDpc c d m).ending? = some ({ m₁ with chip := m₁.chip.notify }, ()) := by
  have hqueue := ending?_locked (x := change fun k => k.setDpcs c (k.dpcs c ++ [d])) hl rfl
  exact ⟨{ m with
    kernel := m.kernel.setDpcs c (m.kernel.dpcs c ++ [d])
    chip := ((m.chip.mask.acquire (.dpcs c)).release (.dpcs c)).restore m.chip.interrupts },
    rfl, rfl, m.chip.mask.held_release_acquire (.dpcs c), Run.ending?_bind_of_some hqueue _⟩

/-- Who has queued a deferred call has found the lock of the queue free. -/
theorem not_mem_held_of_registerDpc {d : Dpc G} {u : Unit}
    (h : (registerDpc c d m).ending? = some (n, u)) : .dpcs c ∉ m.chip.held := by
  intro hl
  have hstops : (registerDpc c d m).ending? = none :=
    Run.ending?_bind_of_none (ending?_locked_of_mem hl _) _
  cases hstops.symm.trans h

theorem dpcs_registerDpc {d : Dpc G} (managed : m.kernel.manages c = true)
    (h : (registerDpc c d m).ending? = some (n, ())) :
    n.kernel.dpcs c = m.kernel.dpcs c ++ [d] ∧
      n.chip.notifications = m.chip.notifications + 1 ∧ n.kernel.manages c = true := by
  obtain ⟨m₁, hkernel, hnotifications, -, hn⟩ :=
    ending?_registerDpc d (not_mem_held_of_registerDpc h)
  obtain ⟨rfl, -⟩ := Prod.mk.inj (Option.some.inj (h.symm.trans hn))
  refine ⟨?_, congrArg (· + 1) hnotifications, ?_⟩
  · rw [hkernel, Kernel.dpcs_setDpcs _ managed, if_pos rfl]
  · rw [hkernel]
    exact (Kernel.manages_updateCore _ c c _).trans managed

/-- **What is put down comes last, and each is announced by one notification.** -/
theorem dpcs_registers {ds : List (Dpc G)} (h : m.Registers c ds n)
    (managed : m.kernel.manages c = true) :
    n.kernel.dpcs c = m.kernel.dpcs c ++ ds ∧
      n.chip.notifications = m.chip.notifications + ds.length ∧ n.kernel.manages c = true := by
  induction h with
  | nil quiet =>
    refine ⟨?_, quiet.notifications, quiet.manages.trans managed⟩
    rw [quiet.dpcs, List.append_nil]
  | @cons m m₁ m₂ n d later quiet registers rest ih =>
    obtain ⟨hdpcs, hposted, hmanaged⟩ :=
      dpcs_registerDpc (quiet.manages.trans managed) registers
    obtain ⟨hlater, hlaterPosted, hn⟩ := ih hmanaged
    refine ⟨?_, ?_, hn⟩
    · rw [hlater, hdpcs, quiet.dpcs, List.append_assoc]
      rfl
    · rw [hlaterPosted, hposted, quiet.notifications, List.length_cons]
      omega

/-- A switch to somebody changes the kernel state only. -/
theorem ending?_rotate {d : CoreId} (x : Context) (h : (m.kernel.queues d).successor ≠ none) :
    (rotate d x m).ending? = some ({ m with kernel := (Effect.yieldThread d x m.kernel).1 },
      (Effect.yieldThread d x m.kernel).2) := by
  obtain ⟨next, hnext⟩ := Option.ne_none_iff_exists'.mp h
  simp only [rotate, Effect.yieldThread]
  rw [bind_of_done (read_apply _ m)]
  simp only [Kernel.rotate]
  rw [hnext]
  rfl

/-- A switch puts nothing down. -/
theorem exists_yieldThread {d : CoreId} (c : CoreId) (x : Context) (free : m.chip.held = [])
    (occupied : (m.kernel.queues d).ready ≠ []) :
    ∃ n, (yieldThread d x m).ending? = some (n, (Effect.yieldThread d x m.kernel).2) ∧
      n.kernel = (Effect.yieldThread d x m.kernel).1 ∧ m.Defers c [] n := by
  have hl : .queues d ∉ m.chip.held := free ▸ List.not_mem_nil
  have hsucc : (m.kernel.queues d).successor ≠ none := RunQueues.successor_ne_none occupied
  refine ⟨_, ending?_locked hl (ending?_rotate x hsucc), rfl, .nil ⟨?_, rfl, ?_⟩, ?_⟩
  · exact Kernel.dpcs_turn m.kernel d x c
  · exact (Kernel.Adjusts.refl.turn d x).manages c
  · exact m.chip.mask.held_release_acquire (.queues d)

/-- **A deferred call that answers** is carried out, and puts down what it has to. -/
theorem runDpc_of_answers {d : Dpc G} {x : Context} (hd : d.Answers client puts c x m)
    (free : m.chip.held = []) :
    ∃ n y, (runDpc d x m).alone client = .returned n y ∧ m.Defers c (d.queued puts x m) n := by
  cases d with
  | reschedule d =>
    obtain ⟨n, hn, -, hdefers⟩ := exists_yieldThread c x free hd
    exact ⟨n, _, Run.alone_of_ending? client hn, hdefers⟩
  | routine home code =>
    exact ⟨(client.routine home code x m).1, (client.routine home code x m).2, rfl, hd⟩

end Call

/-! ## The drain, with a record -/

/-- A deferred call that was carried out. -/
structure Serving (G : Guest) where
  /-- the deferred call -/
  dpc : Dpc G
  /-- the machine that it found -/
  before : Machine G
  /-- the context that it was given -/
  given : Context
  /-- the machine that it left -/
  after : Machine G
  /-- the context that it answered -/
  answer : Context

namespace Serving

/-- What was put down meanwhile. -/
def queued (puts : Puts G) (s : Serving G) : List (Dpc G) := s.dpc.queued puts s.given s.before

/-- The first is given `x`, each of the others what the one before answered, and `y` is the last
answer: `x` itself, if there are none. -/
def Threads : Context → List (Serving G) → Context → Prop
  | x, [], y => y = x
  | x, s :: later, y => s.given = x ∧ Threads s.answer later y

end Serving

namespace Call

/-- Run deferred calls until none waits, and record them. -/
def drainServing : Nat → CoreId → Context → Call G (Context × List (Serving G))
  | 0, _, _ => stop .exhausted
  | fuel + 1, c, context => do
    match ← popDpc c with
    | none => return (context, [])
    | some d =>
      note .runningDpc
      let before ← look id
      let answer ← runDpc d context
      let after ← look id
      let (last, later) ← drainServing fuel c answer
      return (last, ⟨d, before, context, after, answer⟩ :: later)

/-- A look at the machine that is not used. -/
theorem look_bind_const (f : Machine G → α) (g : Call G β) : (look f >>= fun _ => g) = g := rfl

/-- **The record leaves the drain as it is.** -/
theorem drain_eq (fuel : Nat) (c : CoreId) (x : Context) :
    (drain fuel c x : Call G Context) = Prod.fst <$> drainServing fuel c x := by
  induction fuel generalizing x with
  | zero => rfl
  | succ fuel ih =>
    simp only [drain, drainServing, map_bind]
    refine bind_congr fun o => ?_
    cases o with
    | none => rfl
    | some d =>
      simp only [ih, map_eq_pure_bind, bind_assoc, pure_bind, look_bind_const]

variable {c : CoreId} {m : Machine G}

/-- A look at a queue that is empty: only the journal differs afterwards. -/
theorem ending?_popDpc_of_nil (hl : .dpcs c ∉ m.chip.held) (h : m.kernel.dpcs c = []) :
    (popDpc c m).ending? = some (m.looked c, none) := by
  refine ending?_overheld (n := { m with chip := m.chip.mask.acquire (.dpcs c) }) hl ?_
  rw [bind_of_done (read_apply _ _), h]
  rfl

theorem ending?_popDpc_of_cons {d : Dpc G} {later : List (Dpc G)} (hl : .dpcs c ∉ m.chip.held)
    (h : m.kernel.dpcs c = d :: later) : (popDpc c m).ending? =
      some ({ m.looked c with kernel := m.kernel.setDpcs c later }, some d) := by
  refine ending?_overheld (n := { m with
    kernel := m.kernel.setDpcs c later
    chip := m.chip.mask.acquire (.dpcs c) }) hl ?_
  rw [bind_of_done (read_apply _ _), h]
  rfl

end Call

/-- **What a drain of core `c` does**, given the context `x` on machine `m`: it carries out `runs`,
answers `y` and leaves machine `n`. -/
structure Drained (client : Client G) (puts : Puts G) (c : CoreId) (x : Context) (m : Machine G)
    (runs : List (Serving G)) (n : Machine G) (y : Context) : Prop where
  /-- it returns, with fuel for every deferred call and for a last look at the queue -/
  returns : ∀ fuel, runs.length < fuel →
    (Call.drainServing fuel c x m).alone client = .returned n (y, runs)
  /-- what waits at the beginning comes first, then what is put down meanwhile, as it is put down -/
  order : runs.map (·.dpc) = m.kernel.dpcs c ++ runs.flatMap (·.queued puts)
  /-- contexts are handed from one to the next -/
  threads : Serving.Threads x runs y
  /-- each is carried out, and queues what it puts down -/
  served : ∀ s ∈ runs,
    (Call.runDpc s.dpc s.given s.before).alone client = .returned s.after s.answer ∧
      s.before.Defers c (s.queued puts) s.after
  /-- nothing waits in the end -/
  empty : n.kernel.dpcs c = []
  /-- one notification is posted for each deferred call that is put down -/
  notifications :
    n.chip.notifications = m.chip.notifications + (runs.flatMap (·.queued puts)).length

namespace Drained

variable {client : Client G} {puts : Puts G} {c : CoreId} {m m₂ n : Machine G} {x y z : Context}
  {runs : List (Serving G)}

/-- Nothing waits. -/
theorem nil (client : Client G) (puts : Puts G) (x : Context) (hl : .dpcs c ∉ m.chip.held)
    (h : m.kernel.dpcs c = []) : Drained client puts c x m [] (m.looked c) x := by
  refine ⟨fun fuel hfuel => ?_, ?_, rfl, List.forall_mem_nil _, h, rfl⟩
  · obtain ⟨fuel, rfl⟩ := Nat.exists_eq_add_of_lt hfuel
    have hpop := Run.alone_of_ending? client (Call.ending?_popDpc_of_nil hl h)
    exact Run.alone_bind_of_returned hpop _
  · rw [h]
    rfl

/-- One deferred call is carried out, and then the others, with those that it put down behind
them. -/
theorem cons {d : Dpc G} {later : List (Dpc G)} (hl : .dpcs c ∉ m.chip.held)
    (h : m.kernel.dpcs c = d :: later)
    (hrun : (Call.runDpc d x (m.taking c later)).alone client = .returned m₂ y)
    (hdefers : (m.taking c later).Defers c (d.queued puts x (m.taking c later)) m₂)
    (hrest : Drained client puts c y m₂ runs n z) :
    Drained client puts c x m (⟨d, m.taking c later, x, m₂, y⟩ :: runs) n z := by
  have managed : m.kernel.manages c = true :=
    Kernel.manages_of_dpcs (h ▸ List.cons_ne_nil d later)
  obtain ⟨hdpcs, hnotifications, -⟩ :=
    Call.dpcs_registers hdefers.registers ((m.manages_taking c later c).trans managed)
  refine ⟨fun fuel hfuel => ?_, ?_, ⟨rfl, hrest.threads⟩, ?_, hrest.empty, ?_⟩
  · obtain ⟨fuel, rfl⟩ := Nat.exists_eq_add_one_of_ne_zero (Nat.ne_zero_of_lt hfuel)
    have hpop := Run.alone_of_ending? client (Call.ending?_popDpc_of_cons hl h)
    have hstep : (Call.drainServing (fuel + 1) c x m).alone client =
        ((Call.runDpc d x (m.taking c later)).bind fun answer m' =>
          (Call.drainServing fuel c answer m').bind fun p m'' =>
            .done m'' (p.1, ⟨d, m.taking c later, x, m', answer⟩ :: p.2)).alone client :=
      Run.alone_bind_of_returned hpop _
    have hfuel' : runs.length < fuel := Nat.lt_of_succ_lt_succ hfuel
    rw [hstep, Run.alone_bind_of_returned hrun, Run.alone_bind_of_returned (hrest.returns _ hfuel')]
    rfl
  · rw [List.map_cons, hrest.order, hdpcs, Machine.dpcs_taking managed, h, List.flatMap_cons,
      List.append_assoc]
    rfl
  · exact List.forall_mem_cons.mpr ⟨⟨hrun, hdefers⟩, hrest.served⟩
  · rw [hrest.notifications, hnotifications, Machine.notifications_taking, List.flatMap_cons,
      List.length_append, Nat.add_assoc]
    rfl

end Drained

/-- **A queue of deferred calls of finite depth is drained**, if those that are met answer. -/
theorem Call.exists_drained {client : Client G} {puts : Puts G} {c : CoreId}
    {met : Dpc G → Context → Machine G → Prop} {m : Machine G} (x : Context)
    (managed : m.kernel.manages c = true) (free : m.chip.held = [])
    (hmet : ∀ d x' m', DrainMeets client c x m d x' m' → met d x' m')
    (answers : ∀ d x m, met d x m → d.Answers client puts c x m)
    (finite : ∀ d ∈ m.kernel.dpcs c, d.FiniteDepth puts met) :
    ∃ runs n y, Drained client puts c x m runs n y := by
  -- the queue as a multiset: the deferred call at its head is replaced by lesser ones
  generalize hqueue : (m.kernel.dpcs c : Multiset (Dpc G)) = queue
  induction queue using (Dpc.wellFounded_below puts met).cutExpand.induction generalizing m x with
  | _ queue ih =>
    have hl : .dpcs c ∉ m.chip.held := free ▸ List.not_mem_nil
    cases h : m.kernel.dpcs c with
    | nil => exact ⟨[], _, x, .nil client puts x hl h⟩
    | cons d later =>
      have hd : d.FiniteDepth puts met := finite d (h ▸ List.mem_cons_self)
      have hfirst : met d x (m.taking c later) := hmet _ _ _ (.first h)
      have hfree : (m.taking c later).chip.held = [] := (m.held_taking c later).trans free
      obtain ⟨m₂, y, hrun, hdefers⟩ := runDpc_of_answers (answers _ _ _ hfirst) hfree
      obtain ⟨hdpcs, -, hmanaged⟩ :=
        Call.dpcs_registers hdefers.registers ((m.manages_taking c later c).trans managed)
      have hlater : m₂.kernel.dpcs c = later ++ d.queued puts x (m.taking c later) := by
        rw [hdpcs, Machine.dpcs_taking managed]
      have hsmaller : Relation.CutExpand (Dpc.Below puts met)
          (m₂.kernel.dpcs c : Multiset (Dpc G)) queue := by
        refine ⟨(d.queued puts x (m.taking c later) : Multiset (Dpc G)), d,
          fun d' hd' => ⟨hd, x, _, hfirst, hd'⟩, ?_⟩
        rw [hlater, ← hqueue, h, ← Multiset.coe_add, ← Multiset.cons_coe, ← Multiset.singleton_add]
        abel
      have hfinite : ∀ d' ∈ m₂.kernel.dpcs c, d'.FiniteDepth puts met := by
        intro d' hd'
        rw [hlater] at hd'
        rcases List.mem_append.mp hd' with hd' | hd'
        · exact finite d' (h ▸ List.mem_cons_of_mem d hd')
        · exact hd.of_mem_queued hfirst hd'
      obtain ⟨runs, n, z, hrest⟩ := ih _ hsmaller y hmanaged (hdefers.held.trans hfree)
        (fun d' x' m' hlater => hmet d' x' m' (.next h hrun hlater)) hfinite rfl
      exact ⟨_, n, z, .cons hl h hrun hdefers hrest⟩

/-! ## Core notifications -/

theorem Kernel.manages_of_handler? {k : Kernel G} {c : CoreId} {irq : SystemIrq} {h : Handler G}
    (hk : k.handler? c irq = some h) : k.manages c = true := by
  obtain ⟨core, hcore, -⟩ := Option.bind_eq_some_iff.mp hk
  obtain ⟨hlt, -⟩ := List.getElem?_eq_some_iff.mp hcore
  exact decide_eq_true hlt

/-- **A core notification runs every deferred call once, in order, and comes to an end.** Take any
machine where no lock is held and the built-in handler of core `c` is installed, and deferred calls
of finite depth in its queue. Of a deferred call it is asked only that it answers where the drain
meets it: a reschedule finds somebody in the rotation of its core, and a routine puts down deferred
calls and gives back the locks it takes.

There are deferred calls carried out, one after the other, and with enough fuel for them the
notification is answered with the context that the last of them answered, the interrupted one if
there are none. They are those that waited and then those that were put down meanwhile, each once,
as they were put down; each is given what the one before answered; none waits in the end; and a
notification was posted for each one put down, after it was queued. -/
theorem drain_serves_in_order {client : Client G} {puts : Puts G} {c : CoreId} {m : Machine G}
    (x : Context) (free : m.chip.held = [])
    (builtin : m.kernel.handler? c .coreNotification = some (.drain c))
    (answers : ∀ d x' m', DrainMeets client c x m d x' m' → d.Answers client puts c x' m')
    (finite : ∀ d ∈ m.kernel.dpcs c, d.FiniteDepth puts (DrainMeets client c x m)) :
    (∃ runs n y, Drained client puts c x m runs n y ∧ ∀ fuel, runs.length < fuel →
      (Call.dispatch fuel c .coreNotification x m).alone client = .returned n (.resume y)) ∧
    ∀ (d : Dpc G) (m : Machine G), m.kernel.manages c = true → .dpcs c ∉ m.chip.held →
      ∃ m₁ : Machine G, m₁.kernel.dpcs c = m.kernel.dpcs c ++ [d] ∧
        m₁.chip.notifications = m.chip.notifications ∧
        (Call.registerDpc c d m).ending? = some ({ m₁ with chip := m₁.chip.notify }, ()) := by
  constructor
  · have managed : m.kernel.manages c = true := Kernel.manages_of_handler? builtin
    obtain ⟨runs, n, y, hdrained⟩ :=
      Call.exists_drained x managed free (fun _ _ _ => id) answers finite
    refine ⟨runs, n, y, hdrained, fun fuel hfuel => ?_⟩
    have hdrain : (Call.drain fuel c x m).alone client = .returned n y := by
      rw [Call.drain_eq, map_eq_pure_bind]
      exact Run.alone_bind_of_returned (hdrained.returns fuel hfuel) _
    simp only [Call.dispatch]
    rw [Call.bind_of_done (Call.read_apply _ m), builtin]
    exact Run.alone_bind_of_returned hdrain _
  · intro d m managed hl
    obtain ⟨m₁, hkernel, hnotifications, -, hends⟩ := Call.ending?_registerDpc d hl
    refine ⟨m₁, ?_, hnotifications, hends⟩
    rw [hkernel, Kernel.dpcs_setDpcs _ managed, if_pos rfl]

/-- Queue deferred calls, one after the other. -/
def Call.registerAll (c : CoreId) : List (Dpc G) → Call G Unit
  | [] => return ()
  | d :: later => do
    registerDpc c d
    registerAll c later

/-- Deferred calls can be queued if the lock of the queue is free; schedulers are left alone. -/
theorem Call.exists_registerAll {c : CoreId} (ds : List (Dpc G)) {m : Machine G}
    (hl : .dpcs c ∉ m.chip.held) : ∃ n, (registerAll c ds m).ending? = some (n, ()) ∧
      m.Defers c ds n ∧ ∀ d, n.kernel.queues d = m.kernel.queues d := by
  induction ds generalizing m with
  | nil => exact ⟨m, rfl, ⟨.nil ⟨rfl, rfl, rfl⟩, rfl⟩, fun _ => rfl⟩
  | cons d ds ih =>
    obtain ⟨m₁, hkernel, -, hheld, hfirst⟩ := ending?_registerDpc d hl
    obtain ⟨n, hn, hrest, hqueues⟩ := @ih { m₁ with chip := m₁.chip.notify } (hheld ▸ hl)
    refine ⟨n, (Run.ending?_bind_of_some hfirst _).trans hn,
      ⟨.cons ⟨rfl, rfl, rfl⟩ hfirst hrest.registers, hrest.held.trans hheld⟩, fun e => ?_⟩
    refine (hqueues e).trans ?_
    rw [hkernel, Kernel.queues_setDpcs]

/-- A routine is a number: zero puts nothing down, and every other number puts down its predecessor
twice. -/
def twins : Puts ⟨Nat, Unit⟩
  | home, n + 1, _, _ => [.routine home n, .routine home n]
  | _, 0, _, _ => []

/-- What else it does: zero ends the third thread on the second core. -/
def twinRoutine (home : CoreId) : Nat → Call ⟨Nat, Unit⟩ Unit
  | 0 => discard <| Call.killThread 1 3
  | n + 1 => Call.registerAll 0 [.routine home n, .routine home n]

/-- The client with these routines; each adds one to the context. -/
def twinClient : Client ⟨Nat, Unit⟩ where
  routine home code x m := (((twinRoutine home code m).ending?.map (·.1)).getD m, x + 1)
  entry _ _ m := (m, .ok ())

theorem finiteDepth_twins {met : Dpc ⟨Nat, Unit⟩ → Context → Machine ⟨Nat, Unit⟩ → Prop}
    (home : CoreId) (n : Nat) : (Dpc.routine home n).FiniteDepth twins met := by
  induction n with
  | zero => exact .mk _ fun x m _ d hd => nomatch hd
  | succ n ih =>
    refine .mk _ fun x m _ d hd => ?_
    have hpair : d ∈ [Dpc.routine home n, .routine home n] := hd
    obtain rfl : d = .routine home n := by simpa using hpair
    exact ih

/-- Is the deferred call a routine, or the reschedule of the first core? -/
def Dpc.isRoutineOrYield : Dpc G → Bool
  | reschedule d => d == 0
  | routine .. => true

/-- Where a drain of the first core may stand: no lock is held, somebody is in the rotation of the
first core and nobody in the slot of the second, and routines and reschedules of the first core
wait. -/
structure Machine.Drainable (m : Machine ⟨Nat, Unit⟩) : Prop where
  /-- the core is managed -/
  managed : m.kernel.manages 0 = true
  /-- no lock is held -/
  free : m.chip.held = []
  /-- somebody is in the rotation of the first core -/
  occupied : (m.kernel.queues 0).ready ≠ []
  /-- nobody is in the slot of the second core -/
  vacant : (m.kernel.queues 1).running = none
  /-- routines and reschedules of the first core wait -/
  waiting : ∀ d ∈ m.kernel.dpcs 0, d.isRoutineOrYield = true

namespace Machine.Drainable

variable {m n : Machine ⟨Nat, Unit⟩} {x : Context} {d : Dpc ⟨Nat, Unit⟩}
  {ds later : List (Dpc ⟨Nat, Unit⟩)}

theorem taking (h : m.Drainable) (hd : m.kernel.dpcs 0 = d :: later) :
    (m.taking 0 later).Drainable ∧ d.isRoutineOrYield = true := by
  refine ⟨⟨?_, ?_, ?_, ?_, fun d' hd' => ?_⟩, h.waiting d (hd ▸ List.mem_cons_self)⟩
  · exact (m.manages_taking 0 later 0).trans h.managed
  · exact (m.held_taking 0 later).trans h.free
  · rw [queues_taking]
    exact h.occupied
  · rw [queues_taking]
    exact h.vacant
  · rw [dpcs_taking h.managed] at hd'
    exact h.waiting d' (hd ▸ List.mem_cons_of_mem d hd')

/-- What puts routines and reschedules down keeps this, if it leaves the rotation of the first core
and the slot of the second as they were. -/
theorem defers (h : m.Drainable) (hdefers : m.Defers 0 ds n)
    (hds : ∀ d ∈ ds, d.isRoutineOrYield = true) (occupied : (n.kernel.queues 0).ready ≠ [])
    (vacant : (n.kernel.queues 1).running = none) : n.Drainable := by
  obtain ⟨hdpcs, -, hmanaged⟩ := Call.dpcs_registers hdefers.registers h.managed
  refine ⟨hmanaged, hdefers.held.trans h.free, occupied, vacant, fun d hd => ?_⟩
  rw [hdpcs] at hd
  exact (List.mem_append.mp hd).elim (h.waiting d) (hds d)

/-- A routine does what it has to. -/
theorem exists_twinRoutine (h : m.Drainable) (home : CoreId) (n : Nat) (x : Context) :
    ∃ m', (twinRoutine home n m).ending? = some (m', ()) ∧
      m.Defers 0 (twins home n x m) m' ∧ m'.Drainable := by
  cases n with
  | zero =>
    have hslot : (m.kernel.queues 1).running ≠ some 3 := by
      rw [h.vacant]
      nofun
    have hl : .queues 1 ∉ m.chip.held := h.free ▸ List.not_mem_nil
    obtain ⟨m', hm', hk, hnotifications, hheld⟩ := Call.ending?_killThread hl hslot
    have hquiet : m.Quiet 0 m' := by
      refine ⟨?_, hnotifications, ?_⟩
      · rw [hk]
        exact (Kernel.onlyQueues_killThread hslot).dpcs 0
      · rw [hk]
        exact (Kernel.Adjusts.refl.killThread 1 3).manages 0
    have hdefers : m.Defers 0 [] m' := ⟨.nil hquiet, hheld⟩
    refine ⟨m', Run.ending?_bind_of_some hm' _, hdefers,
      h.defers hdefers (List.forall_mem_nil _) ?_ ?_⟩
    · rw [hk, Kernel.queues_killThread_of_ne _ 3 (by decide)]
      exact h.occupied
    · rw [hk, Kernel.running_killThread]
      exact h.vacant
  | succ n =>
    have hl : .dpcs 0 ∉ m.chip.held := h.free ▸ List.not_mem_nil
    obtain ⟨m', hm', hdefers, hqueues⟩ :=
      Call.exists_registerAll [.routine home n, .routine home n] hl
    refine ⟨m', hm', hdefers, h.defers hdefers (by simp [Dpc.isRoutineOrYield]) ?_ ?_⟩
    · rw [hqueues]
      exact h.occupied
    · rw [hqueues]
      exact h.vacant

/-- So every deferred call answers. -/
theorem answers (h : m.Drainable) (hd : d.isRoutineOrYield = true) (x : Context) :
    d.Answers twinClient twins 0 x m := by
  cases d with
  | reschedule d =>
    obtain rfl : d = 0 := beq_iff_eq.mp hd
    exact h.occupied
  | routine home n =>
    obtain ⟨m', hm', hdefers, -⟩ := h.exists_twinRoutine home n x
    simp only [Dpc.Answers, twinClient]
    rw [hm']
    exact hdefers

/-- And the drain may go on. -/
theorem runDpc {y : Context} (h : m.Drainable) (hd : d.isRoutineOrYield = true)
    (hrun : (Call.runDpc d x m).alone twinClient = .returned n y) : n.Drainable := by
  cases d with
  | reschedule d =>
    obtain rfl : d = 0 := beq_iff_eq.mp hd
    obtain ⟨n', hn', hk, hdefers⟩ := Call.exists_yieldThread (d := 0) 0 x h.free h.occupied
    cases (Run.alone_of_ending? twinClient hn').symm.trans hrun
    refine h.defers hdefers (List.forall_mem_nil _) ?_ ?_
    · rw [hk]
      exact Kernel.ready_turn_ne_nil h.occupied
    · rw [hk, Kernel.running_turn_of_ne _ x (by decide)]
      exact h.vacant
  | routine home code =>
    obtain ⟨m', hm', -, hdrainable⟩ := h.exists_twinRoutine home code x
    have hends : (Call.runDpc (.routine home code) x m).alone twinClient =
        .returned (((twinRoutine home code m).ending?.map (·.1)).getD m) (x + 1) := rfl
    rw [hm'] at hends
    cases hends.symm.trans hrun
    exact hdrainable

end Machine.Drainable

/-- Two cores with a thread each, of which the first one schedules, and three deferred calls: a
routine that puts down routines which put down routines that end the thread of the second core, a
reschedule, and another routine. -/
def threeDeferred : List (CoreId × Op ⟨Nat, Unit⟩) :=
  [(0, .createThread () "worker"), (0, .createThread () "guest"), (0, .startThread 0 2),
    (0, .startThread 1 3), (0, .bootstrap 0), (0, .registerDpc 0 (.routine 0 (2 : Nat))),
    (0, .registerDpc 0 (.reschedule 0)), (0, .registerDpc 0 (.routine 0 (1 : Nat)))]

/-- They are all carried out, with what they put down, though the rotation of the second core gets
empty meanwhile. -/
theorem three_deferred_are_drained : ∃ m past s,
    Machine.boot? { processors := 2 } {} = some m ∧
    System.play ⟨m, []⟩ threeDeferred = some (past, s) ∧
    (s.machine.kernel.dpcs 0).length = 3 ∧ (s.machine.kernel.queues 1).ready = [3] ∧
    ((((Call.dispatch 12 0 .coreNotification 7 s.machine).alone
      twinClient).machine.kernel.queues 1).ready = []) ∧
    ∃ runs n y, Drained twinClient twins 0 7 s.machine runs n y ∧ ∀ fuel, runs.length < fuel →
      (Call.dispatch fuel 0 .coreNotification 7 s.machine).alone twinClient =
        .returned n (.resume y) := by
  obtain ⟨m, past, s, later, s', hm, hfirst, -, htest⟩ := System.exists_play
    { processors := 2 } {} threeDeferred []
    (fun _ s _ _ => (decide ((s.machine.kernel.dpcs 0).length = 3) &&
      (decide ((s.machine.kernel.queues 1).ready = [3]) &&
        decide ((((Call.dispatch 12 0 .coreNotification 7 s.machine).alone
          twinClient).machine.kernel.queues 1).ready = []))) &&
      ((s.machine.kernel.dpcs 0).all Dpc.isRoutineOrYield &&
        (decide ((s.machine.kernel.queues 0).ready ≠ []) &&
          (decide ((s.machine.kernel.queues 1).running = none) &&
            (s.machine.kernel.handler? 0 .coreNotification).any (·.isDrainOf 0)))))
    (by decide +kernel)
  simp only [Bool.and_eq_true, decide_eq_true_eq, List.all_eq_true] at htest
  obtain ⟨⟨hlength, hguest, hempty⟩, hwaiting, hoccupied, hvacant, hhandler⟩ := htest
  have free := (System.runs_of_play hfirst).unlocked
    (System.unlocked_start (Machine.held_of_boot? hm))
  have hbuiltin := Handler.eq_some_of_isDrainOf hhandler
  have hdrainable : s.machine.Drainable :=
    ⟨Kernel.manages_of_handler? hbuiltin, free.held, hoccupied, hvacant, hwaiting⟩
  refine ⟨m, past, s, hm, hfirst, hlength, hguest, hempty,
    (drain_serves_in_order 7 free.held hbuiltin (fun d x' m' hmeets => ?_) fun d hd => ?_).1⟩
  · obtain ⟨hm', hd⟩ := hmeets.of_invariant (I := Machine.Drainable)
      (J := fun d m => m.Drainable ∧ d.isRoutineOrYield = true)
      (fun h hd => h.taking hd) (fun h hrun => h.1.runDpc h.2 hrun) hdrainable
    exact hm'.answers hd x'
  · cases d with
    | reschedule d => exact .mk _ fun x m _ d hd => nomatch hd
    | routine home n => exact finiteDepth_twins home n

end Nucleus
