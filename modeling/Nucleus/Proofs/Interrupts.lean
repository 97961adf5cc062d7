import Nucleus.Proofs.Agreement
import Nucleus.Proofs.Anatomy
import Nucleus.Proofs.Runners

/-!
# What an interrupt does

An interrupt saves the context that it interrupted into the thread in the slot, and answers with
the context of the thread that it switches to. A tick and a yield are interrupts, and so is a
delivery that runs deferred reschedules, however many: the first saves the context that was
interrupted; each of the others is handed the context of the thread that the one before it switched
in, and saves it into that thread, which has it already.

* `Kernel.Interrupted` is what an interrupt does to contexts, and `Kernel.Interrupted.trans` the
  rule for interrupts one after the other.
* `Call.rests_runHandler` says that a handler that runs no client code makes one interrupt, or does
  nothing.
* `Op.returns_of_finishes` says when operations that interrupt return.
-/

namespace Nucleus

variable {G : Guest}

namespace Kernel

variable {k k' k₁ k₂ : Kernel G} {c d : CoreId} {t : ThreadId} {x y z : Context}

/-! ## Contexts -/

/-- **An interrupt** of core `d` in the context `x`, which answers `y`: the context is saved into
the thread in the slot, and the answer is the saved context of the thread that is in the slot
afterwards. -/
structure Interrupted (k : Kernel G) (d : CoreId) (x : Context) (k' : Kernel G) (y : Context) :
    Prop where
  /-- no thread is made -/
  length : k'.threads.length = k.threads.length
  /-- the context is saved into the thread in the slot, and nothing else is saved -/
  context : ∀ t < k.threads.length,
    k'.contextOf t = if (k.queues d).running = some t then x else k.contextOf t
  /-- the answer is the context of the thread that is switched in -/
  slot : ∃ u, (k'.queues d).running = some u ∧ y = k'.contextOf u

namespace Interrupted

/-- What comes before may change anything but slots and contexts. -/
theorem of_same (h : k₁.Interrupted d x k' y) (hlength : k₁.threads.length = k.threads.length)
    (hcontext : ∀ t, k₁.contextOf t = k.contextOf t)
    (hslot : (k₁.queues d).running = (k.queues d).running) : k.Interrupted d x k' y := by
  refine ⟨h.length.trans hlength, fun t ht => ?_, h.slot⟩
  rw [h.context t (hlength.symm ▸ ht), hslot, hcontext]

/-- **One interrupt after the other**: the second is handed what the first answers, and saves it
where it comes from. -/
theorem trans (h : k.Interrupted d x k₁ y) (h' : k₁.Interrupted d y k₂ z) :
    k.Interrupted d x k₂ z := by
  refine ⟨h'.length.trans h.length, fun t ht => ?_, h'.slot⟩
  obtain ⟨u, hu, hy⟩ := h.slot
  have hsecond : k₂.contextOf t = k₁.contextOf t := by
    rw [h'.context t (h.length.symm ▸ ht), hu]
    split
    next hut =>
      obtain rfl := Option.some.inj hut
      exact hy
    next => rfl
  exact hsecond.trans (h.context t ht)

end Interrupted

/-- A switch, where somebody is next. -/
theorem interrupted_turn (x : Context) (h : (k.queues c).successor ≠ none) :
    k.Interrupted c x (Effect.yieldThread c x k).1 (Effect.yieldThread c x k).2 := by
  rcases k.turn_cases c x with ⟨hnone, -⟩ | ⟨next, -, hc, hk⟩
  · exact absurd hnone h
  · rw [hk]
    refine ⟨(Adjusts.refl.interruptRunning c x |>.switchTo c next).length_threads, fun t ht => ?_,
      next, ?_, rfl⟩
    · exact (contextOf_setState _ next .running t).trans (k.contextOf_interruptRunning c x ht)
    · exact (running_switchTo _ hc next c).trans (if_pos rfl)

/-- A switch leaves deferred calls alone. -/
theorem dpcs_turn (k : Kernel G) (c : CoreId) (x : Context) (d : CoreId) :
    (Effect.yieldThread c x k).1.dpcs d = k.dpcs d := by
  rcases k.turn_cases c x with ⟨-, hk⟩ | ⟨next, -, -, hk⟩ <;> rw [hk]
  refine ((onlyQueues_switchTo _ c next).dpcs d).trans ?_
  simp only [dpcs]
  rw [cores_interruptRunning]

/-- It leaves the slots of other cores alone. -/
theorem running_turn_of_ne (k : Kernel G) {c d : CoreId} (x : Context) (h : c ≠ d) :
    ((Effect.yieldThread c x k).1.queues d).running = (k.queues d).running := by
  rcases k.turn_cases c x with ⟨-, hk⟩ | ⟨next, -, hc, hk⟩ <;> rw [hk]
  rw [running_switchTo _ hc, if_neg h, queues_interruptRunning]

/-- And it leaves queues alone. -/
theorem count_turn (k : Kernel G) (c : CoreId) (x : Context) (d : CoreId) (i : Queue)
    (t : ThreadId) : (Effect.yieldThread c x k).1.count d i t = k.count d i t := by
  rcases k.turn_cases c x with ⟨-, hk⟩ | ⟨next, -, hc, hk⟩ <;> rw [hk]
  rw [count_switchTo _ hc]
  simp only [count]
  rw [queues_interruptRunning]

/-- Nobody leaves the rotation by a switch. -/
theorem ready_turn_ne_nil {x : Context} (h : (k.queues d).ready ≠ []) :
    ((Effect.yieldThread c x k).1.queues d).ready ≠ [] := by
  obtain ⟨t, ht⟩ := List.exists_mem_of_ne_nil _ h
  have hpos : 0 < k.count d .ready t := k.count_pos_iff.mpr ht
  rw [← count_turn k c x, count_pos_iff] at hpos
  exact List.ne_nil_of_mem hpos

/-- Nor by a tick. -/
theorem mem_ready_advance (c : CoreId) (h : t ∈ (k.queues d).ready) :
    t ∈ ((k.advance c).queues d).ready := by
  cases hc : k.manages c with
  | false =>
    rw [k.advance_of_not_manages hc]
    exact h
  | true =>
    have hpos : 0 < k.count d .ready t := k.count_pos_iff.mpr h
    refine (count_pos_iff (k.advance c) (i := .ready)).mp ?_
    rw [count_advance k hc, if_neg (by simp)]
    exact Nat.lt_of_lt_of_le hpos (Nat.le_add_right _ _)

theorem ready_advance_ne_nil (h : (k.queues d).ready ≠ []) :
    ((k.advance c).queues d).ready ≠ [] := by
  obtain ⟨t, ht⟩ := List.exists_mem_of_ne_nil _ h
  exact List.ne_nil_of_mem (mem_ready_advance c ht)

theorem manages_of_dpcs (h : k.dpcs c ≠ []) : k.manages c = true := by
  refine Classical.byContradiction fun hc => ?_
  have hnone : k.cores[c]? = none :=
    List.getElem?_eq_none (Nat.not_lt.mp fun hlt => hc (decide_eq_true hlt))
  refine h ?_
  simp only [dpcs]
  rw [hnone]

end Kernel

/-! ## Calls that interrupt -/

/-- Is the deferred call the reschedule of the core? -/
def Dpc.IsYield (c : CoreId) : Dpc G → Prop
  | reschedule d => d = c
  | routine .. => False

instance (c : CoreId) : (d : Dpc G) → Decidable (d.IsYield c)
  | .reschedule d => inferInstanceAs (Decidable (d = c))
  | .routine .. => inferInstanceAs (Decidable False)

theorem Dpc.IsYield.eq {c : CoreId} {d : Dpc G} (h : d.IsYield c) : d = .reschedule c := by
  cases d with
  | reschedule d => exact congrArg Dpc.reschedule h
  | routine home code => exact h.elim

/-- Once a reschedule is taken and carried out, the others are left. -/
theorem Kernel.dpcs_turn_setDpcs {k : Kernel G} {c : CoreId} {call : Dpc G} {later : List (Dpc G)}
    (h : k.dpcs c = call :: later) (x : Context) :
    (Effect.yieldThread c x (k.setDpcs c later)).1.dpcs c = later := by
  have hc : k.manages c = true := manages_of_dpcs (h ▸ List.cons_ne_nil call later)
  rw [dpcs_turn, dpcs_setDpcs k hc, if_pos rfl]

namespace Handler

/-- Does the handler run no client code? A drain may find reschedules of its own core only. -/
def Regular (k : Kernel G) : Handler G → Prop
  | drain d => ∀ call ∈ k.dpcs d, call.IsYield d
  | tick _ => True
  | routine .. => False

instance (k : Kernel G) : (h : Handler G) → Decidable (h.Regular k)
  | .drain d => inferInstanceAs (Decidable (∀ call ∈ k.dpcs d, call.IsYield d))
  | .tick _ => inferInstanceAs (Decidable True)
  | .routine .. => inferInstanceAs (Decidable False)

/-- The core that the handler switches: a drain does if there is something to drain. -/
def switches (k : Kernel G) : Handler G → Option CoreId
  | drain d => if (k.dpcs d).isEmpty then none else some d
  | tick d => some d
  | routine .. => none

end Handler

/-- What a handler does in the context `x` and answers `y`: it interrupts a core, or it does
nothing. -/
def Kernel.Handled (k : Kernel G) (x : Context) (k' : Kernel G) (y : Context) :
    Option CoreId → Prop
  | some d => k.Interrupted d x k' y
  | none => k' = k ∧ y = x

namespace Call

variable {α : Type} {m n : Machine G} {c : CoreId} {x : Context}

/-- A locked stretch that returns has done what its body does. -/
theorem rests_locked {body : Call G α} {l : Lock} {a : α}
    (h : (locked l body m).Rests false n (.inl a)) :
    ∃ m' n', m'.kernel = m.kernel ∧ (body m').Rests false n' (.inl a) := by
  simp only [locked, masked_apply] at h
  rw [Run.rests_window] at h
  rcases Run.rests_bind.mp h with ⟨n₁, b, hheld, hb⟩ | ⟨rest, -, hr⟩
  · obtain ⟨-, hab⟩ := Run.rests_done.mp hb
    obtain rfl := Sum.inl.inj hab
    by_cases hl : l ∈ m.chip.held
    · rw [bind_apply, acquire_apply_of_mem (m := { m with chip := m.chip.mask }) hl] at hheld
      exact (Run.rests_halt.mp hheld).elim
    · rw [bind_of_done (acquire_apply_of_not_mem (m := { m with chip := m.chip.mask }) hl)] at hheld
      rcases Run.rests_bind.mp hheld with ⟨n₂, b, hbody, hb⟩ | ⟨rest, -, hr⟩
      · obtain ⟨-, hab⟩ := Run.rests_done.mp hb
        obtain rfl := Sum.inl.inj hab
        exact ⟨{ m with chip := m.chip.mask.acquire l }, n₂, rfl, hbody⟩
      · cases hr
  · cases hr

/-- A switch that returns has found somebody to switch to. -/
theorem successor_of_rests_rotate {r : Context ⊕ Call G Context}
    (h : (rotate c x m).Rests false n r) : (m.kernel.queues c).successor ≠ none := by
  intro hnone
  simp only [rotate] at h
  rw [bind_of_done (read_apply _ m)] at h
  simp only [Kernel.rotate] at h
  rw [hnone, Option.map_none] at h
  exact Run.rests_halt.mp h

theorem successor_of_rests_yieldThread {r : Context ⊕ Call G Context}
    (h : (yieldThread c x m).Rests false n r) : (m.kernel.queues c).successor ≠ none := by
  obtain ⟨-, -, rfl⟩ := does_yieldThread c x rfl h
  obtain ⟨m', n', hm', hbody⟩ := rests_locked h
  have hsucc := successor_of_rests_rotate hbody
  rwa [hm'] at hsucc

theorem rests_yieldThread {r : Context ⊕ Call G Context}
    (h : (yieldThread c x m).Rests false n r) :
    ∃ y, r = .inl y ∧ m.kernel.Interrupted c x n.kernel y := by
  obtain ⟨-, hk, rfl⟩ := does_yieldThread c x rfl h
  refine ⟨_, rfl, ?_⟩
  rw [hk]
  exact Kernel.interrupted_turn x (successor_of_rests_yieldThread h)

/-- A tick that returns has been counted, and has found somebody to switch to. -/
theorem successor_of_rests_onTick {r : Context ⊕ Call G Context}
    (h : (onTick c x m).Rests false n r) : (m.kernel.queues c).canTick = true ∧
      ((m.kernel.advance c).queues c).successor ≠ none := by
  obtain ⟨-, -, rfl⟩ := does_onTick c x rfl h
  obtain ⟨m', n', hm', hbody⟩ := rests_locked h
  simp only [expectTick, bind_assoc] at hbody
  rw [bind_of_done (read_apply _ m')] at hbody
  cases htick : (m'.kernel.queues c).canTick with
  | false =>
    rw [htick] at hbody
    exact (Run.rests_halt.mp hbody).elim
  | true =>
    rw [htick, if_pos rfl, bind_of_done (pure_apply () m'), bind_of_done (read_apply _ _),
      bind_of_done (change_apply _ _), bind_of_done (read_apply _ _)] at hbody
    obtain ⟨m₁, hm₁, hrotate⟩ : ∃ m₁ : Machine G, m₁.kernel = m'.kernel.advance c ∧
        (rotate c x m₁).Rests false n' (.inl (Effect.onTick c x m.kernel).2) := by
      rcases Run.rests_bind.mp hbody with ⟨m₁, _, hnoted, hrotate⟩ | ⟨rest, hnoted, -⟩
      · obtain ⟨-, hm₁, -⟩ := does_noteWoken c _ _ rfl hnoted
        exact ⟨m₁, hm₁, hrotate⟩
      · obtain ⟨-, -, hr⟩ := does_noteWoken c _ _ rfl hnoted
        cases hr
    have hsucc := successor_of_rests_rotate hrotate
    rw [hm₁, hm'] at hsucc
    rw [hm'] at htick
    exact ⟨htick, hsucc⟩

theorem rests_onTick {r : Context ⊕ Call G Context} (h : (onTick c x m).Rests false n r) :
    ∃ y, r = .inl y ∧ m.kernel.Interrupted c x n.kernel y := by
  obtain ⟨-, hk, rfl⟩ := does_onTick c x rfl h
  obtain ⟨htick, hsucc⟩ := successor_of_rests_onTick h
  refine ⟨_, rfl, ?_⟩
  rw [hk]
  simp only [Effect.onTick]
  rw [if_pos htick]
  exact (Kernel.interrupted_turn x hsucc).of_same (m.kernel.length_threads_advance c)
    (m.kernel.contextOf_advance c) (m.kernel.running_advance c c)

/-- **Deferred reschedules one after the other** make one interrupt, if there are any. -/
theorem rests_drain {fuel : Nat} {r : Context ⊕ Call G Context}
    (hyields : ∀ call ∈ m.kernel.dpcs c, call.IsYield c)
    (h : (drain fuel c x m).Rests false n r) : ∃ y, r = .inl y ∧
      m.kernel.Handled x n.kernel y ((Handler.drain c).switches m.kernel) := by
  induction fuel generalizing m x with
  | zero => exact (Run.rests_halt.mp h).elim
  | succ fuel ih =>
    rcases Run.rests_bind.mp h with ⟨m₁, o, hpop, h⟩ | ⟨rest, hpop, -⟩
    · obtain ⟨-, hm₁, ho⟩ := does_popDpc c rfl hpop
      obtain rfl := Sum.inl.inj ho
      simp only [Effect.popDpc, Handler.switches] at hm₁ h ⊢
      cases hd : m.kernel.dpcs c with
      | nil =>
        rw [hd] at hm₁ h
        obtain ⟨rfl, rfl⟩ := Run.rests_done.mp h
        exact ⟨x, rfl, hm₁, rfl⟩
      | cons call later =>
        rw [hd] at hm₁ h hyields
        obtain rfl := (hyields call List.mem_cons_self).eq
        -- the first of them saves the context, and the others start from what it answers
        dsimp only at hm₁ h
        rw [bind_of_done (note_apply _ m₁)] at h
        rcases Run.rests_bind.mp h with ⟨m₂, y, hyield, h⟩ | ⟨rest, hyield, -⟩
        · obtain ⟨-, hm₂, -⟩ := does_yieldThread c x rfl hyield
          obtain ⟨_, hy, hfirst⟩ := rests_yieldThread hyield
          obtain rfl := Sum.inl.inj hy
          rw [hm₁] at hm₂ hfirst
          have hdpcs : m₂.kernel.dpcs c = later := by
            rw [hm₂]
            exact Kernel.dpcs_turn_setDpcs hd x
          have hfirst' : m.kernel.Interrupted c x m₂.kernel y :=
            hfirst.of_same rfl (fun _ => rfl) (congrArg _ (Kernel.queues_setDpcs _ c later c))
          obtain ⟨z, rfl, hlater⟩ := ih (by
            rw [hdpcs]
            exact fun call hcall => hyields call (List.mem_cons_of_mem _ hcall)) h
          refine ⟨z, rfl, ?_⟩
          simp only [Handler.switches] at hlater
          rw [hdpcs] at hlater
          cases later with
          | nil =>
            obtain ⟨hk, rfl⟩ := hlater
            rw [hk]
            exact hfirst'
          | cons _ _ => exact hfirst'.trans hlater
        · obtain ⟨-, -, hr⟩ := does_yieldThread c x rfl hyield
          cases hr
    · obtain ⟨-, -, hr⟩ := does_popDpc c rfl hpop
      cases hr

/-- **A handler that runs no client code** makes one interrupt, or does nothing. -/
theorem rests_runHandler {fuel : Nat} {h : Handler G} {r : Context ⊕ Call G Context}
    (regular : h.Regular m.kernel) (hr : (runHandler fuel h x m).Rests false n r) :
    ∃ y, r = .inl y ∧ m.kernel.Handled x n.kernel y (h.switches m.kernel) := by
  cases h with
  | drain d => exact rests_drain regular hr
  | tick d => exact rests_onTick hr
  | routine home code => exact regular.elim

end Call

/-! ## Interrupts that return -/

/-- Does the handler return, if it is given this much fuel? A core that is switched has somebody in
its rotation, a tick can be counted, and there is fuel for every deferred call and one more. -/
def Handler.Finishes (k : Kernel G) (fuel : Nat) : Handler G → Prop
  | drain d => (∀ call ∈ k.dpcs d, call.IsYield d) ∧ (k.dpcs d).length < fuel ∧
    (k.dpcs d ≠ [] → (k.queues d).ready ≠ [])
  | tick d => (k.queues d).canTick = true ∧ (k.queues d).ready ≠ []
  | routine .. => False

/-- Does the operation on core `here` interrupt a core, and return? -/
def Op.Finishes (k : Kernel G) (here : CoreId) : Op G → Prop
  | yieldThread c _ => (k.queues c).ready ≠ []
  | onTick c _ => (k.queues c).canTick = true ∧ (k.queues c).ready ≠ []
  | dispatch fuel c irq _ => ∀ h ∈ k.handler? c irq, h.Finishes k fuel
  | dispatchHere fuel irq _ => ∀ h ∈ k.handler? here irq, h.Finishes k fuel
  | _ => False

namespace Call

variable {α : Type} {m n : Machine G} {c : CoreId}

/-- A call that returns gives back the locks that it takes. -/
theorem Built.held_of_ending? {S : Halt → Prop} {D : Discipline} {x : Call G α} {a : α}
    (hx : x.Built S D 0) (free : m.chip.held = []) (h : (x m).ending? = some (n, a)) :
    n.chip.held = [] := by
  have hunlocks := hx.unlocks (m := m) (by rw [free]; nofun)
  rw [free] at hunlocks
  exact (hunlocks.rests (p := false) nofun (Run.rests_of_ending? h)).1

theorem returns_rotate (x : Context) (h : (m.kernel.queues c).successor ≠ none) :
    (rotate c x m).Returns := by
  obtain ⟨next, hn⟩ := Option.ne_none_iff_exists'.mp h
  simp only [rotate]
  rw [bind_of_done (read_apply _ m)]
  simp only [Kernel.rotate]
  rw [hn]
  exact Run.returns_done _ _

theorem returns_yieldThread (x : Context) (free : m.chip.held = [])
    (h : (m.kernel.queues c).successor ≠ none) : (yieldThread c x m).Returns := by
  refine returns_locked ?_ (returns_rotate x ?_)
  · rw [free]
    exact List.not_mem_nil
  · exact h

theorem returns_noteWoken (c : CoreId) (tick : Nat) (due : List Sleeper) (m : Machine G) :
    (noteWoken c tick due m).Returns := by
  induction due generalizing m with
  | nil => exact Run.returns_done _ _
  | cons s due ih => exact ih _

theorem returns_onTick (x : Context) (free : m.chip.held = [])
    (htick : (m.kernel.queues c).canTick = true)
    (h : ((m.kernel.advance c).queues c).successor ≠ none) : (onTick c x m).Returns := by
  refine returns_locked (by rw [free]; exact List.not_mem_nil) ?_
  simp only [expectTick, bind_assoc]
  rw [bind_of_done (read_apply _ _), if_pos htick, bind_of_done (pure_apply () _),
    bind_of_done (read_apply _ _), bind_of_done (change_apply _ _), bind_of_done (read_apply _ _)]
  refine (returns_noteWoken c _ _ _).bind fun n u hn => returns_rotate x ?_
  obtain ⟨-, hk, -⟩ := does_noteWoken c _ _ rfl (Run.rests_of_ending? hn)
  rw [hk]
  exact h

/-- The oldest deferred call can be taken if no lock is held. -/
theorem returns_popDpc (free : m.chip.held = []) : (popDpc c m).Returns := by
  refine returns_overheld (free ▸ List.not_mem_nil) ?_
  rw [bind_of_done (read_apply _ _)]
  cases m.kernel.dpcs c with
  | nil => exact Run.returns_done _ _
  | cons call later => exact Run.returns_done _ _

/-- **A drain of reschedules returns.** -/
theorem returns_drain {fuel : Nat} (x : Context) (free : m.chip.held = [])
    (h : (Handler.drain c).Finishes m.kernel fuel) : (drain fuel c x m).Returns := by
  induction fuel generalizing m x with
  | zero => exact absurd h.2.1 (Nat.not_lt_zero _)
  | succ fuel ih =>
    obtain ⟨hyields, hfuel, hready⟩ := h
    refine (returns_popDpc free).bind fun m₁ o hpop => ?_
    obtain ⟨-, hm₁, ho⟩ := does_popDpc c rfl (Run.rests_of_ending? hpop)
    obtain rfl := Sum.inl.inj ho
    have free₁ := (built_popDpc (S := fun _ => True) c (Nat.zero_lt_succ 2)).held_of_ending? free
      hpop
    simp only [Effect.popDpc] at hm₁ ⊢
    cases hd : m.kernel.dpcs c with
    | nil => exact Run.returns_done _ _
    | cons call later =>
      rw [hd] at hm₁ hyields hfuel hready
      obtain rfl := (hyields call List.mem_cons_self).eq
      dsimp only at hm₁ ⊢
      have hready₁ : (m₁.kernel.queues c).ready ≠ [] := by
        rw [hm₁, Kernel.queues_setDpcs]
        exact hready (List.cons_ne_nil _ _)
      rw [bind_of_done (note_apply _ m₁)]
      let noted : Machine G := { m₁ with log := .runningDpc :: m₁.log }
      refine Run.Returns.bind (returns_yieldThread (m := noted) x free₁
        (RunQueues.successor_ne_none hready₁)) fun m₂ y hyield => ih y ?_ ?_
      · have hbuilt : (yieldThread c x : Call G Context).Built (fun _ => True) .nested 0 :=
          built_yieldThread c x Nat.zero_lt_two trivial
        exact hbuilt.held_of_ending? (m := noted) free₁ hyield
      · obtain ⟨-, hm₂, -⟩ := does_yieldThread c x rfl (Run.rests_of_ending? hyield)
        rw [hm₁] at hm₂ hready₁
        rw [Handler.Finishes, hm₂, Kernel.dpcs_turn_setDpcs hd x]
        exact ⟨fun call hcall => hyields call (List.mem_cons_of_mem _ hcall),
          Nat.lt_of_succ_lt_succ hfuel, fun _ => Kernel.ready_turn_ne_nil hready₁⟩

theorem returns_runHandler {fuel : Nat} {h : Handler G} (x : Context) (free : m.chip.held = [])
    (hf : h.Finishes m.kernel fuel) : (runHandler fuel h x m).Returns := by
  cases h with
  | drain d => exact returns_drain x free hf
  | tick d =>
    exact returns_onTick x free hf.1
      (RunQueues.successor_ne_none (Kernel.ready_advance_ne_nil hf.2))
  | routine home code => exact hf.elim

theorem returns_dispatch {fuel : Nat} {irq : SystemIrq} (x : Context) (free : m.chip.held = [])
    (hf : ∀ h ∈ m.kernel.handler? c irq, h.Finishes m.kernel fuel) :
    (dispatch fuel c irq x m).Returns := by
  simp only [dispatch]
  rw [bind_of_done (read_apply _ m)]
  cases hh : m.kernel.handler? c irq with
  | none => exact Run.returns_done _ _
  | some h =>
    exact (returns_runHandler x free (hf h hh)).bind fun _ _ _ => Run.returns_done _ _

end Call

/-- **An operation that interrupts a core returns.** -/
theorem Op.returns_of_finishes {op : Op G} {m : Machine G} (free : m.chip.held = [])
    (managed : m.kernel.manages m.chip.current = true)
    (h : op.Finishes m.kernel m.chip.current) : (op.call m).Returns := by
  cases op with
  | yieldThread c x => exact Call.returns_yieldThread x free (RunQueues.successor_ne_none h)
  | onTick c x =>
    exact Call.returns_onTick x free h.1
      (RunQueues.successor_ne_none (Kernel.ready_advance_ne_nil h.2))
  | dispatch fuel c irq x => exact Call.returns_dispatch x free h
  | dispatchHere fuel irq x =>
    change ((Call.currentCore >>= fun c => Call.dispatch fuel c irq x : Call G Dispatch) m).Returns
    rw [Call.bind_of_done (Call.currentCore_apply managed)]
    exact Call.returns_dispatch x free h
  | _ => exact h.elim

end Nucleus
