import Nucleus.Proofs.Guards

/-!
# Guards and the interrupt flag

A guard puts back the interrupt flag that it has found. If guards are given back innermost first,
whoever holds a lock runs with interrupts masked, and in the end the flag is what it was. In any
other order neither needs to be so: the guard that was taken first has found interrupts delivered,
and to give it back delivers them to those who still hold locks; and whoever gives a guard back then
masks them, for good.

* `Bench.HoldersMasked` says that interrupts are masked while a lock is held, and
  `Bench.unmasksHolder` of an operation that it delivers them to somebody who holds one.
* `Bench.permits` counts the guards that will deliver interrupts again, and the flag itself. Nothing
  adds to it, and `Bench.leavesUnmasked` tells of the operations that take from it.
* `masked_while_held_iff` says of any script when holders are masked, and when the flag is at the
  end what it was at the start.
-/

namespace Nucleus

variable {V : Type}

namespace Bench

variable {b b' : Bench V} {op : Op V} {ops : List (Op V)}

/-! ## Points of a script -/

/-- The bench at the next point of a script. -/
theorem after_take_succ {i : Nat} (hop : ops[i]? = some op) :
    b.after (ops.take (i + 1)) = ((b.after (ops.take i)).perform op).1 := by
  rw [List.take_add_one, hop]
  exact b.after_concat _ op

/-- What every operation keeps holds at every point of a script. -/
theorem holds_throughout {I : Bench V → Prop} {P : Bench V → Op V → Prop}
    (step : ∀ ⦃b b' : Bench V⦄ ⦃op : Op V⦄, b.Does op b' → P b op → I b → I b') (start : I b)
    (hops : ∀ (i : Nat) (op : Op V), ops[i]? = some op → P (b.after (ops.take i)) op) (i : Nat) :
    I (b.after (ops.take i)) := by
  induction i with
  | zero => exact start
  | succ i ih =>
    cases hop : ops[i]? with
    | none =>
      have hlen := List.getElem?_eq_none_iff.mp hop
      rw [List.take_of_length_le hlen] at ih
      rwa [List.take_of_length_le (Nat.le_succ_of_le hlen)]
    | some op =>
      rw [after_take_succ hop]
      exact step (does_perform _ op) (hops i op hop) ih

/-! ## What an operation does to the guards and to the interrupt flag -/

/-- Does the operation set the interrupt flag by hand? -/
def Op.isByHand : Op V → Bool
  | .setInterrupts _ => true
  | _ => false

/-- The guard that an operation gives back, with its slot. -/
def gives? (b : Bench V) : Op V → Option (Nat × Guard)
  | .leave slot => (b.guard? slot).map (slot, ·)
  | _ => none

theorem gives?_of_lock? {l : BenchLock} (b : Bench V) (asks : op.lock? = some l) :
    b.gives? op = none := by
  cases op with
  | leave => cases asks
  | _ => rfl

/-- An operation that does not set the interrupt flag by hand does nothing to guards and flag, or
takes a guard and masks interrupts, or gives a guard back and has the flag be what that guard has
saved. -/
theorem Does.masking_cases (h : b.Does op b') (untouched : op.isByHand = false) :
    (b.gives? op = none ∧ b'.live = b.live ∧ b'.chip.interrupts = b.chip.interrupts) ∨
    (b.gives? op = none ∧ ∃ g, g.saved = b.chip.interrupts ∧ b'.live = b.live ++ [g] ∧
      b'.chip.interrupts = false) ∨
    ∃ slot g, b.gives? op = some (slot, g) ∧ b.live = b.older slot ++ g :: b.newer slot ∧
      b'.live = b.older slot ++ b.newer slot ∧ b'.chip.interrupts = g.saved := by
  cases h with
  | missing asks => exact .inl ⟨b.gives?_of_lock? asks, rfl, rfl⟩
  | stuck asks => exact .inl ⟨b.gives?_of_lock? asks, live_keep_none b, rfl⟩
  | fail asks => exact .inl ⟨b.gives?_of_lock? asks, live_keep_none _, rfl⟩
  | take asks => exact .inr (.inl ⟨b.gives?_of_lock? asks, _, rfl, live_keep_some .., rfl⟩)
  | enter => exact .inr (.inl ⟨rfl, _, rfl, live_keep_some .., rfl⟩)
  | notMutexGuard | update | fresh => exact .inl ⟨rfl, rfl, rfl⟩
  | noGuard empty =>
    refine .inl ⟨?_, rfl, rfl⟩
    simp only [gives?]
    rw [empty, Option.map_none]
  | @leave slot g live =>
    refine .inr (.inr ⟨slot, g, ?_, live_eq live, live_leave live, rfl⟩)
    simp only [gives?]
    rw [live, Option.map_some]
  | setInterrupts => cases untouched

/-! ## Holders are masked -/

/-- Interrupts are masked while a live guard holds a lock. -/
def HoldersMasked (b : Bench V) : Prop :=
  ∀ g ∈ b.live, g.lock ≠ none → b.chip.interrupts = false

/-- Does the operation give back a guard that has found interrupts delivered, while another guard
holds a lock? -/
def unmasksHolder (b : Bench V) (op : Op V) : Bool :=
  (b.gives? op).any fun (slot, g) =>
    g.saved && (b.older slot ++ b.newer slot).any (·.lock.isSome)

/-- **One operation** keeps holders masked if and only if it does not deliver interrupts to one. -/
theorem Does.holdersMasked_iff (h : b.Does op b') (untouched : op.isByHand = false)
    (hb : b.HoldersMasked) : b'.HoldersMasked ↔ b.unmasksHolder op = false := by
  simp only [unmasksHolder]
  rcases h.masking_cases untouched with
    ⟨hgives, hlive, hflag⟩ | ⟨hgives, g, -, -, hflag⟩ | ⟨slot, g, hgives, -, hlive, hflag⟩ <;>
    rw [hgives]
  · refine iff_of_true ?_ rfl
    intro g hg hlock
    rw [hlive] at hg
    rw [hflag]
    exact hb g hg hlock
  · refine iff_of_true ?_ rfl
    intro _ _ _
    exact hflag
  · simp only [HoldersMasked, hlive, hflag, Option.any_some, Bool.and_eq_false_iff,
      List.any_eq_false, Option.isSome_iff_ne_none]
    constructor
    · intro hmasked
      cases hsaved : g.saved with
      | false => exact .inl rfl
      | true =>
        right
        intro g' hg' hlock
        have hfalse := hmasked g' hg' hlock
        rw [hsaved] at hfalse
        cases hfalse
    · rintro (hsaved | hnobody) g' hg' hlock
      · exact hsaved
      · exact absurd hlock (hnobody g' hg')

/-- **Throughout a script** holders are masked if and only if no operation delivers interrupts to
one. -/
theorem holdersMasked_throughout_iff (start : b.HoldersMasked)
    (untouched : ∀ op ∈ ops, op.isByHand = false) :
    (∀ i, (b.after (ops.take i)).HoldersMasked) ↔
      ∀ (i : Nat) (op : Op V), ops[i]? = some op →
        (b.after (ops.take i)).unmasksHolder op = false := by
  constructor
  · intro hmasked i op hop
    have hnext := hmasked (i + 1)
    rw [after_take_succ hop] at hnext
    have hop := untouched op (List.mem_of_getElem? hop)
    exact ((does_perform _ op).holdersMasked_iff hop (hmasked i)).mp hnext
  · intro hnever
    refine holds_throughout (P := fun b op => op.isByHand = false ∧ b.unmasksHolder op = false)
      ?_ start fun i op hop => ⟨untouched op (List.mem_of_getElem? hop), hnever i op hop⟩
    rintro b b' op hdoes ⟨hop, hkept⟩ hb
    exact (hdoes.holdersMasked_iff hop hb).mpr hkept

/-! ## The flag at the end -/

/-- The number of live guards that will deliver interrupts again, and one more if they are delivered
now. -/
def permits (b : Bench V) : Nat := b.live.countP (·.saved) + b.chip.interrupts.toNat

/-- Does the operation give a guard back while interrupts are delivered? -/
def leavesUnmasked (b : Bench V) (op : Op V) : Bool := (b.gives? op).isSome && b.chip.interrupts

/-- **One operation** takes a permit if it gives a guard back while interrupts are delivered, and
else none. -/
theorem Does.permits (h : b.Does op b') (untouched : op.isByHand = false) :
    b'.permits + (b.leavesUnmasked op).toNat = b.permits := by
  have hsaved (g : Guard) : [g].countP (·.saved) = g.saved.toNat := by
    rw [List.countP_singleton]
    cases g.saved <;> rfl
  simp only [Bench.permits, leavesUnmasked]
  rcases h.masking_cases untouched with
    ⟨hgives, hlive, hflag⟩ | ⟨hgives, g, hg, hlive, hflag⟩ | ⟨slot, g, hgives, hold, hlive, hflag⟩
    <;> rw [hgives, hlive, hflag]
  · rfl
  · rw [List.countP_append, hsaved, hg]
    rfl
  · rw [hold, ← List.singleton_append, List.countP_append, List.countP_append, List.countP_append,
      hsaved, Option.isSome_some, Bool.true_and]
    omega

/-- **Along a script** no permit is added, and none is taken if and only if no guard is given back
while interrupts are delivered. -/
theorem permits_after (b : Bench V) (untouched : ∀ op ∈ ops, op.isByHand = false) :
    (b.after ops).permits ≤ b.permits ∧
      ((b.after ops).permits = b.permits ↔ ∀ (i : Nat) (op : Op V), ops[i]? = some op →
        (b.after (ops.take i)).leavesUnmasked op = false) := by
  induction ops generalizing b with
  | nil => exact ⟨Nat.le_refl _, iff_of_true rfl nofun⟩
  | cons op ops ih =>
    obtain ⟨hop, hops⟩ := List.forall_mem_cons.mp untouched
    have hstep := (b.does_perform op).permits hop
    obtain ⟨hle, hiff⟩ := ih (b.perform op).1 hops
    rw [after_cons]
    refine ⟨by omega, ?_⟩
    constructor
    · intro heq i op' hop'
      cases i with
      | zero =>
        obtain rfl := Option.some.inj hop'
        have hnone : (b.leavesUnmasked op).toNat = 0 := by omega
        exact Bool.toNat_eq_zero.mp hnone
      | succ i => exact hiff.mp (by omega) i op' hop'
    · intro hkept
      have hfirst : (b.leavesUnmasked op).toNat = 0 := Bool.toNat_eq_zero.mpr (hkept 0 op rfl)
      have hrest := hiff.mpr fun i op' hop' => hkept (i + 1) op' hop'
      omega

/-- Where no guard is live, the permits are those of the flag. -/
theorem permits_of_live_eq_nil (h : b.live = []) : b.permits = b.chip.interrupts.toNat := by
  rw [permits, h, List.countP_nil, Nat.zero_add]

/-- **If no guard is live at the end**, the flag is what it was at the start if and only if no guard
was given back while interrupts were delivered. -/
theorem interrupts_after_iff (start : b.live = []) (untouched : ∀ op ∈ ops, op.isByHand = false)
    (live : (b.after ops).live = []) :
    (b.after ops).chip.interrupts = b.chip.interrupts ↔
      ∀ (i : Nat) (op : Op V), ops[i]? = some op →
        (b.after (ops.take i)).leavesUnmasked op = false := by
  rw [← (b.permits_after untouched).2, permits_of_live_eq_nil live, permits_of_live_eq_nil start]
  cases (b.after ops).chip.interrupts <;> cases b.chip.interrupts <;> decide

/-! ## Innermost first -/

/-- Is a guard given back only if it is the newest that is live? -/
def isInnermost (b : Bench V) (op : Op V) : Bool :=
  (b.gives? op).all fun (slot, _) => (b.newer slot).isEmpty

/-- The flag is what it was at the start, or the oldest live guard has saved that and the others
have found interrupts masked. -/
inductive Nested (start : Bool) (b : Bench V) : Prop where
  /-- no guard is live -/
  | nobody (live : b.live = []) (flag : b.chip.interrupts = start)
  /-- guards are live -/
  | somebody {g : Guard} {gs : List Guard} (live : b.live = g :: gs) (outer : g.saved = start)
    (inner : ∀ g' ∈ gs, g'.saved = false) (flag : b.chip.interrupts = false)

/-- Where no guard is live, the flag is what it was at the start. -/
theorem Nested.interrupts {start : Bool} (h : b.Nested start) (live : b.live = []) :
    b.chip.interrupts = start := by
  cases h with
  | nobody _ flag => exact flag
  | somebody hlive =>
    rw [live] at hlive
    cases hlive

theorem Nested.holdersMasked {start : Bool} (h : b.Nested start) : b.HoldersMasked := by
  cases h with
  | nobody live =>
    intro g hg
    rw [live] at hg
    cases hg
  | somebody live outer inner flag =>
    intro g hg _
    exact flag

/-- **One operation** keeps guards nested, if it gives back no guard but the newest. -/
theorem Does.nested {start : Bool} (h : b.Does op b') (untouched : op.isByHand = false)
    (innermost : b.isInnermost op = true) (hb : b.Nested start) : b'.Nested start := by
  rcases h.masking_cases untouched with
    ⟨-, hlive, hflag⟩ | ⟨-, g, hg, hlive, hflag⟩ | ⟨slot, g, hgives, hold, hlive, hflag⟩
  · cases hb with
    | nobody live flag => exact .nobody (hlive.trans live) (hflag.trans flag)
    | somebody live outer inner flag =>
      exact .somebody (hlive.trans live) outer inner (hflag.trans flag)
  · cases hb with
    | nobody live flag =>
      rw [live] at hlive
      exact .somebody hlive (hg.trans flag) nofun hflag
    | somebody live outer inner flag =>
      rw [live] at hlive
      refine .somebody hlive outer ?_ hflag
      intro g' hg'
      rcases List.mem_append.mp hg' with hold | hnew
      · exact inner g' hold
      · rw [List.mem_singleton.mp hnew]
        exact hg.trans flag
  · have hnewer : b.newer slot = [] := by
      simp only [isInnermost] at innermost
      rw [hgives] at innermost
      exact List.isEmpty_iff.mp innermost
    rw [hnewer] at hold hlive
    rw [List.append_nil] at hlive
    cases hb with
    | nobody live =>
      rw [live] at hold
      cases (List.append_eq_nil_iff.mp hold.symm).2
    | somebody live outer inner flag =>
      rw [live] at hold
      -- the newest guard is the oldest one too, or has found interrupts masked
      cases holder : b.older slot with
      | nil =>
        rw [holder] at hold hlive
        obtain ⟨rfl, -⟩ := List.cons.inj hold
        exact .nobody hlive (hflag.trans outer)
      | cons g₀ gs₀ =>
        rw [holder] at hold hlive
        obtain ⟨rfl, rfl⟩ := List.cons.inj hold
        refine .somebody hlive outer ?_ (hflag.trans ?_)
        · intro g' hg'
          exact inner g' (List.mem_append_left _ hg')
        · exact inner g (List.mem_append_right _ List.mem_cons_self)

/-- **Throughout a script** that gives guards back innermost first, guards are nested. -/
theorem nested_throughout (start : b.live = []) (untouched : ∀ op ∈ ops, op.isByHand = false)
    (innermost : ∀ (i : Nat) (op : Op V), ops[i]? = some op →
      (b.after (ops.take i)).isInnermost op = true) (i : Nat) :
    (b.after (ops.take i)).Nested b.chip.interrupts := by
  refine holds_throughout (P := fun b op => op.isByHand = false ∧ b.isInnermost op = true) ?_
    (.nobody start rfl)
    (fun i op hop => ⟨untouched op (List.mem_of_getElem? hop), innermost i op hop⟩) i
  rintro b b' op hdoes ⟨hop, hinnermost⟩ hb
  exact hdoes.nested hop hinnermost hb

end Bench

/-- **When holders are masked, and when the flag is put back.** Take a blank bench, and a script
that gives guards back in any order and does not set the interrupt flag by hand. Interrupts are
masked at every point at which a lock is held if and only if no guard that has found interrupts
delivered is given back while another guard holds a lock. At a point at which no guard is live, the
flag is what it was at the start if and only if no guard was given back before while interrupts were
delivered. Both are so at every point if guards are given back innermost first. -/
theorem masked_while_held_iff {b : Bench V} (blank : b.Blank) (ops : List (Bench.Op V))
    (untouched : ∀ op ∈ ops, op.isByHand = false) :
    ((∀ i, (b.after (ops.take i)).HoldersMasked) ↔
      ∀ (i : Nat) (op : Bench.Op V), ops[i]? = some op →
        (b.after (ops.take i)).unmasksHolder op = false) ∧
    (∀ i, (b.after (ops.take i)).live = [] →
      ((b.after (ops.take i)).chip.interrupts = b.chip.interrupts ↔
        ∀ (j : Nat) (op : Bench.Op V), j < i → ops[j]? = some op →
          (b.after (ops.take j)).leavesUnmasked op = false)) ∧
    ((∀ (i : Nat) (op : Bench.Op V), ops[i]? = some op →
        (b.after (ops.take i)).isInnermost op = true) →
      ∀ i, (b.after (ops.take i)).HoldersMasked ∧
        ((b.after (ops.take i)).live = [] →
          (b.after (ops.take i)).chip.interrupts = b.chip.interrupts)) := by
  have hstart : b.HoldersMasked := by
    intro g hg
    rw [blank.live] at hg
    cases hg
  refine ⟨Bench.holdersMasked_throughout_iff hstart untouched, ?_, ?_⟩
  · intro i hlive
    have huntouched : ∀ op ∈ ops.take i, op.isByHand = false := fun op hop =>
      untouched op (List.mem_of_mem_take hop)
    rw [Bench.interrupts_after_iff blank.live huntouched hlive]
    constructor
    · intro hkept j op hj hop
      have hpoint := hkept j op ((List.getElem?_take_of_lt hj).trans hop)
      rwa [List.take_take, Nat.min_eq_left (Nat.le_of_lt hj)] at hpoint
    · intro hkept j op hop
      obtain ⟨hj, hop⟩ : j < i ∧ ops[j]? = some op := by
        rw [List.getElem?_take] at hop
        exact Option.ite_none_right_eq_some.mp hop
      rw [List.take_take, Nat.min_eq_left (Nat.le_of_lt hj)]
      exact hkept j op hj hop
  · intro hinnermost i
    have hnested := Bench.nested_throughout blank.live untouched hinnermost i
    exact ⟨hnested.holdersMasked, hnested.interrupts⟩

/-- A processor section, a spin section in it, and a mutex guard in that; the spin section is given
back before the mutex guard, and the processor section last. -/
def spinLeftFirst : List Bench.Op :=
  [.enter, .spin 0, .mutex 0, .leave 1, .leave 2, .leave 0]

/-- The spin section is not the innermost one when it is given back, and yet holders are masked
throughout, and the flag is put back. -/
theorem masked_though_spin_left_first :
    (∀ i, ((Bench.new 1 1).after (spinLeftFirst.take i)).HoldersMasked) ∧
    ((Bench.new 1 1).after spinLeftFirst).live = [] ∧
    ((Bench.new 1 1).after spinLeftFirst).chip.interrupts = true := by
  have hchecked : ∀ i : Fin spinLeftFirst.length,
      ((Bench.new 1 1).after (spinLeftFirst.take i)).unmasksHolder spinLeftFirst[i] = false ∧
      ((Bench.new 1 1).after (spinLeftFirst.take i)).leavesUnmasked spinLeftFirst[i] = false := by
    decide
  obtain ⟨hmasked, hflag, -⟩ := masked_while_held_iff (b := Bench.new 1 1) ⟨rfl, rfl⟩
    spinLeftFirst (by decide)
  have hlive : ((Bench.new 1 1).after (spinLeftFirst.take 6)).live = [] := by decide
  refine ⟨hmasked.mpr ?_, hlive, (hflag 6 hlive).mpr ?_⟩
  · intro i op hop
    obtain ⟨hi, rfl⟩ := List.getElem?_eq_some_iff.mp hop
    exact (hchecked ⟨i, hi⟩).1
  · intro i op _ hop
    obtain ⟨hi, rfl⟩ := List.getElem?_eq_some_iff.mp hop
    exact (hchecked ⟨i, hi⟩).2

/-- **A holder that is interrupted.** A spin section is entered inside a processor section, and the
processor section is given back first: interrupts are delivered while the spin section holds its
lock. When that is given back as well, no guard is live and interrupts are masked for good. -/
theorem outer_section_left_first :
    (Bench.new 1 0).chip.interrupts = true ∧
    ((Bench.new 1 0).after [.enter, .spin 0, .leave 0]).live = [⟨false, some (.flag 0)⟩] ∧
    ((Bench.new 1 0).after [.enter, .spin 0, .leave 0]).chip.interrupts = true ∧
    ¬ ((Bench.new 1 0).after [.enter, .spin 0, .leave 0]).HoldersMasked ∧
    ((Bench.new 1 0).after [.enter, .spin 0, .leave 0, .leave 1]).live = [] ∧
    ((Bench.new 1 0).after [.enter, .spin 0, .leave 0, .leave 1]).chip.interrupts = false := by
  refine ⟨rfl, rfl, rfl, ?_, rfl, rfl⟩
  intro hmasked
  cases hmasked ⟨false, some (.flag 0)⟩ List.mem_cons_self nofun

end Nucleus
