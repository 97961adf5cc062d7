import Nucleus.Proofs.System

/-!
# Calls that cross

While a call stands at one of its windows, another core may carry out a whole call. `Run.Crossed`
says where a call can then return, `Call.Interleaved` puts two calls together in any order, one at
a window of the other included, and the rules below `Call.Crosses` find what that makes of the
kernel state: they go through the call, as the rules of `Call.Does` do, and collect its windows.
-/

namespace Nucleus

variable {G : Guest} {α β γ : Type}

/-! ## Another call at a window -/

namespace Run

/-- The call returns, and `other` was carried out at one of its windows. -/
inductive Crossed (other : Machine G → Machine G → β → Prop) :
    Run G α → Machine G → α → β → Prop where
  /-- at this window -/
  | inside {m m' n : Machine G} {w : Window} {resume : Machine G → Run G α} {a : α} {b : β}
    (between : other m m' b) (rest : (resume m').Rests false n (.inl a)) :
    Crossed other (window m w resume) n a b
  /-- at a later one -/
  | later {m n : Machine G} {w : Window} {resume : Machine G → Run G α} {a : α} {b : β}
    (next : Crossed other (resume m) n a b) : Crossed other (window m w resume) n a b

variable {other : Machine G → Machine G → β → Prop} {n : Machine G} {a : α} {b : β}

/-- The other call comes in at this window, or at a later one. -/
theorem crossed_window {m : Machine G} {w : Window} {resume : Machine G → Run G α} :
    (window m w resume).Crossed other n a b ↔
      (∃ m', other m m' b ∧ (resume m').Rests false n (.inl a)) ∨
        (resume m).Crossed other n a b := by
  constructor
  · intro h
    cases h with
    | inside between rest => exact .inl ⟨_, between, rest⟩
    | later next => exact .inr next
  · rintro (⟨m', between, rest⟩ | next)
    · exact .inside between rest
    · exact .later next

/-- **Crossings of a composed call.** The other call comes in the first part or in the second. -/
theorem crossed_of_bind {x : Run G α} {f : α → Machine G → Run G γ} {c : γ}
    (h : (x.bind f).Crossed other n c b) :
    (∃ m a, x.Crossed other m a b ∧ (f a m).Rests false n (.inl c)) ∨
      ∃ m a, x.Rests false m (.inl a) ∧ (f a m).Crossed other n c b := by
  induction x with
  | done m a => exact .inr ⟨m, a, .done m a, h⟩
  | halt m why => cases h
  | window m w resume ih =>
    rcases crossed_window.mp h with ⟨m', between, rest⟩ | next
    · -- the other call comes in here, and the rest is carried out by itself
      rcases rests_bind.mp rest with ⟨m₁, a, hx, hf⟩ | ⟨rest', -, hr⟩
      · exact .inl ⟨m₁, a, .inside between hx, hf⟩
      · cases hr
    · rcases ih m next with ⟨m₁, a, hx, hf⟩ | ⟨m₁, a, hx, hf⟩
      · exact .inl ⟨m₁, a, .later hx, hf⟩
      · exact .inr ⟨m₁, a, .pass rfl hx, hf⟩
  | interrupt m home code c resume ih => cases h
  | enter m code a resume ih => cases h

/-- Where a call returns with another one at one of its windows, for each window in order. -/
def crossings (other : Machine G → Option (Machine G × β)) :
    Run G α → List (Option (Machine G × α × β))
  | window m _ resume =>
    ((other m).bind fun (m', b) => (resume m').ending?.map fun (n, a) => (n, a, b)) ::
      (resume m).crossings other
  | _ => []

/-- What is computed for the window of a number is a crossing. -/
theorem crossed_of_crossings {f : Machine G → Option (Machine G × β)} {x : Run G α} {i : Nat}
    (hf : ∀ m m' b, f m = some (m', b) → other m m' b)
    (h : (x.crossings f)[i]? = some (some (n, a, b))) : x.Crossed other n a b := by
  induction x generalizing i with
  | window m w resume ih =>
    cases i with
    | zero =>
      have h := Option.some.inj h
      obtain ⟨⟨m', b'⟩, hother, h⟩ := Option.bind_eq_some_iff.mp h
      obtain ⟨⟨n', a'⟩, hrest, h⟩ := Option.map_eq_some_iff.mp h
      cases h
      exact .inside (hf m m' b hother) (rests_of_ending? hrest)
    | succ i => exact .later (ih m h)
  | done | halt | interrupt | enter => cases h

end Run

namespace Call

/-- A call on a core, carried out whole while another core executes. -/
def Between (j : CoreId) (y : Call G β) (m m' : Machine G) (b : β) : Prop :=
  ∃ n, (y (m.on j)).Rests false n (.inl b) ∧ m' = n.on m.chip.current

/-- **Two calls in any order.** One call on core `i` and another on core `j`, one after the other or
one of them at a window of the other; the flag tells which. -/
inductive Interleaved (i j : CoreId) (x : Call G α) (y : Call G β) (m : Machine G) :
    Bool → Machine G → α → β → Prop where
  /-- `x`, then `y` -/
  | inTurn {m' n : Machine G} {a : α} {b : β} (first : (x (m.on i)).Rests false m' (.inl a))
    (second : (y (m'.on j)).Rests false n (.inl b)) : Interleaved i j x y m false n a b
  /-- `y`, then `x` -/
  | inReverse {m' n : Machine G} {a : α} {b : β} (first : (y (m.on j)).Rests false m' (.inl b))
    (second : (x (m'.on i)).Rests false n (.inl a)) : Interleaved i j x y m false n a b
  /-- `y` at a window of `x` -/
  | within {n : Machine G} {a : α} {b : β} (crossed : (x (m.on i)).Crossed (Between j y) n a b) :
    Interleaved i j x y m true n a b
  /-- `x` at a window of `y` -/
  | around {n : Machine G} {a : α} {b : β} (crossed : (y (m.on j)).Crossed (Between i x) n b a) :
    Interleaved i j x y m true n a b

/-- Where `x` on core `i` returns with `y` on core `j` at its window number `w`, if both return by
themselves. -/
def crossed? (i j : CoreId) (x : Call G α) (y : Call G β) (m : Machine G) (w : Nat) :
    Option (Machine G × α × β) :=
  ((x (m.on i)).crossings fun m => (y (m.on j)).ending?.map fun (n, b) =>
    (n.on m.chip.current, b))[w]?.join

/-- And so a computed crossing is an interleaving. -/
theorem interleaved_of_crossed? {i j : CoreId} {x : Call G α} {y : Call G β} {m n : Machine G}
    {w : Nat} {a : α} {b : β} (h : crossed? i j x y m w = some (n, a, b)) :
    Interleaved i j x y m true n a b := by
  refine .within (Run.crossed_of_crossings (fun m m' b hy => ?_) (Option.join_eq_some_iff.mp h))
  obtain ⟨⟨n', b'⟩, hrun, hy⟩ := Option.map_eq_some_iff.mp hy
  cases hy
  exact ⟨n', Run.rests_of_ending? hrun, rfl⟩

/-! ## What crossing calls do to the kernel state -/

/-- With another call of the effect `g` at one of its windows, the call on core `here` takes a
kernel state to another, with the two answers, as `P` says. -/
def Crosses (here : CoreId) (g : Effect G β) (x : Call G α)
    (P : Kernel G → Kernel G → α → β → Prop) : Prop :=
  ∀ ⦃other : Machine G → Machine G → β → Prop⦄,
    (∀ m m' b, other m m' b → m'.chip.current = m.chip.current ∧ (m'.kernel, b) = g m.kernel) →
    ∀ ⦃m n : Machine G⦄ ⦃a : α⦄ ⦃b : β⦄, m.chip.current = here → (x m).Crossed other n a b →
      n.chip.current = here ∧ P m.kernel n.kernel a b

/-- A call without windows. -/
def Closed (x : Call G α) : Prop :=
  ∀ ⦃β : Type⦄ ⦃other : Machine G → Machine G → β → Prop⦄ ⦃m n : Machine G⦄ ⦃a : α⦄ ⦃b : β⦄,
    ¬ (x m).Crossed other n a b

section Closed

/-- A call that returns at once has no window, -/
theorem closed_pure (a : α) : (pure a : Call G α).Closed := by
  intro _ _ _ _ _ _ h
  cases h

/-- nor has a look at the kernel state, -/
theorem closed_read (f : Kernel G → α) : (read f).Closed := by
  intro _ _ _ _ _ _ h
  cases h

/-- a change of it, -/
theorem closed_change (f : Kernel G → Kernel G) : (change f).Closed := by
  intro _ _ _ _ _ _ h
  cases h

/-- a command to the chip, -/
theorem closed_command (f : Chip Lock → Chip Lock) : (command f : Call G Unit).Closed := by
  intro _ _ _ _ _ _ h
  cases h

/-- or a line in the log. -/
theorem closed_note (notice : Notice) : (note notice : Call G Unit).Closed := by
  intro _ _ _ _ _ _ h
  cases h

/-- Taking a lock is done at once, or never. -/
theorem closed_acquire (l : Lock) : (acquire l : Call G Unit).Closed := by
  intro _ _ m _ _ _ h
  by_cases hl : l ∈ m.chip.held
  · rw [acquire_apply_of_mem hl] at h
    cases h
  · rw [acquire_apply_of_not_mem hl] at h
    cases h

/-- Two calls without windows have none one after the other. -/
theorem closed_bind {x : Call G α} {h : α → Call G γ} (hx : x.Closed) (hh : ∀ a, (h a).Closed) :
    (x >>= h).Closed := by
  intro _ _ _ _ _ _ hc
  rcases Run.crossed_of_bind hc with ⟨_, _, hx', -⟩ | ⟨_, a, -, hh'⟩
  · exact hx hx'
  · exact hh a hh'

end Closed

variable {here : CoreId} {g : Effect G β} {x : Call G α} {f : Effect G α}
  {P Q : Kernel G → Kernel G → α → β → Prop}

/-- What is said of a crossing may be weakened. -/
theorem Crosses.imp (hx : x.Crosses here g P) (h : ∀ k k' a b, P k k' a b → Q k k' a b) :
    x.Crosses here g Q := by
  intro other hother m n a b hm hc
  obtain ⟨hn, hP⟩ := hx hother hm hc
  exact ⟨hn, h _ _ _ _ hP⟩

/-- Nobody crosses a call without windows. -/
theorem crosses_of_closed (hx : x.Closed) : x.Crosses here g fun _ _ _ _ => False :=
  fun _ _ _ _ _ _ _ hc => (hx hc).elim

/-- At a window the other call does all that it does. -/
theorem crosses_pause (w : Window) :
    (pause w : Call G Unit).Crosses here g fun k k' _ b => (k', b) = g k := by
  intro other hother m n a b hm hc
  rcases Run.crossed_window.mp hc with ⟨m', between, rest⟩ | next
  · obtain ⟨hcur, hg⟩ := hother m m' b between
    obtain ⟨rfl, -⟩ := Run.rests_done.mp rest
    exact ⟨hcur.trans hm, hg⟩
  · cases next

/-- A call crosses in its first part, which then goes on by itself, or in its second part. -/
theorem crosses_bind {h : α → Call G γ} {e : α → Effect G γ}
    {R : α → Kernel G → Kernel G → γ → β → Prop} (hx : x.Does here f) (hP : x.Crosses here g P)
    (hh : ∀ a, (h a).Does here (e a)) (hR : ∀ a, (h a).Crosses here g (R a)) :
    (x >>= h).Crosses here g fun k k' c b =>
      (∃ k₁ a, P k k₁ a b ∧ (k', c) = e a k₁) ∨ R (f k).2 (f k).1 k' c b := by
  intro other hother m n c b hm hc
  rcases Run.crossed_of_bind hc with ⟨m₁, a, hx', hrest⟩ | ⟨m₁, a, hx', hnext⟩
  · obtain ⟨hm₁, hP'⟩ := hP hother hm hx'
    obtain ⟨hn, hk, hc⟩ := hh a hm₁ hrest
    obtain rfl := Sum.inl.inj hc
    exact ⟨hn, .inl ⟨_, a, hP', Prod.ext hk rfl⟩⟩
  · obtain ⟨hm₁, hk, ha⟩ := hx hm hx'
    obtain rfl := Sum.inl.inj ha
    obtain ⟨hn, hR'⟩ := hR _ hother hm₁ hnext
    rw [hk] at hR'
    exact ⟨hn, .inr hR'⟩

/-- A call that begins without windows. -/
theorem crosses_bind_closed {h : α → Call G γ} {R : α → Kernel G → Kernel G → γ → β → Prop}
    (hx : x.Does here f) (closed : x.Closed) (hR : ∀ a, (h a).Crosses here g (R a)) :
    (x >>= h).Crosses here g fun k k' c b => R (f k).2 (f k).1 k' c b := by
  intro other hother m n c b hm hc
  rcases Run.crossed_of_bind hc with ⟨m₁, a, hx', -⟩ | ⟨m₁, a, hx', hnext⟩
  · exact (closed hx').elim
  · obtain ⟨hm₁, hk, ha⟩ := hx hm hx'
    obtain rfl := Sum.inl.inj ha
    obtain ⟨hn, hR'⟩ := hR _ hother hm₁ hnext
    rw [hk] at hR'
    exact ⟨hn, hR'⟩

/-- A choice is crossed as the branch that is taken. -/
theorem crosses_ite {p : Prop} [Decidable p] {y : Call G α}
    (hx : p → x.Crosses here g P) (hy : ¬ p → y.Crosses here g Q) :
    (if p then x else y).Crosses here g (if p then P else Q) := by
  split
  · exact hx ‹_›
  · exact hy ‹_›

/-- The window of a masked stretch stands before all that is done in it. -/
theorem crosses_masked (hx : x.Does here f) (closed : x.Closed) :
    (masked x).Crosses here g fun k k' a b => (k', a) = f (g k).1 ∧ b = (g k).2 := by
  intro other hother m n a b hm hc
  rw [masked_apply] at hc
  have hrest := does_unmask m.chip.interrupts hx
  rcases Run.crossed_window.mp hc with ⟨m', between, rest⟩ | next
  · obtain ⟨hcur, hg⟩ := hother _ m' b between
    obtain ⟨hn, hk, ha⟩ := hrest (m := m') (hcur.trans hm) rest
    obtain rfl := Sum.inl.inj ha
    have hk' : m'.kernel = (g m.kernel).1 := congrArg Prod.fst hg
    rw [hk'] at hk
    refine ⟨hn, Prod.ext hk ?_, congrArg Prod.snd hg⟩
    rw [hk']
  · rcases Run.crossed_of_bind next with ⟨_, _, hx', -⟩ | ⟨_, _, -, hend⟩
    · exact (closed hx').elim
    · cases hend

/-- Who crosses a locked stretch does so before the lock is taken. -/
theorem crosses_locked (l : Lock) (hx : x.Does here f) (closed : x.Closed) :
    (locked l x).Crosses here g fun k k' a b => (k', a) = f (g k).1 ∧ b = (g k).2 :=
  crosses_masked (does_holding l hx) (closed_bind (closed_acquire l) fun _ =>
    closed_bind closed fun a => closed_bind (closed_command _) fun _ => closed_pure a)

end Call

end Nucleus
