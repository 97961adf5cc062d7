import Mathlib.Data.List.Nodup
import Nucleus.Guard

/-!
# Guards and the locks they hold

A bench is a chip with lock flags and mutexes, on which guards are taken and given back in any
order. Whatever script is carried out on it, the guards account for the flags.

* `Bench.after` is the bench that a script leaves, and `Bench.live` the guards that are live there.
* `Bench.Does` says once what an operation can do; what follows is derived from it, first for one
  operation and then, by induction, for a script.
* `Bench.Enters`, `Bench.Tries` and `Bench.GivesBack` say what it comes to that a section is
  entered, a lock tried, and a guard given back.
* `guards_account_for_locks` puts together what holds after every script.
-/

namespace Nucleus

variable {V : Type}

/-! ## Scripts -/

namespace Bench

variable {b b' : Bench V} {op : Op V} {l : BenchLock} {slot : Nat} {g : Guard}

/-- The bench that a script leaves. -/
def after (b : Bench V) (ops : List (Op V)) : Bench V := ops.foldl (fun b op => (b.perform op).1) b

@[simp] theorem after_cons (b : Bench V) (op : Op V) (ops : List (Op V)) :
    b.after (op :: ops) = (b.perform op).1.after ops := rfl

@[simp] theorem after_concat (b : Bench V) (ops : List (Op V)) (op : Op V) :
    b.after (ops ++ [op]) = ((b.after ops).perform op).1 :=
  List.foldl_append ..

/-! ## Guards that are live -/

/-- The guards that are live, in the order in which they were taken. -/
def live (b : Bench V) : List Guard := b.guards.filterMap id

/-- The live guards that were taken before the one in a slot. -/
def older (b : Bench V) (slot : Nat) : List Guard := (b.guards.take slot).filterMap id

/-- The live guards that were taken after the one in a slot. -/
def newer (b : Bench V) (slot : Nat) : List Guard := (b.guards.drop (slot + 1)).filterMap id

@[simp] theorem live_keep_none (b : Bench V) : (b.keep none).live = b.live := by
  simp only [live, keep, List.filterMap_append]
  exact List.append_nil _

@[simp] theorem live_keep_some (b : Bench V) (g : Guard) :
    (b.keep (some g)).live = b.live ++ [g] := by
  simp only [live, keep, List.filterMap_append]
  rfl

theorem getElem?_of_guard? (h : b.guard? slot = some g) : b.guards[slot]? = some (some g) := by
  simp only [guard?] at h
  cases hslot : b.guards[slot]? with
  | none =>
    rw [hslot] at h
    cases h
  | some o =>
    rw [hslot] at h
    exact congrArg some h

/-- A guard stands between those that are older and those that are newer. -/
theorem live_eq (h : b.guard? slot = some g) : b.live = b.older slot ++ g :: b.newer slot := by
  obtain ⟨hlt, hget⟩ := List.getElem?_eq_some_iff.mp (getElem?_of_guard? h)
  have hsplit : b.guards = b.guards.take slot ++ some g :: b.guards.drop (slot + 1) := by
    rw [← hget, List.getElem_cons_drop, List.take_append_drop]
  simp only [live]
  rw [hsplit, List.filterMap_append]
  rfl

/-- A guard that is given back is live no more, and the others are. -/
theorem live_leave (h : b.guard? slot = some g) :
    (b.leave slot g).live = b.older slot ++ b.newer slot := by
  obtain ⟨hlt, -⟩ := List.getElem?_eq_some_iff.mp (getElem?_of_guard? h)
  simp only [live, leave]
  rw [List.set_eq_take_append_cons_drop, if_pos hlt, List.filterMap_append]
  rfl

theorem live_perm_leave (h : b.guard? slot = some g) :
    b.live.Perm (g :: (b.leave slot g).live) := by
  rw [live_eq h, live_leave h]
  exact List.perm_middle

/-! ## What an operation can do -/

/-- The lock that an operation is to take. -/
def Op.lock? : Op V → Option BenchLock
  | .spin i | .trySpin i => some (.flag i)
  | .mutex i | .tryMutex i => some (.mutex i)
  | _ => none

/-- Does the operation give up if the flag is set? -/
def Op.isTry : Op V → Bool
  | .trySpin _ | .tryMutex _ => true
  | _ => false

@[simp] theorem flag_mem_locks (b : Bench V) (i : Nat) : .flag i ∈ b.locks ↔ i < b.flags := by
  simp [locks]

@[simp] theorem mutex_mem_locks (b : Bench V) (i : Nat) :
    .mutex i ∈ b.locks ↔ i < b.values.length := by
  simp [locks]

/-- A try that fails: interrupts are masked and put back, and the slot stays empty. -/
def fail (b : Bench V) : Bench V :=
  ({ b with chip := b.chip.mask.restore b.chip.interrupts }).keep none

/-- What an operation can do on a bench. -/
inductive Does (b : Bench V) : Op V → Bench V → Prop where
  /-- there is no such lock -/
  | missing {op : Op V} {l : BenchLock} (asks : op.lock? = some l) (missing : l ∉ b.locks) :
    Does b op b
  /-- the flag is set, and nobody is left to clear it -/
  | stuck {op : Op V} {l : BenchLock} (asks : op.lock? = some l) (waits : op.isTry = false)
    (set : b.isHeld l = true) : Does b op (b.keep none)
  /-- the flag is set, and the operation gives up -/
  | fail {op : Op V} {l : BenchLock} (asks : op.lock? = some l) (tries : op.isTry = true)
    (set : b.isHeld l = true) : Does b op b.fail
  /-- the flag is clear, and the lock is taken -/
  | take {op : Op V} {l : BenchLock} (asks : op.lock? = some l) (found : l ∈ b.locks)
    (clear : b.isHeld l = false) : Does b op (b.take l)
  /-- a processor section is entered -/
  | enter : Does b .enter b.enter
  /-- there is no mutex guard in the slot -/
  | notMutexGuard {slot : Nat} {f : V → V}
    (other : ∀ m, (b.guard? slot).bind (·.lock) ≠ some (.mutex m)) : Does b (.update slot f) b
  /-- the value of a mutex is changed -/
  | update {slot m : Nat} {f : V → V}
    (guard : (b.guard? slot).bind (·.lock) = some (.mutex m)) :
    Does b (.update slot f) (b.update m f)
  /-- there is no guard in the slot -/
  | noGuard {slot : Nat} (empty : b.guard? slot = none) : Does b (.leave slot) b
  /-- a guard is given back -/
  | leave {slot : Nat} {g : Guard} (live : b.guard? slot = some g) :
    Does b (.leave slot) (b.leave slot g)
  /-- the interrupt flag is set by hand -/
  | setInterrupts (on : Bool) : Does b (.setInterrupts on) (b.setInterrupts on)
  /-- a fresh mutex is locked and given back -/
  | fresh (v : V) (f : V → V) :
    Does b (.fresh v f) { b with chip := b.chip.mask.restore b.chip.interrupts }

/-- An operation that waits for a lock. -/
theorem does_lockOrRefuse (asks : op.lock? = some l) (waits : op.isTry = false)
    (found : l ∈ b.locks) : b.Does op (b.lockOrRefuse l).1 := by
  simp only [lockOrRefuse]
  split
  next hset => exact .stuck asks waits hset
  next hclear => exact .take asks found (Bool.eq_false_iff.mpr hclear)

/-- An operation that tries a lock. -/
theorem does_tryTake (asks : op.lock? = some l) (tries : op.isTry = true) (found : l ∈ b.locks) :
    b.Does op (b.tryTake l) := by
  simp only [tryTake]
  split
  next hset => exact .fail asks tries hset
  next hclear => exact .take asks found (Bool.eq_false_iff.mpr hclear)

/-- **Whatever is done is one of these.** -/
theorem does_perform (b : Bench V) (op : Op V) : b.Does op (b.perform op).1 := by
  cases op with
  | enter => exact .enter
  | spin i =>
    simp only [perform]
    split
    next hi => exact does_lockOrRefuse rfl rfl ((b.flag_mem_locks i).mpr hi)
    next hi => exact .missing rfl (mt (b.flag_mem_locks i).mp hi)
  | trySpin i =>
    simp only [perform]
    split
    next hi => exact does_tryTake rfl rfl ((b.flag_mem_locks i).mpr hi)
    next hi => exact .missing rfl (mt (b.flag_mem_locks i).mp hi)
  | mutex i =>
    simp only [perform]
    split
    next hi => exact does_lockOrRefuse rfl rfl ((b.mutex_mem_locks i).mpr hi)
    next hi => exact .missing rfl (mt (b.mutex_mem_locks i).mp hi)
  | tryMutex i =>
    simp only [perform]
    split
    next hi => exact does_tryTake rfl rfl ((b.mutex_mem_locks i).mpr hi)
    next hi => exact .missing rfl (mt (b.mutex_mem_locks i).mp hi)
  | update slot f =>
    simp only [perform]
    split
    next m hm => exact .update hm
    next hother => exact .notMutexGuard hother
  | leave slot =>
    simp only [perform]
    split
    next g hg => exact .leave hg
    next hempty => exact .noGuard hempty
  | setInterrupts on => exact .setInterrupts on
  | fresh v f => exact .fresh v f

theorem perform_leave (live : b.guard? slot = some g) :
    b.perform (.leave slot) = (b.leave slot g, .unit) := by
  simp only [perform]
  rw [live]

/-- The flags that are left when a guard is given back. -/
theorem held_leave (b : Bench V) (slot : Nat) (g : Guard) :
    (b.leave slot g).chip.held = g.lock.elim b.chip.held b.chip.held.erase := by
  simp only [leave]
  cases g.lock <;> rfl

/-- What is written when a guard is given back, the latest first. -/
theorem journal_leave (b : Bench V) (slot : Nat) (g : Guard) :
    (b.leave slot g).chip.journal =
      (.restore g.saved :: (g.lock.map .release).toList) ++ b.chip.journal := by
  simp only [leave]
  cases g.lock <;> rfl

/-- Nothing makes or unmakes a lock. -/
theorem Does.locks (h : b.Does op b') : b'.locks = b.locks := by
  cases h with
  | update guard =>
    simp only [Bench.locks, Bench.update]
    rw [List.length_modify]
  | _ => rfl

/-! ## Every flag has its guard -/

theorem isHeld_iff (b : Bench V) (l : BenchLock) : b.isHeld l = true ↔ l ∈ b.chip.held :=
  List.contains_iff_mem

theorem not_mem_held (h : b.isHeld l = false) : l ∉ b.chip.held := by
  intro hl
  rw [(b.isHeld_iff l).mpr hl] at h
  cases h

/-- The number of live guards that hold a lock. -/
def guardsOn (b : Bench V) (l : BenchLock) : Nat := b.live.countP (·.lock = some l)

/-- No flag is set twice, and it is set as often as live guards hold it. -/
structure Accounts (b : Bench V) : Prop where
  /-- no flag is set twice -/
  nodup : b.chip.held.Nodup
  /-- every flag is set as often as live guards hold it -/
  count : ∀ l, b.guardsOn l = b.chip.held.count l

/-- A flag has one guard if it is set, and else none. -/
theorem Accounts.guardsOn_eq (h : b.Accounts) (l : BenchLock) :
    b.guardsOn l = if b.isHeld l then 1 else 0 := by
  rw [h.count]
  split
  next hl => exact List.count_eq_one_of_mem h.nodup ((b.isHeld_iff l).mp hl)
  next hl => exact List.count_eq_zero_of_not_mem (mt (b.isHeld_iff l).mpr hl)

theorem Accounts.of_same (h : b.Accounts) (held : b'.chip.held = b.chip.held)
    (live : b'.live = b.live) : b'.Accounts := by
  constructor
  · rw [held]
    exact h.nodup
  · intro l
    rw [guardsOn, held, live]
    exact h.count l

/-- A processor section holds no lock. -/
theorem Accounts.enter (h : b.Accounts) : b.enter.Accounts := by
  constructor
  · exact h.nodup
  · intro l
    have hlive : b.enter.live = b.live ++ [⟨b.chip.interrupts, none⟩] := live_keep_some ..
    rw [guardsOn, hlive, List.countP_append]
    exact h.count l

theorem Accounts.take (h : b.Accounts) (clear : b.isHeld l = false) : (b.take l).Accounts := by
  constructor
  · exact List.nodup_cons.mpr ⟨not_mem_held clear, h.nodup⟩
  · intro l'
    have hlive : (b.take l).live = b.live ++ [⟨b.chip.interrupts, some l⟩] := live_keep_some ..
    have hheld : (b.take l).chip.held = l :: b.chip.held := rfl
    rw [guardsOn, hlive, hheld, List.countP_append, List.count_cons, ← h.count, guardsOn]
    simp only [List.countP_singleton, decide_eq_true_eq, Option.some.injEq, beq_iff_eq]

theorem Accounts.leave (h : b.Accounts) (live : b.guard? slot = some g) :
    (b.leave slot g).Accounts := by
  have hcount (l : BenchLock) : b.guardsOn l =
      (b.leave slot g).guardsOn l + if g.lock = some l then 1 else 0 := by
    have hperm := (live_perm_leave live).countP_eq (·.lock = some l)
    rw [List.countP_cons] at hperm
    simpa only [guardsOn, decide_eq_true_eq] using hperm
  have hheld := b.held_leave slot g
  cases hlock : g.lock with
  | none =>
    rw [hlock, Option.elim_none] at hheld
    constructor
    · rw [hheld]
      exact h.nodup
    · intro l
      have hl := h.count l
      rw [hcount, hlock, if_neg nofun] at hl
      rw [hheld]
      exact hl
  | some l =>
    rw [hlock, Option.elim_some] at hheld
    constructor
    · rw [hheld]
      exact h.nodup.erase l
    · intro l'
      have hl' := h.count l'
      rw [hcount, hlock] at hl'
      rw [hheld, List.count_erase]
      simp only [Option.some.injEq, beq_iff_eq] at hl' ⊢
      omega

/-- **One operation** keeps the account. -/
theorem Does.accounts (h : b.Does op b') (hb : b.Accounts) : b'.Accounts := by
  cases h with
  | missing | notMutexGuard | noGuard => exact hb
  | stuck => exact hb.of_same rfl (live_keep_none b)
  | fail => exact hb.of_same rfl (live_keep_none b)
  | take asks found clear => exact hb.take clear
  | enter => exact hb.enter
  | update => exact hb.of_same rfl rfl
  | leave live => exact hb.leave live
  | setInterrupts on => cases on <;> exact hb.of_same rfl rfl
  | fresh => exact hb.of_same rfl rfl

/-- **After every script** the guards account for the flags, if they do so at the start. -/
theorem Accounts.after (h : b.Accounts) (ops : List (Op V)) : (b.after ops).Accounts := by
  induction ops generalizing b with
  | nil => exact h
  | cons op ops ih => exact ih ((b.does_perform op).accounts h)

theorem locks_after (b : Bench V) (ops : List (Op V)) : (b.after ops).locks = b.locks := by
  induction ops generalizing b with
  | nil => rfl
  | cons op ops ih => exact (ih _).trans (b.does_perform op).locks

/-! ## Where a guard comes from -/

theorem guard?_keep (b : Bench V) (o : Option Guard) (slot : Nat) :
    (b.keep o).guard? slot = if b.guards.length = slot then o else b.guard? slot := by
  simp only [guard?, keep]
  rw [List.getElem?_append]
  split
  next hlt => rw [if_neg (Nat.ne_of_gt hlt)]
  next hge =>
    rw [List.getElem?_singleton]
    split
    next heq => rw [if_pos (by omega), Option.getD_some]
    next hne => rw [if_neg (by omega), List.getElem?_eq_none (by omega)]

theorem guard?_leave (b : Bench V) (slot : Nat) (g : Guard) (slot' : Nat) :
    (b.leave slot g).guard? slot' = if slot = slot' then none else b.guard? slot' := by
  simp only [guard?, leave]
  rw [List.getElem?_set]
  split
  · split <;> rfl
  · rfl

/-- A slot that is live after an operation was so before, or the operation has taken the guard in
it: the slot is the next one, and the guard has the interrupt flag that was found and the lock that
was asked for. -/
theorem Does.guard?_cases (h : b.Does op b') (live : b'.guard? slot = some g) :
    b.guard? slot = some g ∨
      (b.guards.length = slot ∧ g = ⟨b.chip.interrupts, op.lock?⟩) := by
  -- a slot that is appended holds what was kept there
  have hkeep (b : Bench V) {o : Option Guard} (hlive : (b.keep o).guard? slot = some g) :
      b.guard? slot = some g ∨ (b.guards.length = slot ∧ o = some g) := by
    rw [guard?_keep] at hlive
    split at hlive
    next hslot => exact .inr ⟨hslot, hlive⟩
    next => exact .inl hlive
  cases h with
  | missing | notMutexGuard | noGuard | update | fresh => exact .inl live
  | setInterrupts on => cases on <;> exact .inl live
  | stuck | fail =>
    rcases hkeep _ live with hold | ⟨-, hnone⟩
    · exact .inl hold
    · cases hnone
  | take asks found clear =>
    rcases hkeep _ live with hold | ⟨hslot, hg⟩
    · exact .inl hold
    · rw [asks]
      exact .inr ⟨hslot, (Option.some.inj hg).symm⟩
  | enter =>
    rcases hkeep _ live with hold | ⟨hslot, hg⟩
    · exact .inl hold
    · exact .inr ⟨hslot, (Option.some.inj hg).symm⟩
  | leave =>
    rw [guard?_leave] at live
    split at live
    · cases live
    · exact .inl live

/-- **Every live guard** was there at the start, or has been taken at some point of the script: it
remembers the interrupt flag of that point. -/
theorem guard?_after_cases {ops : List (Op V)} (live : (b.after ops).guard? slot = some g) :
    b.guard? slot = some g ∨ ∃ (i : Nat) (op : Op V), ops[i]? = some op ∧
      (b.after (ops.take i)).guards.length = slot ∧
      g = ⟨(b.after (ops.take i)).chip.interrupts, op.lock?⟩ := by
  induction ops generalizing b with
  | nil => exact .inl live
  | cons op ops ih =>
    rcases ih live with hfirst | ⟨i, op', hop', htaken⟩
    · rcases (b.does_perform op).guard?_cases hfirst with hstart | htaken
      · exact .inl hstart
      · exact .inr ⟨0, op, rfl, htaken⟩
    · exact .inr ⟨i + 1, op', hop', htaken⟩

/-! ## The interrupt flag is put back -/

/-- The restorings of a stretch of the journal: the flag that is put back, and the lock flags that
are set at that moment; `held` are the flags at the start of the stretch. -/
def restoringsFrom : List BenchLock → List (Act BenchLock) → List (Bool × List BenchLock)
  | _, [] => []
  | held, .restore saved :: acts => (saved, held) :: restoringsFrom held acts
  | held, .acquire l :: acts => restoringsFrom (l :: held) acts
  | held, .release l :: acts => restoringsFrom (held.erase l) acts
  | held, _ :: acts => restoringsFrom held acts

/-- The restorings of an operation. -/
def restorings (b : Bench V) (op : Op V) : List (Bool × List BenchLock) :=
  restoringsFrom b.chip.held ((b.perform op).1.chip.acts.drop b.chip.journal.length)

/-- The restorings can be read off what an operation has written to the journal. -/
theorem restorings_eq {acts : List (Act BenchLock)}
    (h : (b.perform op).1.chip.journal = acts ++ b.chip.journal) :
    b.restorings op = restoringsFrom b.chip.held acts.reverse := by
  simp only [restorings, Chip.acts]
  rw [h, List.reverse_append, List.drop_left' b.chip.journal.length_reverse]

theorem length_restoringsFrom (held : List BenchLock) (acts : List (Act BenchLock)) :
    (restoringsFrom held acts).length = ({ journal := acts } : Chip BenchLock).restores := by
  induction acts generalizing held with
  | nil => rfl
  | cons act acts ih =>
    simp only [Chip.restores, List.countP_cons] at ih ⊢
    cases act with
    | restore saved =>
      simp only [restoringsFrom, List.length_cons, ih]
      rfl
    | _ => exact ih _

/-- The restorings are counted. -/
theorem restores_eq {acts : List (Act BenchLock)}
    (h : (b.perform op).1.chip.journal = acts ++ b.chip.journal) :
    (b.perform op).1.chip.restores = b.chip.restores + (b.restorings op).length := by
  rw [restorings_eq h, length_restoringsFrom]
  simp only [Chip.restores]
  rw [h, List.countP_append, List.countP_reverse, Nat.add_comm]

/-- What it comes to that a section is entered, with a lock or without one. -/
structure Enters (b : Bench V) (op : Op V) (l : Option BenchLock) : Prop where
  /-- interrupts are masked -/
  masked : (b.perform op).1.chip.interrupts = false
  /-- the flag of the lock is set, and the other flags are as they were -/
  held : (b.perform op).1.chip.held = l.toList ++ b.chip.held
  /-- that is done in this order, and nothing else is asked of the chip -/
  journal : (b.perform op).1.chip.journal =
    l.toList.map .acquire ++ .mask b.chip.interrupts :: b.chip.journal
  /-- there is one more slot, with a guard that remembers the interrupt flag -/
  guards : (b.perform op).1.guards = b.guards ++ [some ⟨b.chip.interrupts, l⟩]
  /-- all values are as they were -/
  values : (b.perform op).1.values = b.values

/-- What a try of a lock comes to. -/
structure Tries (b : Bench V) (op : Op V) (l : BenchLock) : Prop where
  /-- it succeeds if and only if the flag is clear -/
  answer : (b.perform op).2 = .truth (!b.isHeld l)
  /-- if it succeeds, the flag is set, and there is a guard for it -/
  taken : b.isHeld l = false → (b.perform op).1.isHeld l = true ∧
    (b.perform op).1.live = b.live ++ [⟨b.chip.interrupts, some l⟩]
  /-- if it fails, all flags, all values, the interrupt flag and the guards are as they were -/
  kept : b.isHeld l = true → (b.perform op).1.chip.held = b.chip.held ∧
    (b.perform op).1.values = b.values ∧
    (b.perform op).1.chip.interrupts = b.chip.interrupts ∧ (b.perform op).1.live = b.live
  /-- if it fails, the interrupt flag is put back once -/
  restored : b.isHeld l = true → b.restorings op = [(b.chip.interrupts, b.chip.held)] ∧
    (b.perform op).1.chip.restores = b.chip.restores + 1

/-- What a guard that is given back comes to. -/
structure GivesBack (b : Bench V) (slot : Nat) (g : Guard) : Prop where
  /-- the interrupt flag is put back once, to what the guard has saved -/
  restored : b.restorings (.leave slot) = [(g.saved, (b.perform (.leave slot)).1.chip.held)] ∧
    (b.perform (.leave slot)).1.chip.restores = b.chip.restores + 1
  /-- at that moment the flag of its lock is clear -/
  clear : ∀ l, g.lock = some l → l ∉ (b.perform (.leave slot)).1.chip.held
  /-- the other flags are as they were -/
  others : ∀ l, g.lock ≠ some l → (b.perform (.leave slot)).1.isHeld l = b.isHeld l
  /-- the guard is live no more, and the others are -/
  live : (b.perform (.leave slot)).1.live = b.older slot ++ b.newer slot

theorem perform_of_try (tries : op.isTry = true) (asks : op.lock? = some l) (found : l ∈ b.locks) :
    b.perform op = (b.tryTake l, .truth (!b.isHeld l)) := by
  cases op with
  | trySpin i =>
    obtain rfl := Option.some.inj asks
    exact if_pos ((b.flag_mem_locks i).mp found)
  | tryMutex i =>
    obtain rfl := Option.some.inj asks
    exact if_pos ((b.mutex_mem_locks i).mp found)
  | _ => cases tries

theorem enters_enter (b : Bench V) : b.Enters .enter none := ⟨rfl, rfl, rfl, rfl, rfl⟩

/-- **A lock whose flag is clear** is taken, whether it is locked or tried. -/
theorem enters_of_clear (asks : op.lock? = some l) (found : l ∈ b.locks)
    (clear : b.isHeld l = false) : b.Enters op (some l) := by
  have hlocked : (b.lockOrRefuse l).1 = b.take l := by
    rw [lockOrRefuse, clear]
    rfl
  have htried (tries : op.isTry = true) : (b.perform op).1 = b.take l := by
    rw [perform_of_try tries asks found, tryTake, clear]
    rfl
  have htaken : (b.perform op).1 = b.take l := by
    cases op with
    | spin i =>
      obtain rfl := Option.some.inj asks
      simp only [perform]
      rw [if_pos ((b.flag_mem_locks i).mp found), hlocked]
    | mutex i =>
      obtain rfl := Option.some.inj asks
      simp only [perform]
      rw [if_pos ((b.mutex_mem_locks i).mp found), hlocked]
    | trySpin | tryMutex => exact htried rfl
    | _ => cases asks
  constructor <;> rw [htaken] <;> rfl

/-- **A try** is as it should be. -/
theorem tries_of_try (tries : op.isTry = true) (asks : op.lock? = some l) (found : l ∈ b.locks) :
    b.Tries op l := by
  have hperform := perform_of_try tries asks found
  have htaken (h : b.isHeld l = false) : (b.perform op).1 = b.take l := by
    rw [hperform, tryTake, h]
    rfl
  have hfailed (h : b.isHeld l = true) : (b.perform op).1 = b.fail := by
    rw [hperform, tryTake, h]
    rfl
  constructor
  · rw [hperform]
  · intro h
    rw [htaken h]
    exact ⟨((b.take l).isHeld_iff l).mpr List.mem_cons_self, live_keep_some ..⟩
  · intro h
    rw [hfailed h]
    exact ⟨rfl, rfl, rfl, live_keep_none ..⟩
  · intro h
    have hjournal : (b.perform op).1.chip.journal =
        [.restore b.chip.interrupts, .mask b.chip.interrupts] ++ b.chip.journal := by
      rw [hfailed h]
      rfl
    have honce : b.restorings op = [(b.chip.interrupts, b.chip.held)] := restorings_eq hjournal
    refine ⟨honce, ?_⟩
    rw [restores_eq hjournal, honce]
    rfl

/-- **A guard that is given back** clears its flag and then puts the interrupt flag back. -/
theorem Accounts.givesBack (h : b.Accounts) (live : b.guard? slot = some g) :
    b.GivesBack slot g := by
  have hperform : (b.perform (.leave slot)).1 = b.leave slot g :=
    congrArg Prod.fst (perform_leave live)
  have hjournal := b.journal_leave slot g
  have hheld := b.held_leave slot g
  rw [← hperform] at hjournal hheld
  have honce : b.restorings (.leave slot) =
      [(g.saved, (b.perform (.leave slot)).1.chip.held)] := by
    rw [restorings_eq hjournal, hheld]
    cases g.lock <;> rfl
  constructor
  · refine ⟨honce, ?_⟩
    rw [restores_eq hjournal, honce]
    rfl
  · intro l hl
    rw [hheld, hl]
    exact h.nodup.not_mem_erase
  · intro l hl
    rw [Bool.eq_iff_iff, isHeld_iff, isHeld_iff, hheld]
    cases hlock : g.lock with
    | none => exact Iff.rfl
    | some l' =>
      refine List.mem_erase_of_ne ?_
      rintro rfl
      exact hl hlock
  · rw [hperform]
    exact live_leave live

/-! ## The values of mutexes -/

/-- The change that an operation makes through a guard of a mutex, if it does. -/
def updateThrough (b : Bench V) (m : Nat) : Op V → Option (V → V)
  | .update slot f => if (b.guard? slot).bind (·.lock) = some (.mutex m) then some f else none
  | _ => none

/-- The changes that a script makes through the guards of a mutex, in order. -/
def updatesThrough (b : Bench V) (m : Nat) : List (Op V) → List (V → V)
  | [] => []
  | op :: ops => (b.updateThrough m op).toList ++ (b.perform op).1.updatesThrough m ops

/-- **One operation** changes the value of a mutex through a guard of that mutex only. -/
theorem Does.getElem?_values (h : b.Does op b') (m : Nat) : b'.values[m]? =
    (b.values[m]?).map fun v => (b.updateThrough m op).toList.foldl (fun v f => f v) v := by
  have hkept (hvalues : b'.values = b.values) (hnone : b.updateThrough m op = none) :
      b'.values[m]? =
        (b.values[m]?).map fun v => (b.updateThrough m op).toList.foldl (fun v f => f v) v := by
    rw [hvalues, hnone]
    exact (Option.map_id' ..).symm
  have hasks {l : BenchLock} (asks : op.lock? = some l) : b.updateThrough m op = none := by
    cases op with
    | update => cases asks
    | _ => rfl
  cases h with
  | missing asks | stuck asks | fail asks | take asks => exact hkept rfl (hasks asks)
  | enter | noGuard | leave | fresh => exact hkept rfl rfl
  | setInterrupts on => cases on <;> exact hkept rfl rfl
  | notMutexGuard other => exact hkept rfl (if_neg (other m))
  | @update slot m' f guard =>
    simp only [Bench.update, updateThrough, guard, List.getElem?_modify, Option.some.injEq,
      BenchLock.mutex.injEq]
    split
    · rfl
    · cases b.values[m]? <;> rfl

/-- **After every script** the value of a mutex is what the changes through its guards have made of
it. -/
theorem getElem?_values_after (b : Bench V) (ops : List (Op V)) (m : Nat) :
    (b.after ops).values[m]? =
      (b.values[m]?).map fun v => (b.updatesThrough m ops).foldl (fun v f => f v) v := by
  induction ops generalizing b with
  | nil => exact (Option.map_id' ..).symm
  | cons op ops ih =>
    rw [after_cons, ih, (b.does_perform op).getElem?_values, Option.map_map]
    simp only [updatesThrough, List.foldl_append]
    rfl

/-- No flag is set, and no guard was taken yet. The number of flags, the values of the mutexes and
the interrupt flag are left open. -/
structure Blank (b : Bench V) : Prop where
  /-- no flag is set -/
  held : b.chip.held = []
  /-- no guard was taken yet -/
  guards : b.guards = []

theorem Blank.live (h : b.Blank) : b.live = [] := by
  rw [Bench.live, h.guards]
  rfl

theorem Blank.accounts (h : b.Blank) : b.Accounts := by
  constructor
  · rw [h.held]
    exact List.nodup_nil
  · intro l
    rw [guardsOn, h.live, h.held]
    rfl

end Bench

/-- **Guards account for locks, in whatever order they are given back.** Take a blank bench with any
flags and mutexes, and carry out any script on it. A flag is set if and only if a live guard holds
it, and then exactly one does. To enter a section, and to lock or try a lock whose flag is clear,
masks interrupts, sets the flag, and yields a guard. A try of any lock comes to what it should: it
succeeds if and only if the flag is clear, and if it fails it leaves all flags, all values and the
interrupt flag as they were and puts the interrupt flag back once. Every live guard remembers the
interrupt flag of the point at which it was taken; to give it back puts that flag back once, with
the flag of its own lock clear at that moment. And the value of every mutex is the first one changed
by exactly what was done through its own guards, in order. -/
theorem guards_account_for_locks {b : Bench V} (blank : b.Blank) (ops : List (Bench.Op V)) :
    (∀ l, (b.after ops).guardsOn l = if (b.after ops).isHeld l then 1 else 0) ∧
    ((b.after ops).Enters .enter none ∧
      ∀ (op : Bench.Op V) l, op.lock? = some l → l ∈ b.locks → (b.after ops).isHeld l = false →
        (b.after ops).Enters op (some l)) ∧
    (∀ (op : Bench.Op V) l, op.isTry = true → op.lock? = some l → l ∈ b.locks →
      (b.after ops).Tries op l) ∧
    (∀ slot g, (b.after ops).guard? slot = some g →
      (∃ (i : Nat) (op : Bench.Op V), ops[i]? = some op ∧
        (b.after (ops.take i)).guards.length = slot ∧
        g = ⟨(b.after (ops.take i)).chip.interrupts, op.lock?⟩) ∧
      (b.after ops).GivesBack slot g) ∧
    ∀ m : Nat, (b.after ops).values[m]? =
      (b.values[m]?).map fun v => (b.updatesThrough m ops).foldl (fun v f => f v) v := by
  have haccounts := blank.accounts.after ops
  refine ⟨haccounts.guardsOn_eq, ⟨Bench.enters_enter _, ?_⟩, ?_, ?_, b.getElem?_values_after ops⟩
  · intro op l asks found clear
    rw [← b.locks_after ops] at found
    exact Bench.enters_of_clear asks found clear
  · intro op l tries asks found
    rw [← b.locks_after ops] at found
    exact Bench.tries_of_try tries asks found
  · intro slot g live
    have hstart : b.guard? slot ≠ some g := by
      rw [Bench.guard?, blank.guards]
      nofun
    exact ⟨(Bench.guard?_after_cases live).resolve_left hstart, haccounts.givesBack live⟩

/-- A processor section is entered, a mutex locked and its value changed, and a spin section
entered; then the first two guards are given back. -/
def crossingGuards : List Bench.Op :=
  [.enter, .mutex 0, .add 1 5, .spin 0, .leave 0, .add 1 2, .leave 1]

/-- The guard of the spin section is live, and to try its lock fails and changes nothing. It has
found interrupts masked, and masks them when it is given back. The mutex holds the sum. -/
theorem crossing_guards_account :
    ((Bench.new 1 1).after crossingGuards).guardsOn (.flag 0) = 1 ∧
    (((Bench.new 1 1).after crossingGuards).perform (.trySpin 0)).2 = .truth false ∧
    ((Bench.new 1 1).after crossingGuards).restorings (.leave 2) = [(false, [])] ∧
    ((Bench.new 1 1).after crossingGuards).values[0]? = some 7 := by
  obtain ⟨hflags, -, htries, hguards, hvalues⟩ :=
    guards_account_for_locks (b := Bench.new 1 1) ⟨rfl, rfl⟩ crossingGuards
  have hset : ((Bench.new 1 1).after crossingGuards).isHeld (.flag 0) = true := by decide
  have hlive : ((Bench.new 1 1).after crossingGuards).guard? 2 = some ⟨false, some (.flag 0)⟩ := by
    decide
  refine ⟨?_, ?_, ?_, ?_⟩
  · rw [hflags, hset]
    rfl
  · rw [(htries (.trySpin 0) (.flag 0) rfl rfl (by decide)).answer, hset]
    rfl
  · exact (hguards 2 _ hlive).2.restored.1
  · rw [hvalues]
    rfl

end Nucleus
