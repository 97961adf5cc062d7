import Nucleus.Machine

/-!
# Calls in segments

A call runs in *segments*. A segment begins at a machine and ends where the call rests: it has
returned, or client code has control, or, if it is told to pause, the first window is open. What
is left of a call that rests short of its end is again a call, from whatever machine it finds.

* `Run.Rests` is the relation between a call and the points at which its next segment can end;
  nothing comes in between within a segment. A call that halts rests nowhere.
* `Run.rests_bind` takes segments of composed calls apart, and the equations below it do so for
  the primitive calls.
* `Run.Guarantees R` says that every segment of the call takes the machine along `R`.
-/

namespace Nucleus

variable {G : Guest} {α β : Type}

namespace Run

/-- The next segment of a call ends at a machine, with an answer or with the rest of the call.
Only a call that is `pausing` ends a segment at a window. -/
inductive Rests (pausing : Bool) : Run G α → Machine G → α ⊕ Call G α → Prop where
  /-- it has returned -/
  | done (m : Machine G) (a : α) : Rests pausing (done m a) m (.inl a)
  /-- nobody comes in at the window -/
  | pass {m n : Machine G} {w : Window} {resume : Machine G → Run G α} {r : α ⊕ Call G α}
    (whole : pausing = false) (next : Rests pausing (resume m) n r) :
    Rests pausing (window m w resume) n r
  /-- it stands at the window -/
  | pause {m : Machine G} {w : Window} {resume : Machine G → Run G α}
    (pauses : pausing = true) : Rests pausing (window m w resume) m (.inr resume)
  /-- a routine has control, and will answer `c'` -/
  | interrupt {m : Machine G} {home : CoreId} {code : G.Routine} {c : Context}
    {resume : Machine G → Context → Run G α} (c' : Context) :
    Rests pausing (interrupt m home code c resume) m (.inr fun m' => resume m' c')
  /-- a thread body has control, and will end with `o` -/
  | enter {m : Machine G} {code : G.Entry} {a : UInt64}
    {resume : Machine G → Outcome Unit → Run G α} (o : Outcome Unit) :
    Rests pausing (enter m code a resume) m (.inr fun m' => resume m' o)

variable {p : Bool} {m n : Machine G} {r : α ⊕ Call G α}

@[simp] theorem rests_done {a : α} : (done m a).Rests p n r ↔ n = m ∧ r = .inl a := by
  constructor
  · rintro ⟨⟩
    exact ⟨rfl, rfl⟩
  · rintro ⟨rfl, rfl⟩
    exact .done _ _

@[simp] theorem rests_halt {why : Halt} : (halt m why : Run G α).Rests p n r ↔ False := by
  constructor
  · rintro ⟨⟩
  · exact False.elim

@[simp] theorem rests_window {w : Window} {resume : Machine G → Run G α} :
    (window m w resume).Rests false n r ↔ (resume m).Rests false n r := by
  constructor
  · intro h
    cases h with
    | pass _ next => exact next
    | pause pauses => cases pauses
  · exact .pass rfl

@[simp] theorem rests_window_pausing {w : Window} {resume : Machine G → Run G α} :
    (window m w resume).Rests true n r ↔ n = m ∧ r = .inr resume := by
  constructor
  · intro h
    cases h with
    | pass whole _ => cases whole
    | pause _ => exact ⟨rfl, rfl⟩
  · rintro ⟨rfl, rfl⟩
    exact .pause rfl

@[simp] theorem rests_interrupt {home : CoreId} {code : G.Routine} {c : Context}
    {resume : Machine G → Context → Run G α} :
    (interrupt m home code c resume).Rests p n r ↔
      n = m ∧ ∃ c', r = .inr fun m' => resume m' c' := by
  constructor
  · intro h
    cases h with
    | interrupt c' => exact ⟨rfl, c', rfl⟩
  · rintro ⟨rfl, c', rfl⟩
    exact .interrupt c'

@[simp] theorem rests_enter {code : G.Entry} {a : UInt64}
    {resume : Machine G → Outcome Unit → Run G α} :
    (enter m code a resume).Rests p n r ↔ n = m ∧ ∃ o, r = .inr fun m' => resume m' o := by
  constructor
  · intro h
    cases h with
    | enter o => exact ⟨rfl, o, rfl⟩
  · rintro ⟨rfl, o, rfl⟩
    exact .enter o

/-- **Segments of a composed call.** A segment either ends in the first part, which then has the
second part still before it, or goes through the first part into the second. -/
theorem rests_bind {x : Run G α} {f : α → Machine G → Run G β} {r : β ⊕ Call G β} :
    (x.bind f).Rests p n r ↔
      (∃ m a, x.Rests p m (.inl a) ∧ (f a m).Rests p n r) ∨
      (∃ rest, x.Rests p n (.inr rest) ∧ r = .inr fun m => (rest m).bind f) := by
  induction x with
  | done m a =>
    constructor
    · exact fun h => .inl ⟨m, a, .done m a, h⟩
    · rintro (⟨m', a', hx, hf⟩ | ⟨rest, hx, -⟩) <;> cases hx
      exact hf
  | halt m why =>
    constructor
    · exact fun h => (rests_halt.mp h).elim
    · rintro (⟨m', a', hx, -⟩ | ⟨rest, hx, -⟩) <;> cases hx
  | window m w resume ih =>
    cases p with
    | false => simp only [window_bind, rests_window, ih]
    | true =>
      -- a call that pauses stops here, with the rest of the first part and all of the second left
      constructor
      · intro h
        obtain ⟨rfl, rfl⟩ := rests_window_pausing.mp h
        exact .inr ⟨resume, .pause rfl, rfl⟩
      · rintro (⟨m', a', hx, -⟩ | ⟨rest, hx, rfl⟩)
        · exact nomatch (rests_window_pausing.mp hx).2
        · obtain ⟨rfl, hrest⟩ := rests_window_pausing.mp hx
          obtain rfl := Sum.inr.inj hrest
          exact .pause rfl
  | interrupt m home code c resume ih =>
    constructor
    · intro h
      obtain ⟨rfl, c', rfl⟩ := rests_interrupt.mp h
      exact .inr ⟨_, .interrupt c', rfl⟩
    · rintro (⟨m', a', hx, -⟩ | ⟨rest, hx, rfl⟩) <;> cases hx
      exact .interrupt _
  | enter m code a resume ih =>
    constructor
    · intro h
      obtain ⟨rfl, o, rfl⟩ := rests_enter.mp h
      exact .inr ⟨_, .enter o, rfl⟩
    · rintro (⟨m', a', hx, -⟩ | ⟨rest, hx, rfl⟩) <;> cases hx
      exact .enter _

/-! ## Calls that return by themselves -/

/-- Where a call returns with nobody coming in between, if it runs no client code. -/
def ending? : Run G α → Option (Machine G × α)
  | done m a => some (m, a)
  | window m _ resume => (resume m).ending?
  | _ => none

theorem rests_of_ending? {x : Run G α} {a : α} (h : x.ending? = some (n, a)) :
    x.Rests false n (.inl a) := by
  induction x with
  | done m b =>
    cases h
    exact .done _ _
  | window m w resume ih => exact .pass rfl (ih m h)
  | halt | interrupt | enter => cases h

/-- Why a call by itself stops for good, if it does before it runs client code. -/
def stop? : Run G α → Option Halt
  | halt _ why => some why
  | window m _ resume => (resume m).stop?
  | _ => none

/-- By itself a call returns, or it stops for good, or it comes to client code. -/
theorem ending?_or_stop? (x : Run G α) :
    (∃ n a, x.ending? = some (n, a)) ∨ (∃ why, x.stop? = some why) ∨
      ∃ n rest, x.Rests false n (.inr rest) := by
  induction x with
  | done m a => exact .inl ⟨m, a, rfl⟩
  | halt m why => exact .inr (.inl ⟨why, rfl⟩)
  | window m w resume ih =>
    rcases ih m with h | h | ⟨n, rest, h⟩
    · exact .inl h
    · exact .inr (.inl h)
    · exact .inr (.inr ⟨n, rest, .pass rfl h⟩)
  | interrupt m home code c resume _ => exact .inr (.inr ⟨m, _, .interrupt c⟩)
  | enter m code a resume _ => exact .inr (.inr ⟨m, _, .enter (.ok ())⟩)

/-! ## What the segments of a call guarantee -/

/-- Every segment of the call, the present one from `m₀` on, relates the machine at which it begins
to the machine at which it ends by `R`. Between two segments the machine may become any other.
Windows are passed through. -/
def Guarantees (R : Machine G → Machine G → Prop) (m₀ : Machine G) : Run G α → Prop
  | done m _ => R m₀ m
  | halt _ _ => True
  | window m _ resume => (resume m).Guarantees R m₀
  | interrupt m _ _ _ resume => R m₀ m ∧ ∀ m' c, (resume m' c).Guarantees R m'
  | enter m _ _ resume => R m₀ m ∧ ∀ m' o, (resume m' o).Guarantees R m'

variable {R : Machine G → Machine G → Prop} {m₀ : Machine G}

/-- A segment has what the call guarantees, and so have the segments that are left. -/
theorem Guarantees.rests {x : Run G α} (hx : x.Guarantees R m₀) (h : x.Rests false n r) :
    R m₀ n ∧ ∀ rest, r = .inr rest → ∀ m, (rest m).Guarantees R m := by
  induction x with
  | done m a =>
    obtain ⟨rfl, rfl⟩ := rests_done.mp h
    exact ⟨hx, nofun⟩
  | halt m why => exact (rests_halt.mp h).elim
  | window m w resume ih => exact ih m hx (rests_window.mp h)
  | interrupt m home code c resume ih =>
    obtain ⟨rfl, c', rfl⟩ := rests_interrupt.mp h
    refine ⟨hx.1, fun rest hrest m' => ?_⟩
    obtain rfl := Sum.inr.inj hrest
    exact hx.2 m' c'
  | enter m code a resume ih =>
    obtain ⟨rfl, o, rfl⟩ := rests_enter.mp h
    refine ⟨hx.1, fun rest hrest m' => ?_⟩
    obtain rfl := Sum.inr.inj hrest
    exact hx.2 m' o

/-- A call that runs no client code has one segment only. -/
theorem guarantees_of_rests {x : Run G α}
    (h : ∀ n r, x.Rests false n r → R m₀ n ∧ ∃ a, r = .inl a) : x.Guarantees R m₀ := by
  induction x with
  | done m a => exact (h m _ (.done m a)).1
  | halt m why => trivial
  | window m w resume ih => exact ih m fun n r hr => h n r (.pass rfl hr)
  | interrupt m home code c resume ih =>
    obtain ⟨-, a, ha⟩ := h m _ (.interrupt c)
    cases ha
  | enter m code a resume ih =>
    obtain ⟨-, b, hb⟩ := h m _ (.enter (.ok ()))
    cases hb

/-- A segment may begin earlier. -/
theorem Guarantees.of_step (trans : ∀ a b c, R a b → R b c → R a c) {x : Run G α}
    (hm : R m₀ m) (hx : x.Guarantees R m) : x.Guarantees R m₀ := by
  induction x with
  | done m' a => exact trans _ _ _ hm hx
  | halt m' why => trivial
  | window m' w resume ih => exact ih m' hx
  | interrupt m' home code c resume ih => exact ⟨trans _ _ _ hm hx.1, hx.2⟩
  | enter m' code a resume ih => exact ⟨trans _ _ _ hm hx.1, hx.2⟩

/-- One call after the other. -/
theorem Guarantees.bind (trans : ∀ a b c, R a b → R b c → R a c) {x : Run G α}
    {f : α → Machine G → Run G β} (hx : x.Guarantees R m₀)
    (hf : ∀ a m, (f a m).Guarantees R m) : (x.bind f).Guarantees R m₀ := by
  induction x generalizing m₀ with
  | done m a =>
    have hm : R m₀ m := hx
    exact (hf a m).of_step trans hm
  | halt m why => trivial
  | window m w resume ih => exact ih m hx
  | interrupt m home code c resume ih => exact ⟨hx.1, fun m' c' => ih m' c' (hx.2 m' c')⟩
  | enter m code a resume ih => exact ⟨hx.1, fun m' o => ih m' o (hx.2 m' o)⟩

end Run

end Nucleus
