import Nucleus.Proofs.Resolution
import Nucleus.Proofs.Attachment

/-!
# The rights of accessors

Whoever opens an object gets rights on it, and they are never more than was asked for, nor more than
exist on the object. `AccessState` folds them over the objects that a path comes by, and a right
goes through three conditions there: it is wanted until an object allows it, then it is granted for
as long as the next objects allow it, and once one of them does not, it is lost.

* `has_visit` follows one right through a whole walk. A known right is lost just if an object on the
  way allows it and a later one does not. Directories all allow the same, so nothing is lost among
  them. A bit that is no known right is not wanted any more after the first object.
* `final_grant_iff_nothing_lost` says what a walk past any objects grants in the end.
* `System.Holding` is a run in which clients come by accessors in every way there is, and
  `Holding.within` is what all these accessors have in common.
-/

namespace Nucleus

variable {G : Guest}

/-! ## Masks, right by right -/

namespace AccessMask

variable {a b c : AccessMask} {i : Nat}

/-- The mask has the right in place `i`. -/
def Has (a : AccessMask) (i : Nat) : Prop := a.bits.getLsbD i = true

@[simp] theorem has_inter : (a.inter b).Has i ↔ a.Has i ∧ b.Has i := by
  simp [Has, inter]

@[simp] theorem has_union : (a.union b).Has i ↔ a.Has i ∨ b.Has i := by
  simp [Has, union]

@[simp] theorem not_has_none : ¬ none.Has i := by
  simp [Has, none, ofNat]

/-- The complement has the known rights only. -/
@[simp] theorem has_compl : a.compl.Has i ↔ ¬ a.Has i ∧ all.Has i := by
  simp only [Has, compl, BitVec.getLsbD_and, BitVec.getLsbD_not, Bool.and_eq_true,
    decide_eq_true_eq, Bool.not_eq_true']
  constructor
  · rintro ⟨⟨-, ha⟩, hall⟩
    exact ⟨by simp [ha], hall⟩
  · rintro ⟨ha, hall⟩
    exact ⟨⟨BitVec.lt_of_getLsbD hall, by simpa using ha⟩, hall⟩

theorem ext_has (h : ∀ i, a.Has i ↔ b.Has i) : a = b := by
  obtain ⟨a⟩ := a
  obtain ⟨b⟩ := b
  congr 1
  exact BitVec.eq_of_getLsbD_eq fun i _ => Bool.eq_iff_iff.mpr (h i)

theorem subset_iff : a.Subset b ↔ ∀ i, a.Has i → b.Has i := by
  constructor
  · intro h i ha
    rw [Subset] at h
    rw [← h, has_inter] at ha
    exact ha.2
  · intro h
    refine ext_has fun i => ?_
    rw [has_inter]
    exact ⟨And.left, fun ha => ⟨ha, h i ha⟩⟩

theorem Subset.trans (h : a.Subset b) (h' : b.Subset c) : a.Subset c :=
  subset_iff.mpr fun i hi => subset_iff.mp h' i (subset_iff.mp h i hi)

theorem none_subset : none.Subset a := subset_iff.mpr fun _ h => absurd h not_has_none

end AccessMask

/-! ## What becomes of a right -/

namespace AccessState

variable {s : AccessState} {desired u v : AccessMask} {us : List AccessMask} {i : Nat}

theorem has_granted_step : (s.step v).granted.Has i ↔
    (s.remaining.Has i ∨ s.granted.Has i) ∧ v.Has i := by
  simp [step]

theorem has_remaining_step : (s.step v).remaining.Has i ↔
    s.remaining.Has i ∧ ¬ (s.step v).granted.Has i ∧ AccessMask.all.Has i := by
  simp [step]

/-- Neither wanted nor granted is what was not asked for. -/
theorem has_of_visit (us : List AccessMask)
    (h : (s.visit us).remaining.Has i ∨ (s.visit us).granted.Has i) :
    s.remaining.Has i ∨ s.granted.Has i := by
  induction us generalizing s with
  | nil => exact h
  | cons u us ih =>
    rcases ih h with h | h
    · exact .inl (has_remaining_step.mp h).1
    · exact (has_granted_step.mp h).1

/-- **What becomes of a known right** that is either wanted or granted. It is so still after the
next objects, if none of them refuses it once it is granted. -/
theorem has_visit (known : AccessMask.all.Has i)
    (apart : ¬ (s.remaining.Has i ∧ s.granted.Has i)) (us : List AccessMask) :
    ((s.visit us).remaining.Has i ∨ (s.visit us).granted.Has i) ↔
      (s.remaining.Has i ∨ s.granted.Has i) ∧ us.Pairwise (fun u w => u.Has i → w.Has i) ∧
        (s.granted.Has i → ∀ w ∈ us, w.Has i) := by
  induction us generalizing s with
  | nil => simp [visit]
  | cons u us ih =>
    have hgranted := has_granted_step (s := s) (v := u) (i := i)
    have hremaining := has_remaining_step (s := s) (v := u) (i := i)
    have hnext := ih (s := s.step u) fun h => (hremaining.mp h.1).2.1 h.2
    rw [List.pairwise_cons, List.forall_mem_cons]
    refine hnext.trans ?_
    -- wanted, granted or neither, and allowed by the first object or not
    by_cases hr : s.remaining.Has i <;> by_cases hg : s.granted.Has i <;>
      by_cases hu : u.Has i <;> simp_all [and_comm]

theorem has_granted_visit (us : List AccessMask) (v : AccessMask) :
    (s.visit (us ++ [v])).granted.Has i ↔
      ((s.visit us).remaining.Has i ∨ (s.visit us).granted.Has i) ∧ v.Has i := by
  rw [visit, List.foldl_append]
  exact has_granted_step

/-- **Never more than was asked for and exists on the last object**, whatever bits are asked for. -/
theorem granted_subset (desired : AccessMask) (us : List AccessMask) (v : AccessMask) :
    ((new desired).visit (us ++ [v])).granted.Subset (desired.inter v) := by
  refine AccessMask.subset_iff.mpr fun i hi => ?_
  obtain ⟨hwanted, hv⟩ := (has_granted_visit us v).mp hi
  rcases has_of_visit us hwanted with h | h
  · exact AccessMask.has_inter.mpr ⟨h, hv⟩
  · exact absurd h AccessMask.not_has_none

/-- **Which rights are granted in the end**, if only known rights are asked for: those that the last
object allows, and that no object on the way refuses after another has allowed them. -/
theorem has_granted_iff (hdesired : desired.Subset .all) (us : List AccessMask) (v : AccessMask) :
    ((new desired).visit (us ++ [v])).granted.Has i ↔
      desired.Has i ∧ v.Has i ∧ us.Pairwise fun u w => u.Has i → w.Has i := by
  constructor
  · intro h
    obtain ⟨hd, hv⟩ := AccessMask.has_inter.mp (AccessMask.subset_iff.mp (granted_subset ..) i h)
    have known := AccessMask.subset_iff.mp hdesired i hd
    rw [has_granted_visit, has_visit known (by simp [new])] at h
    exact ⟨hd, hv, h.1.2.1⟩
  · rintro ⟨hd, hv, hpairs⟩
    have known := AccessMask.subset_iff.mp hdesired i hd
    rw [has_granted_visit, has_visit known (by simp [new])]
    exact ⟨⟨.inl hd, hpairs, fun h => absurd h AccessMask.not_has_none⟩, hv⟩

/-- **Nothing less, if nothing is lost on the way.** -/
theorem granted_eq_iff (hdesired : desired.Subset .all) (us : List AccessMask) (v : AccessMask) :
    ((new desired).visit (us ++ [v])).granted = desired.inter v ↔
      us.Pairwise fun u w => ((desired.inter v).inter u).Subset w := by
  constructor
  · intro heq
    rw [List.pairwise_iff_forall_sublist]
    intro u w hsub
    refine AccessMask.subset_iff.mpr fun i hi => ?_
    obtain ⟨hi, hu⟩ := AccessMask.has_inter.mp hi
    obtain ⟨-, -, hpairs⟩ := (has_granted_iff hdesired us v).mp (heq ▸ hi)
    exact List.pairwise_iff_forall_sublist.mp hpairs hsub hu
  · intro hpairs
    refine AccessMask.ext_has fun i =>
      ⟨AccessMask.subset_iff.mp (granted_subset ..) i, fun hi => ?_⟩
    obtain ⟨hd, hv⟩ := AccessMask.has_inter.mp hi
    refine (has_granted_iff hdesired us v).mpr ⟨hd, hv, hpairs.imp fun h hu => ?_⟩
    exact AccessMask.subset_iff.mp h i (AccessMask.has_inter.mpr ⟨hi, hu⟩)

/-- **The last object decides**, if all objects before it have the same rights. -/
theorem granted_visit_append (hdesired : desired.Subset .all) (us : List AccessMask)
    (hus : ∀ w ∈ us, w = u) (v : AccessMask) :
    ((new desired).visit (us ++ [v])).granted = desired.inter v := by
  refine (granted_eq_iff hdesired us v).mpr (List.pairwise_of_forall_mem_list fun w hw w' hw' => ?_)
  rw [hus w hw, hus w' hw']
  exact AccessMask.subset_iff.mpr fun i hi => (AccessMask.has_inter.mp hi).2

/-- The right is lost on the way past these objects: one of them allows it, and a later one, which
is not the last, does not. -/
def Loses (valids : List AccessMask) (i : Nat) : Prop :=
  ∃ u w, [u, w].Sublist valids.dropLast ∧ u.Has i ∧ ¬ w.Has i

theorem not_loses_iff {valids : List AccessMask} :
    ¬ Loses valids i ↔ valids.dropLast.Pairwise fun u w => u.Has i → w.Has i := by
  rw [List.pairwise_iff_forall_sublist]
  constructor
  · intro h u w hsub hu
    exact Classical.byContradiction fun hw => h ⟨u, w, hsub, hu, hw⟩
  · rintro h ⟨u, w, hsub, hu, hw⟩
    exact hw (h hsub hu)

end AccessState

/-- **What is granted in the end.** Ask for known rights, and visit any objects, at least one. The
rights that are granted are just those asked for that the last object allows and that are not lost
on the way. So the last object alone decides if and only if no right that was asked for and that it
allows is lost: allowed by an object before it, and refused by another between the two. -/
theorem final_grant_iff_nothing_lost {desired : AccessMask} {valids : List AccessMask}
    (known : desired.Subset .all) (visited : valids ≠ []) :
    (∀ i, ((AccessState.new desired).visit valids).granted.Has i ↔
      desired.Has i ∧ (valids.getLast visited).Has i ∧ ¬ AccessState.Loses valids i) ∧
    (((AccessState.new desired).visit valids).granted = desired.inter (valids.getLast visited) ↔
      ∀ i, desired.Has i → (valids.getLast visited).Has i → ¬ AccessState.Loses valids i) := by
  have hgranted (i : Nat) : ((AccessState.new desired).visit valids).granted.Has i ↔
      desired.Has i ∧ (valids.getLast visited).Has i ∧ ¬ AccessState.Loses valids i := by
    rw [AccessState.not_loses_iff, ← AccessState.has_granted_iff known,
      List.dropLast_concat_getLast visited]
  refine ⟨hgranted, fun heq i hd hv => ?_, fun hkept => AccessMask.ext_has fun i => ?_⟩
  · have hi : ((AccessState.new desired).visit valids).granted.Has i :=
      heq ▸ AccessMask.has_inter.mpr ⟨hd, hv⟩
    exact ((hgranted i).mp hi).2.2
  · rw [hgranted i, AccessMask.has_inter]
    constructor
    · rintro ⟨hd, hv, -⟩
      exact ⟨hd, hv⟩
    · rintro ⟨hd, hv⟩
      exact ⟨hd, hv, hkept i hd hv⟩

/-- Every known right is asked for, and each object allows more than the one before: what the first
two refuse is granted by the last. -/
theorem all_granted_past_restrictions : AccessMask.all.Subset .all ∧
    ((AccessState.new .all).visit [.none, .read, .readWrite, .all]).granted =
      AccessMask.all.inter .all := by
  have hlist : [AccessMask.none, .read, .readWrite, .all] ≠ [] := List.cons_ne_nil _ _
  have hknown : AccessMask.all.Subset .all := rfl
  refine ⟨hknown, (final_grant_iff_nothing_lost hknown hlist).2.mpr ?_⟩
  intro i _ _
  rw [AccessState.not_loses_iff]
  have hgrow : ([.none, .read, .readWrite] : List AccessMask).Pairwise AccessMask.Subset := by
    decide
  exact hgrow.imp fun h => AccessMask.subset_iff.mp h i

/-- Reading is asked for. The first object allows it, the second does not, and the last does again,
but it is not granted any more. -/
theorem right_refused_in_between_is_lost : AccessMask.read.Subset .all ∧
    ((AccessState.new .read).visit [.read, .none, .read]).granted = .none ∧
    ((AccessState.new .read).visit [.read, .none, .read]).granted ≠
      AccessMask.read.inter .read := by
  decide

/-! ## Opening -/

namespace Namespace

variable {ns ns' : Namespace} {start x : ObjectId} {path : String} {desired : AccessMask}
  {st : AccessState} {a : Accessor}

/-- The objects that a path comes by on its way from an object, of which `s` is what is left without
a separator at its start, and the object that it leads to. The empty path comes by nothing. -/
inductive ComesBy (ns : Namespace) (start : ObjectId) (s : List Char) :
    List ObjectId → ObjectId → Prop where
  /-- the empty path -/
  | self (empty : s = []) : ComesBy ns start s [] start
  /-- every segment leads to an object -/
  | chain {ys : List ObjectId} {x : ObjectId} (nonempty : s ≠ [])
    (chain : ns.Chain start ((s.splitOn '/').map String.ofList) (ys ++ [x])) :
    ComesBy ns start s ys x

/-- A path that is resolved comes by objects, and folds their rights and those of the last. -/
theorem exists_comesBy (h : ns.resolve start path desired = .ok (x, st)) :
    ∃ ys, ns.ComesBy start (Path.relative path.toList) ys x ∧
      st = (AccessState.new desired).visit (ys.map ns.valid ++ [ns.valid x]) := by
  obtain ⟨r, hr⟩ := ns.exists_resolution start (Path.relative path.toList) desired
  rw [hr.resolve_eq] at h
  cases hr with
  | closed => cases h
  | lost => cases h
  | self _ empty =>
    cases h
    exact ⟨[], .self empty, rfl⟩
  | @found ys _ nonempty chain =>
    -- a path that is not empty has segments, and their chain has a last object
    have hys : ys ≠ [] := by
      rintro rfl
      generalize hgs : (List.splitOn '/' _).map String.ofList = gs at chain
      cases chain
      simp [← Path.cut_eq_splitOn, Path.cut_ne_nil] at hgs
    obtain ⟨ys, y, rfl⟩ := (List.eq_nil_or_concat ys).resolve_left hys
    rw [List.concat_eq_append] at chain h
    simp only [List.getLastD_concat, Except.ok.injEq, Prod.mk.injEq] at h
    obtain ⟨rfl, rfl⟩ := h
    exact ⟨ys, .chain nonempty chain, by simp⟩

/-- The accessor is what opening a path from an object gives, in one of the three ways. -/
inductive Opened (ns : Namespace) : ObjectId → String → AccessMask → Accessor → Prop where
  /-- from any object -/
  | start {start : ObjectId} {kind : ObjectKind} {path : String} {desired : AccessMask}
    {a : Accessor} (h : ns.openFrom start kind path desired = .ok a) :
    Opened ns start path desired a
  /-- from a parent directory -/
  | parent {parent : Parent} {kind : ObjectKind} {path : String} {desired : AccessMask}
    {a : Accessor} (h : ns.openAt parent kind path desired = .ok a) :
    Opened ns (.directory parent.directory) path desired a
  /-- from a parent directory, if it is there -/
  | tried {parent : Parent} {kind : ObjectKind} {path : String} {desired : AccessMask}
    {a : Accessor} (h : ns.tryOpen parent kind path desired = .ok (some a)) :
    Opened ns (.directory parent.directory) path desired a

theorem resolve_of_openFrom {kind : ObjectKind} (h : ns.openFrom start kind path desired = .ok a) :
    ∃ st, ns.resolve start path desired = .ok (a.object, st) ∧ a.granted = st.granted := by
  rw [openFrom] at h
  split at h
  next => cases h
  next x st hresolve =>
    split at h
    · cases h
      exact ⟨st, hresolve, rfl⟩
    · cases h

theorem openAt_of_tryOpen {parent : Parent} {kind : ObjectKind}
    (h : ns.tryOpen parent kind path desired = .ok (some a)) :
    ns.openAt parent kind path desired = .ok a := by
  rw [tryOpen] at h
  split at h
  next a' hopen =>
    cases h
    exact hopen
  next => cases h
  next => cases h

/-- All three ways resolve the path. -/
theorem Opened.resolve (h : ns.Opened start path desired a) :
    ∃ st, ns.resolve start path desired = .ok (a.object, st) ∧ a.granted = st.granted := by
  cases h with
  | start h => exact resolve_of_openFrom h
  | parent h => exact resolve_of_openFrom h
  | tried h => exact resolve_of_openFrom (openAt_of_tryOpen h)

/-- **What opening grants.** Of the rights asked for, no more than exist on the object. If only
known rights were asked for, it is just these, unless one of them is lost on the way: allowed by an
object that the path comes by, and not by a later one. Among directories none is. -/
theorem Opened.granted (h : ns.Opened start path desired a) :
    ∃ ys, ns.ComesBy start (Path.relative path.toList) ys a.object ∧
      a.granted.Subset (desired.inter (ns.valid a.object)) ∧
      (desired.Subset .all →
        ((∀ y ∈ ys, y.kind = .directory) → a.granted = desired.inter (ns.valid a.object)) ∧
        (a.granted = desired.inter (ns.valid a.object) ↔ ys.Pairwise fun y z =>
          ((desired.inter (ns.valid a.object)).inter (ns.valid y)).Subset (ns.valid z))) := by
  obtain ⟨st, hresolve, hgranted⟩ := h.resolve
  obtain ⟨ys, hys, rfl⟩ := exists_comesBy hresolve
  rw [hgranted]
  refine ⟨ys, hys, AccessState.granted_subset .., fun hdesired => ⟨fun hdirs => ?_, ?_⟩⟩
  · refine AccessState.granted_visit_append (u := .readWrite) hdesired _ (fun w hw => ?_) _
    obtain ⟨y, hy, rfl⟩ := List.mem_map.mp hw
    have hkind := hdirs y hy
    cases y with
    | directory => rfl
    | event => cases hkind
    | thread => cases hkind
    | device => cases hkind
  · rw [AccessState.granted_eq_iff hdesired, List.pairwise_map]

/-! ## Holding accessors -/

/-- The accessor does not exceed the rights that exist on its object. -/
def Within (ns : Namespace) (a : Accessor) : Prop := a.granted.Subset (ns.valid a.object)

instance (ns : Namespace) (a : Accessor) : Decidable (ns.Within a) :=
  inferInstanceAs (Decidable (a.granted.Subset _))

/-- What is made later takes no right away: the rights on an object are what they were, or the
object was not there. -/
theorem Makes.valid_subset (h : ns.Makes ns') (x : ObjectId) :
    (ns.valid x).Subset (ns'.valid x) := by
  have hrefl : (ns.valid x).Subset (ns.valid x) := AccessMask.subset_iff.mpr fun _ h => h
  cases h with
  | nothing => exact hrefl
  | directory => cases x <;> exact hrefl
  | device dev =>
    cases x with
    | directory | event | thread => exact hrefl
    | device i =>
      by_cases hi : i < ns.devices.length
      · have : (ns.newDevice dev).1.valid (.device i) = ns.valid (.device i) := by
          simp only [valid, newDevice, List.getElem?_append_left hi]
        rwa [this]
      · have : ns.valid (.device i) = .none := by simp [valid, hi]
        rw [this]
        exact AccessMask.none_subset

@[simp] theorem valid_attach (ns : Namespace) (y : ObjectId) (l : Link) (x : ObjectId) :
    (ns.attach y l).valid x = ns.valid x := by
  cases x <;> rfl

theorem Step.within {creation : Option (Link × Outcome Accessor)} (h : ns.Step creation ns')
    (ha : ns.Within a) : ns'.Within a := by
  cases h with
  | make made => exact ha.trans (made.valid_subset _)
  | refuse made cause => exact ha.trans (made.valid_subset _)
  | attach made name free unnamed =>
    rw [Within, valid_attach]
    exact ha.trans (made.valid_subset _)

/-- The ways to come by an accessor without changing a name, with some others in hand. -/
inductive Obtains (ns : Namespace) (held : List Accessor) : Accessor → Prop where
  /-- the root -/
  | root : Obtains ns held rootAccessor
  /-- opening a path -/
  | opened {start : ObjectId} {path : String} {desired : AccessMask} {a : Accessor}
    (h : ns.Opened start path desired a) : Obtains ns held a
  /-- a copy, also one that is not tied to the kind of its object any more -/
  | copied {a : Accessor} (h : a ∈ held) : Obtains ns held a
  /-- fewer rights -/
  | narrowed {a : Accessor} (h : a ∈ held) (mask : AccessMask) : Obtains ns held (a.narrow mask)
  /-- a copy that is tied to a kind -/
  | cast {a b : Accessor} {kind : ObjectKind} (h : a ∈ held) (ok : a.cast kind = .ok b) :
    Obtains ns held b

theorem granted_narrow_subset (a : Accessor) (mask : AccessMask) :
    (a.narrow mask).granted.Subset a.granted :=
  AccessMask.subset_iff.mpr fun _ hi => (AccessMask.has_inter.mp hi).1

theorem eq_of_cast {b : Accessor} {kind : ObjectKind} (h : a.cast kind = .ok b) : b = a := by
  rw [Accessor.cast] at h
  split at h
  · cases h
    rfl
  · cases h

theorem Obtains.within {held : List Accessor} (h : ns.Obtains held a)
    (hheld : ∀ b ∈ held, ns.Within b) : ns.Within a := by
  cases h with
  | root => exact AccessMask.subset_iff.mpr fun _ h => h
  | opened h =>
    obtain ⟨ys, -, hsubset, -⟩ := h.granted
    exact hsubset.trans (AccessMask.subset_iff.mpr fun _ hi => (AccessMask.has_inter.mp hi).2)
  | copied h => exact hheld _ h
  | narrowed h mask => exact (granted_narrow_subset _ mask).trans (hheld _ h)
  | cast h ok =>
    rw [eq_of_cast ok]
    exact hheld _ h

end Namespace

namespace Segment

variable {seg : Segment G}

/-- The accessor that a segment answers with, if it is a creation that succeeds. -/
def gains (seg : Segment G) : List Accessor :=
  match seg.creation with
  | some (_, .ok a) => [a]
  | _ => []

/-- A creation answers with all rights that exist on the object. -/
theorem Sound.granted_eq (hseg : seg.Sound) {l : Link} {a : Accessor}
    (h : seg.creation = some (l, .ok a)) : a.granted = seg.after.objects.valid a.object := by
  rcases hseg.creation_cases with ⟨-, hnone⟩ | ⟨x, name, parent, k, -, -, hafter, hcreation⟩
  · rw [hnone] at h
    cases h
  · rw [hcreation] at h
    rw [hafter]
    simp only [Effect.createObject, Option.some.injEq, Prod.mk.injEq] at h ⊢
    obtain ⟨-, h⟩ := h
    split at h
    · cases h
    · cases h
      rfl

theorem Sound.within_of_mem_gains (hseg : seg.Sound) {a : Accessor} (ha : a ∈ seg.gains) :
    seg.after.objects.Within a := by
  rw [gains] at ha
  split at ha
  next l a' h =>
    cases List.mem_singleton.mp ha
    rw [Namespace.Within, hseg.granted_eq h]
    exact AccessMask.subset_iff.mpr fun _ h => h
  next => cases ha

end Segment

namespace System

variable {m : Machine G} {s₀ s s' : System G} {seg : Segment G} {history : List (Segment G)}
  {held : List Accessor} {a : Accessor}

/-- A run from a system, and all accessors that clients have come by in it. -/
inductive Holding (s₀ : System G) : List (Segment G) → System G → List Accessor → Prop where
  /-- nothing has happened -/
  | start : Holding s₀ [] s₀ []
  /-- one more segment, which may be a creation -/
  | step {history : List (Segment G)} {s s' : System G} {seg : Segment G} {held : List Accessor}
    (holding : Holding s₀ history s held) (next : Step s seg s') :
    Holding s₀ (seg :: history) s' (seg.gains ++ held)
  /-- one more accessor, without a change of any name -/
  | obtain {history : List (Segment G)} {s : System G} {held : List Accessor} {a : Accessor}
    (holding : Holding s₀ history s held) (obtains : s.machine.kernel.objects.Obtains held a) :
    Holding s₀ history s (a :: held)

theorem Holding.runs (h : Holding s₀ history s held) : Runs s₀ history s := by
  induction h with
  | start => exact .start
  | step _ next ih => exact .step ih next
  | obtain _ _ ih => exact ih

/-- Every run is one in which clients keep the accessors that creations answer with. -/
theorem Runs.holding (run : Runs s₀ history s) :
    Holding s₀ history s (history.flatMap Segment.gains) := by
  induction run with
  | start => exact .start
  | step _ next ih => exact .step ih next

/-- **No accessor ever exceeds its object.** -/
theorem Holding.within (h : Holding s₀ history s held) (h₀ : ∀ task ∈ s₀.tasks, task.Sound) :
    ∀ a ∈ held, s.machine.kernel.objects.Within a := by
  induction h with
  | start => exact List.forall_mem_nil _
  | @step history s s' seg held holding next ih =>
    have hseg := (next.sound (holding.runs.sound h₀).2).1
    obtain ⟨hbefore, hafter⟩ := next.kernels
    rw [← hafter]
    refine List.forall_mem_append.mpr ⟨fun a => hseg.within_of_mem_gains, fun a ha => ?_⟩
    exact hseg.names.within (hbefore ▸ ih a ha)
  | obtain _ obtains ih => exact List.forall_mem_cons.mpr ⟨obtains.within ih, ih⟩

end System

/-- **Rights never exceed what was asked for and what the object allows.** Take any machine, a run
from it, and the accessors that clients have come by. Whatever is opened then, from whatever object
and by whatever path, of the rights asked for no more are granted than exist on the object; and if
only known rights were asked for, these are granted, be the path as long as it may, if it comes by
directories, or else just if no right is lost among the objects that it comes by. No accessor in
hand exceeds its object; narrowing and casting keep the object, and they add no right. -/
theorem rights_within_asked_and_valid {m : Machine G} {s : System G} {history : List (Segment G)}
    {held : List Accessor} (holding : System.Holding ⟨m, []⟩ history s held) :
    (∀ start path desired a, s.machine.kernel.objects.Opened start path desired a →
      ∃ ys, s.machine.kernel.objects.ComesBy start (Path.relative path.toList) ys a.object ∧
        a.granted.Subset (desired.inter (s.machine.kernel.objects.valid a.object)) ∧
        (desired.Subset .all →
          ((∀ y ∈ ys, y.kind = .directory) →
            a.granted = desired.inter (s.machine.kernel.objects.valid a.object)) ∧
          (a.granted = desired.inter (s.machine.kernel.objects.valid a.object) ↔
            ys.Pairwise fun y z => ((desired.inter (s.machine.kernel.objects.valid a.object)).inter
              (s.machine.kernel.objects.valid y)).Subset (s.machine.kernel.objects.valid z)))) ∧
    (∀ a ∈ held, a.granted.Subset (s.machine.kernel.objects.valid a.object)) ∧
    (∀ (a : Accessor) (mask : AccessMask), (a.narrow mask).object = a.object ∧
      (a.narrow mask).granted.Subset a.granted) ∧
    ∀ (a b : Accessor) (kind : ObjectKind), a.cast kind = .ok b → b = a :=
  ⟨fun _ _ _ _ h => h.granted, holding.within System.forall_tasks_start,
    fun a mask => ⟨rfl, Namespace.granted_narrow_subset a mask⟩, fun _ _ _ => Namespace.eq_of_cast⟩

/-- An event in a directory, opened with every bit asked for, and narrowed to its first right: it
may be read. Opened with every known right asked for, it may be read and written. -/
theorem event_opened_within_its_rights : ∃ m past s a b, Machine.boot? {} {} = some m ∧
    System.play ⟨m, []⟩ eventInDirectory = some (past, s) ∧
    s.machine.kernel.objects.tryOpen Namespace.rootParent .event "/a/e" (.ofNat 0xffffffff) =
      .ok (some a) ∧
    s.machine.kernel.objects.openAt Namespace.rootParent .event "/a/e" .all = .ok b ∧
    System.Holding ⟨m, []⟩ past s (a.narrow .read :: a :: past.flatMap Segment.gains) ∧
    (∀ c ∈ a.narrow .read :: a :: past.flatMap Segment.gains,
      c.granted.Subset (s.machine.kernel.objects.valid c.object)) ∧
    (a.narrow .read).granted = .read ∧ b.granted = .readWrite ∧
    b.granted = AccessMask.all.inter (s.machine.kernel.objects.valid b.object) := by
  obtain ⟨m, past, s, later, s', hm, hfirst, hsecond, htest⟩ := System.exists_play {} {}
    eventInDirectory []
    (fun _ s _ _ =>
      (decide ((s.machine.kernel.objects.tryOpen Namespace.rootParent .event "/a/e"
        (.ofNat 0xffffffff)).toOption = some (some ⟨.event 0, .readWrite⟩)) &&
      decide ((s.machine.kernel.objects.openAt Namespace.rootParent .event "/a/e" .all).toOption =
        some ⟨.event 0, .readWrite⟩)) &&
      decide (s.machine.kernel.objects.child 0 "a" = some (.directory 1)))
    (by decide +kernel)
  simp only [Bool.and_eq_true, decide_eq_true_eq] at htest
  obtain ⟨⟨htried, hopened⟩, hchild⟩ := htest
  have hok {α : Type} {r : Outcome α} {a : α} (h : r.toOption = some a) : r = .ok a := by
    cases r <;> cases h
    rfl
  have htaken := (System.runs_of_play hfirst).holding.obtain (.opened (.tried (hok htried)))
  have hholding := htaken.obtain (.narrowed List.mem_cons_self .read)
  obtain ⟨hopen, hheld, -, -⟩ := rights_within_asked_and_valid hholding
  obtain ⟨ys, hys, -, heq⟩ := hopen _ _ _ _ (.parent (hok hopened))
  -- the only object that the path comes by is the directory
  have hdirs : ∀ y ∈ ys, y.kind = .directory := by
    cases hys with
    | chain nonempty chain =>
      rw [← Path.cut_eq_splitOn, show (Path.cut _).map String.ofList = ["a", "e"] from rfl] at chain
      generalize hzs : ys ++ [_] = zs at chain
      cases chain with
      | cons enters rest =>
        cases rest with
        | cons _ rest =>
          cases rest
          obtain ⟨-, d, hd, hy⟩ := enters
          cases hd
          cases hchild.symm.trans hy
          have hys := congrArg List.dropLast hzs
          rw [List.dropLast_concat] at hys
          rw [hys]
          exact List.forall_mem_singleton.mpr rfl
  exact ⟨m, past, s, _, _, hm, hfirst, hok htried, hok hopened, hholding, hheld, rfl,
    rfl, (heq rfl).1 hdirs⟩

end Nucleus
