import Mathlib.Logic.Relation
import Nucleus.Proofs.Attachment

/-!
# Going up

From an object that has a name one goes up to the directory it stands in, from there to the
directory above, and so on. Where this comes to an object without a name, the object is at the top,
and the names on the way make up the path from there. An object is given a name only once; but that
alone does not keep it from being attached to a directory below itself, and whoever goes up from
there goes round in a circle for ever.

* `Namespace.Climbs` is going up to the top. `Namespace.isSome_fullPath?_iff` says that an object
  has a path just if there is a top above it: the steps that `ancestry` allows are enough.
* `Namespace.Rooted.step` and `Namespace.Step.closesNoCircle` are what one segment does: it keeps
  a top above everything unless it attaches a directory to itself or below itself, and then there is
  a circle.
* `acyclic_iff_no_circle_closed` is the exact condition for whole runs.
* `root_below_its_directory` is a run in which the root is attached below itself.
-/

namespace Nucleus

open Relation (ReflTransGen TransGen)

variable {G : Guest}

namespace Namespace

variable {ns ns' : Namespace} {x y z top : ObjectId} {l : Link} {names : List String}

/-- An object stands in a directory. -/
def Under (ns : Namespace) (x y : ObjectId) : Prop :=
  ∃ l, ns.link? x = some l ∧ y = .directory l.parent

/-- Nothing stands below itself. -/
def Acyclic (ns : Namespace) : Prop := ∀ x, ¬ TransGen ns.Under x x

/-- Going up from an object ends at another, which has no name. -/
def TopOf (ns : Namespace) (x top : ObjectId) : Prop :=
  ReflTransGen ns.Under x top ∧ ns.link? top = none

/-- There is a top above every object. -/
def Rooted (ns : Namespace) : Prop := ∀ x, ∃ top, ns.TopOf x top

theorem Under.eq_directory (h : ns.Under x y) (hl : ns.link? x = some l) :
    y = .directory l.parent := by
  obtain ⟨l', hl', rfl⟩ := h
  rw [hl] at hl'
  cases hl'
  rfl

/-! ## Going up with the names on the way -/

/-- Go up from an object to the top. The names on the way are those of a path from the top down to
the object. -/
inductive Climbs (ns : Namespace) : ObjectId → List String → ObjectId → Prop where
  /-- the object is at the top -/
  | top {x : ObjectId} (unnamed : ns.link? x = none) : Climbs ns x [] x
  /-- one directory up, and on from there -/
  | up {x top : ObjectId} {l : Link} {names : List String} (linked : ns.link? x = some l)
    (rest : Climbs ns (.directory l.parent) names top) : Climbs ns x (names ++ [l.name]) top

theorem Climbs.topOf (h : ns.Climbs x names top) : ns.TopOf x top := by
  induction h with
  | top unnamed => exact ⟨.refl, unnamed⟩
  | up linked _ ih => exact ⟨.head ⟨_, linked, rfl⟩ ih.1, ih.2⟩

theorem TopOf.exists_climbs (h : ns.TopOf x top) : ∃ names, ns.Climbs x names top := by
  obtain ⟨hreach, unnamed⟩ := h
  induction hreach using ReflTransGen.head_induction_on with
  | refl => exact ⟨[], .top unnamed⟩
  | head hup _ ih =>
    obtain ⟨l, linked, rfl⟩ := hup
    obtain ⟨names, hnames⟩ := ih
    exact ⟨names ++ [l.name], .up linked hnames⟩

/-- There is only one way up. -/
theorem Climbs.names_eq {names' : List String} {top' : ObjectId} (h : ns.Climbs x names top)
    (h' : ns.Climbs x names' top') : names = names' := by
  induction h generalizing names' with
  | top unnamed =>
    cases h' with
    | top => rfl
    | up linked _ =>
      rw [unnamed] at linked
      cases linked
  | up linked _ ih =>
    cases h' with
    | top unnamed =>
      rw [unnamed] at linked
      cases linked
    | up linked' rest' =>
      rw [linked] at linked'
      cases linked'
      rw [ih rest']

theorem mem_links_of_link? (h : ns.link? x = some l) : x ∈ ns.links.map (·.1) := by
  obtain ⟨e, he, -⟩ := Option.map_eq_some_iff.mp h
  have hx : e.1 = x := by simpa using List.find?_some he
  exact hx ▸ List.mem_map_of_mem (List.mem_of_find?_eq_some he)

/-- The objects on the way are different: from each the way is longer than from the next. -/
theorem Climbs.exists_nodup (h : ns.Climbs x names top) : ∃ zs : List ObjectId,
    zs.length = names.length ∧ zs.Nodup ∧ zs ⊆ ns.links.map (·.1) ∧
      ∀ z ∈ zs, ∃ names', ns.Climbs z names' top ∧ names'.length ≤ names.length := by
  induction h with
  | top unnamed => exact ⟨[], rfl, List.nodup_nil, List.nil_subset _, List.forall_mem_nil _⟩
  | @up x top l names linked rest ih =>
    obtain ⟨zs, hlength, hnodup, hsubset, hclimbs⟩ := ih
    have hx : ns.Climbs x (names ++ [l.name]) top := .up linked rest
    have hnew : x ∉ zs := by
      intro hmem
      obtain ⟨names', hnames', hle⟩ := hclimbs x hmem
      rw [hnames'.names_eq hx, List.length_append, List.length_singleton] at hle
      omega
    refine ⟨x :: zs, by simp [hlength], List.nodup_cons.mpr ⟨hnew, hnodup⟩,
      List.cons_subset.mpr ⟨mem_links_of_link? linked, hsubset⟩, ?_⟩
    refine List.forall_mem_cons.mpr ⟨⟨_, hx, Nat.le_refl _⟩, fun z hz => ?_⟩
    obtain ⟨names', hnames', hle⟩ := hclimbs z hz
    exact ⟨names', hnames', by rw [List.length_append]; omega⟩

/-- The way up is no longer than there are links. -/
theorem Climbs.length_le (h : ns.Climbs x names top) : names.length ≤ ns.links.length := by
  obtain ⟨zs, hlength, hnodup, hsubset, -⟩ := h.exists_nodup
  calc names.length = zs.length := hlength.symm
    _ ≤ (ns.links.map (·.1)).length := hnodup.length_le_of_subset hsubset
    _ = ns.links.length := List.length_map _

/-- The ancestry of an object is made of the names on the way up, if they are few enough. -/
theorem ancestry_eq_some_iff {fuel : Nat} : ns.ancestry fuel x = some names ↔
    names.length < fuel ∧ ∃ top, ns.Climbs x names top := by
  induction fuel generalizing x names with
  | zero => simp [ancestry]
  | succ fuel ih =>
    rw [ancestry]
    cases hl : ns.link? x with
    | none =>
      constructor
      · rintro ⟨⟩
        exact ⟨Nat.zero_lt_succ _, x, .top hl⟩
      · rintro ⟨-, top, h⟩
        cases h with
        | top => rfl
        | up linked => cases hl.symm.trans linked
    | some l =>
      constructor
      · intro h
        obtain ⟨names, hnames, rfl⟩ := Option.map_eq_some_iff.mp h
        obtain ⟨hlt, top, hclimbs⟩ := ih.mp hnames
        exact ⟨by simpa using hlt, top, .up hl hclimbs⟩
      · rintro ⟨hlt, top, h⟩
        cases h with
        | top unnamed => cases hl.symm.trans unnamed
        | up linked rest =>
          cases hl.symm.trans linked
          rw [List.length_append, List.length_singleton] at hlt
          dsimp only
          rw [ih.mpr ⟨by omega, top, rest⟩]
          rfl

/-- The path of an object that has a top above it. -/
theorem Climbs.fullPath?_eq (h : ns.Climbs x names top) : ns.fullPath? x =
    some (if names.isEmpty then "/" else String.join (names.map fun n => "/" ++ n)) := by
  rw [fullPath?, ancestry_eq_some_iff.mpr ⟨Nat.lt_succ_of_le h.length_le, top, h⟩]
  rfl

/-- **An object has a path just if there is a top above it.** -/
theorem isSome_fullPath?_iff : (ns.fullPath? x).isSome ↔ ∃ top, ns.TopOf x top := by
  constructor
  · intro h
    obtain ⟨path, hpath⟩ := Option.isSome_iff_exists.mp h
    obtain ⟨names, hnames, -⟩ := Option.map_eq_some_iff.mp hpath
    obtain ⟨-, top, hclimbs⟩ := ancestry_eq_some_iff.mp hnames
    exact ⟨top, hclimbs.topOf⟩
  · rintro ⟨top, h⟩
    obtain ⟨names, hclimbs⟩ := h.exists_climbs
    rw [hclimbs.fullPath?_eq]
    rfl

/-! ## Circles -/

/-- Who comes to the top does not go round in a circle. -/
theorem Climbs.not_below_itself (h : ns.Climbs x names top) : ¬ TransGen ns.Under x x := by
  induction h with
  | top unnamed =>
    intro h
    obtain ⟨y, ⟨l, linked, -⟩, -⟩ := TransGen.head'_iff.mp h
    cases unnamed.symm.trans linked
  | @up x top l names linked rest ih =>
    -- a circle through the object is a circle through the directory above it
    intro h
    obtain ⟨y, hup, hback⟩ := TransGen.head'_iff.mp h
    obtain rfl := hup.eq_directory linked
    exact ih (.tail' hback hup)

/-- Without names everything is at the top. -/
theorem rooted_empty : Rooted {} := fun x => ⟨x, .refl, rfl⟩

theorem Rooted.acyclic (h : ns.Rooted) : ns.Acyclic := by
  intro x
  obtain ⟨top, htop⟩ := h x
  obtain ⟨names, hclimbs⟩ := htop.exists_climbs
  exact hclimbs.not_below_itself

theorem Makes.under (made : ns.Makes ns') : ns'.Under = ns.Under := by
  funext x y
  simp only [Under, made.link?]

/-- Who stood in a directory still does. -/
theorem Under.attach (h : ns.Under y z) (unnamed : ns.link? x = none) :
    (ns.attach x l).Under y z := by
  obtain ⟨l', hl', rfl⟩ := h
  refine ⟨l', ?_, rfl⟩
  rw [link?_attach, if_neg, hl']
  rintro rfl
  cases unnamed.symm.trans hl'

/-- A way up that does not come by the object is not changed by attaching it. -/
theorem Climbs.attach (h : ns.Climbs z names top) (hnot : ¬ ReflTransGen ns.Under z x) :
    (ns.attach x l).Climbs z names top := by
  induction h with
  | @top z hz =>
    refine .top ?_
    rw [link?_attach, if_neg, hz]
    rintro rfl
    exact hnot .refl
  | @up z top l' names linked _ ih =>
    refine .up ?_ (ih fun h => hnot (.head ⟨l', linked, rfl⟩ h))
    rw [link?_attach, if_neg, linked]
    rintro rfl
    exact hnot .refl

/-- Attaching an object to a directory that is not below it keeps a top above everything. -/
theorem Rooted.attach (h : ns.Rooted) (unnamed : ns.link? x = none)
    (hnot : ¬ ReflTransGen ns.Under (.directory l.parent) x) : (ns.attach x l).Rooted := by
  intro y
  obtain ⟨top, htop⟩ := h y
  obtain ⟨names, hclimbs⟩ := htop.exists_climbs
  suffices ∃ names top, (ns.attach x l).Climbs y names top by
    obtain ⟨names, top, hclimbs⟩ := this
    exact ⟨top, hclimbs.topOf⟩
  induction hclimbs with
  | @top y hy =>
    by_cases hxy : x = y
    · -- the object was at the top; now the way goes on above the directory
      subst hxy
      obtain ⟨top, htop⟩ := h (.directory l.parent)
      obtain ⟨names, hclimbs⟩ := htop.exists_climbs
      exact ⟨_, top, .up (by rw [link?_attach, if_pos rfl]) (hclimbs.attach hnot)⟩
    · refine ⟨[], y, .top ?_⟩
      rw [link?_attach, if_neg hxy, hy]
  | @up y top l' names linked rest ih =>
    obtain ⟨names, top, hclimbs⟩ := ih rest.topOf
    refine ⟨_, top, .up ?_ hclimbs⟩
    rw [link?_attach, if_neg, linked]
    rintro rfl
    cases unnamed.symm.trans linked

/-- A creation attaches no object to a directory that is this object, or that stands below it. -/
def ClosesNoCircle (ns : Namespace) (creation : Option (Link × Outcome Accessor)) : Prop :=
  ∀ l a, creation = some (l, .ok a) → ¬ ReflTransGen ns.Under (.directory l.parent) a.object

/-- **One segment keeps a top above everything**, if it closes no circle. -/
theorem Rooted.step {creation : Option (Link × Outcome Accessor)} (h : ns.Rooted)
    (step : ns.Step creation ns') (hnot : ns.ClosesNoCircle creation) : ns'.Rooted := by
  have hmade {ns₁ : Namespace} (made : ns.Makes ns₁) : ns₁.Rooted := by
    intro x
    simp only [TopOf, made.under, made.link?]
    exact h x
  cases step with
  | make made => exact hmade made
  | refuse made cause => exact hmade made
  | attach made name free unnamed =>
    refine (hmade made).attach unnamed ?_
    rw [made.under]
    exact hnot _ _ rfl

/-- **One segment that leaves no circle** has closed none; and there was none before. -/
theorem Step.closesNoCircle {creation : Option (Link × Outcome Accessor)}
    (step : ns.Step creation ns') (h : ns'.Acyclic) :
    ns.Acyclic ∧ ns.ClosesNoCircle creation := by
  cases step with
  | make made => exact ⟨fun x => made.under ▸ h x, nofun⟩
  | refuse made cause => exact ⟨fun x => made.under ▸ h x, nofun⟩
  | @attach ns' l a made name free unnamed =>
    have hmono (y z : ObjectId) (hyz : ns.Under y z) : (ns'.attach a.object l).Under y z :=
      Under.attach (made.under ▸ hyz) unnamed
    refine ⟨fun x hx => h x (TransGen.mono hmono _ _ hx), fun l' a' heq hback => ?_⟩
    cases heq
    refine h a.object (.head' ⟨l, ?_, rfl⟩ (ReflTransGen.mono hmono _ _ hback))
    rw [link?_attach, if_pos rfl]

end Namespace

/-! ## Runs -/

namespace Segment

variable {seg : Segment G}

/-- The segment attaches no object to a directory that is this object, or that stands below it. -/
def ClosesNoCircle (seg : Segment G) : Prop := seg.before.objects.ClosesNoCircle seg.creation

/-- Only a directory that was there before can be attached below itself. -/
theorem Sound.closesNoCircle (hseg : seg.Sound) (hns : seg.before.objects.Coherent)
    (hparent : seg.ParentMade)
    (hop : ∀ d name parent, seg.op ≠ .createObject (.directory d) name parent) :
    seg.ClosesNoCircle := by
  intro l a h hreach
  -- going up from a directory leads to directories that are there, and to nothing else
  obtain ⟨d, hd, hlt⟩ : ∃ d, a.object = .directory d ∧
      d < seg.before.objects.directories.length := by
    rcases hreach.cases_tail with heq | ⟨x, -, l', hl', heq⟩
    · exact ⟨l.parent, heq, hparent _ h⟩
    · exact ⟨l'.parent, heq, hns.parent_lt hl'⟩
  rcases hseg.names_object h with ⟨name, parent, hcreate⟩ | ⟨e, he⟩ | hnew
  · rw [hd] at hcreate
    exact hop d name parent hcreate
  · rw [hd] at he
    cases he
  · rw [hd] at hnew
    cases hnew
    exact Nat.lt_irrefl _ hlt

end Segment

namespace System

variable {m : Machine G} {s : System G} {history : List (Segment G)}

/-- **A whole run keeps a top above everything**, if none of its segments closes a circle. -/
theorem Runs.rooted (booted : m.Booted) (run : Runs ⟨m, []⟩ history s)
    (hnot : ∀ seg ∈ history, seg.ClosesNoCircle) : s.machine.kernel.objects.Rooted :=
  (run.keeps (I := fun k => k.objects.Rooted) forall_tasks_start hnot
    (fun _ hnot hseg h => h.step hseg.names hnot)
    (booted.objects ▸ Namespace.rooted_empty)).1

/-- **A run that ends without a circle** has never closed one. -/
theorem Runs.closesNoCircle (run : Runs ⟨m, []⟩ history s)
    (h : s.machine.kernel.objects.Acyclic) : ∀ seg ∈ history, seg.ClosesNoCircle := by
  induction run with
  | start => exact List.forall_mem_nil _
  | @step history s s' seg run next ih =>
    have hnames := (next.sound (run.sound forall_tasks_start).2).1.names
    rw [next.kernels.2] at hnames
    obtain ⟨hacyclic, hnot⟩ := hnames.closesNoCircle h
    rw [next.kernels.1] at hacyclic
    exact List.forall_mem_cons.mpr ⟨hnot, ih hacyclic⟩

end System

/-- **When the names form no circle.** At the end of a run from a boot nothing stands below itself
just if no creation of the run has attached an object to a directory that was this object, or stood
below it; and this is so just if going up comes to an end from every object, and every object has a
path. An object has a path just if going up from it comes to an end. To give a name to an event or
to a device, or to a directory while making it, never closes a circle: only a directory that was
there can be attached below itself. -/
theorem acyclic_iff_no_circle_closed {m : Machine G} {s : System G} {history : List (Segment G)}
    (booted : m.Booted) (run : System.Runs ⟨m, []⟩ history s)
    (parents : ∀ seg ∈ history, seg.ParentMade) :
    (s.machine.kernel.objects.Acyclic ↔ ∀ seg ∈ history, seg.ClosesNoCircle) ∧
    (s.machine.kernel.objects.Acyclic ↔ ∀ x, ∃ top, s.machine.kernel.objects.TopOf x top) ∧
    (∀ x, (s.machine.kernel.objects.fullPath? x).isSome ↔
      ∃ top, s.machine.kernel.objects.TopOf x top) ∧
    ∀ seg ∈ history, (∀ d name parent, seg.op ≠ .createObject (.directory d) name parent) →
      seg.ClosesNoCircle := by
  have hrooted := run.rooted booted
  have hcloses := run.closesNoCircle
  refine ⟨⟨hcloses, fun h => (hrooted h).acyclic⟩,
    ⟨fun h => hrooted (hcloses h), Namespace.Rooted.acyclic⟩,
    fun x => Namespace.isSome_fullPath?_iff, fun seg hseg hop => ?_⟩
  have hsound := (run.sound System.forall_tasks_start).1 seg hseg
  exact hsound.closesNoCircle ((run.coherent booted parents).2 seg hseg).1 (parents seg hseg) hop

/-- An event in a directory below the root: no circle, and going up from the event ends at the
root. -/
theorem event_path_ends_at_root : ∃ m past s later s',
    Machine.boot? {} {} = some m ∧ System.play ⟨m, []⟩ eventInDirectory = some (past, s) ∧
    s.play [(0, .createObject (.event 0) "f" Namespace.rootParent)] = some (later, s') ∧
    (∀ seg ∈ later ++ past, seg.ParentMade) ∧ s'.machine.kernel.objects.Acyclic ∧
    s'.machine.kernel.objects.fullPath? (.event 0) = some "/a/e" ∧
    ∃ top, s'.machine.kernel.objects.TopOf (.event 0) top := by
  obtain ⟨m, past, s, later, s', hm, hfirst, hsecond, htest⟩ := System.exists_play {} {}
    eventInDirectory [(0, .createObject (.event 0) "f" Namespace.rootParent)]
    (fun past _ later s' => (later ++ past).all (fun seg => decide seg.ParentMade &&
        match seg.op with
        | .createObject (.directory _) _ _ => false
        | _ => true) &&
      decide (s'.machine.kernel.objects.fullPath? (.event 0) = some "/a/e")) (by decide +kernel)
  simp only [Bool.and_eq_true, List.all_eq_true, decide_eq_true_eq] at htest
  obtain ⟨hsegs, hpath⟩ := htest
  have hrun := (System.runs_of_play hfirst).trans (System.runs_of_play hsecond)
  have hparents := fun seg hseg => (hsegs seg hseg).1
  obtain ⟨hacyclic, -, htop, hclosed⟩ :=
    acyclic_iff_no_circle_closed (Machine.booted_of_boot? hm) hrun hparents
  refine ⟨m, past, s, later, s', hm, hfirst, hsecond, hparents, hacyclic.mpr fun seg hseg => ?_,
    hpath, (htop (.event 0)).mp (by rw [hpath]; rfl)⟩
  refine hclosed seg hseg fun d name parent hop => ?_
  have hother := (hsegs seg hseg).2
  rw [hop] at hother
  cases hother

/-- **The root below its directory.** Make a directory, and attach the root to it: nothing is
refused, each of the two then stands below the other, and neither has a path. -/
theorem root_below_its_directory : ∃ m past s later s',
    Machine.boot? {} {} = some m ∧
    System.play (G := ⟨Unit, Unit⟩) ⟨m, []⟩ [(0, .createDirectory "a" Namespace.rootParent)] =
      some (past, s) ∧
    s.play [(0, .createObject Namespace.root "up" ⟨1, .readWrite⟩)] = some (later, s') ∧
    (∀ seg ∈ later ++ past, seg.ParentMade) ∧ ¬ s'.machine.kernel.objects.Acyclic ∧
    s'.machine.kernel.objects.fullPath? Namespace.root = none ∧
    s'.machine.kernel.objects.fullPath? (.directory 1) = none := by
  obtain ⟨m, past, s, later, s', hm, hfirst, hsecond, htest⟩ := System.exists_play {} {}
    (G := ⟨Unit, Unit⟩) [(0, .createDirectory "a" Namespace.rootParent)]
    [(0, .createObject Namespace.root "up" ⟨1, .readWrite⟩)]
    (fun past _ later s' => (later ++ past).all (fun seg => decide seg.ParentMade) &&
      (decide (s'.machine.kernel.objects.link? Namespace.root = some ⟨"up", 1⟩) &&
        (decide (s'.machine.kernel.objects.link? (.directory 1) = some ⟨"a", 0⟩) &&
          (decide (s'.machine.kernel.objects.fullPath? Namespace.root = none) &&
            decide (s'.machine.kernel.objects.fullPath? (.directory 1) = none)))))
    (by decide +kernel)
  simp only [Bool.and_eq_true, List.all_eq_true, decide_eq_true_eq] at htest
  obtain ⟨hparents, hroot, hdirectory, hpaths⟩ := htest
  refine ⟨m, past, s, later, s', hm, hfirst, hsecond, hparents, fun hacyclic => ?_, hpaths⟩
  exact hacyclic Namespace.root (.tail (.single ⟨_, hroot, rfl⟩) ⟨_, hdirectory, rfl⟩)

end Nucleus
