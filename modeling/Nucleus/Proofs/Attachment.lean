import Nucleus.Proofs.Frame
import Nucleus.Proofs.Script

/-!
# Giving names

An object that is given a name is written down twice: the directory maps the name to the object,
and the link of the object tells the name and the directory. Of all operations few are about names,
and what one of them does is this: it makes an object or none, and then attaches an object or none.

* `Namespace.Step` is what a segment of a run does to the names, and `Segment.Sound.names` says so.
* `Namespace.Coherent` is the agreement of the two sides. A segment keeps it, if the directory that
  it attaches to is there.
* `directories_and_links_agree` says it of whole runs, along with what becomes of links, and of the
  names when a creation is refused.
-/

namespace Nucleus

variable {G : Guest}

namespace Namespace

variable {ns ns' : Namespace} {x y : ObjectId} {l : Link} {d : DirectoryId} {n : String}

/-! ## Attaching an object -/

/-- Map a name to an object in a directory, and link the object. -/
def attach (ns : Namespace) (x : ObjectId) (l : Link) : Namespace :=
  { ns with
    directories := ns.directories.modify l.parent (· ++ [(l.name, x)])
    links := (x, l) :: ns.links }

theorem insert_eq_ok_iff : ns.insert d n x = .ok ns' ↔
    ns.child d n = none ∧ ns.link? x = none ∧ ns' = ns.attach x ⟨n, d⟩ := by
  simp only [insert]
  split
  next h => simp [Option.isSome_iff_ne_none.mp h]
  next h =>
    have hfree : ns.child d n = none := by simpa using h
    split
    next h => simp [Option.isSome_iff_ne_none.mp h]
    next h =>
      have hunnamed : ns.link? x = none := by simpa using h
      simp only [hfree, hunnamed, true_and, Except.ok.injEq]
      exact eq_comm

/-- **When a creation succeeds**, and what it does. -/
theorem create_eq_ok_iff {parent : Parent} : ns.create x n parent = .ok ns' ↔
    Path.isName n = true ∧ parent.granted.check .write = .ok () ∧
      ns.child parent.directory n = none ∧ ns.link? x = none ∧
      ns' = ns.attach x ⟨n, parent.directory⟩ := by
  simp only [create]
  by_cases hn : Path.isName n = true
  · rw [if_neg (by simp [hn])]
    cases parent.granted.check .write with
    | error why => simp
    | ok u => simp [hn, insert_eq_ok_iff]
  · rw [if_pos (by simpa using hn)]
    simp [hn]

/-- **Why a creation is refused.** -/
theorem create_eq_error {parent : Parent} {why : KernelError}
    (h : ns.create x n parent = .error why) :
    why ∈ [.invalidPath, .unauthorizedAccess, .alreadyExists, .invalidOperation] := by
  simp only [create, AccessMask.check, insert] at h
  grind

/-- The attached object has the link, and every other has the link it had. -/
theorem link?_attach (ns : Namespace) (x y : ObjectId) (l : Link) :
    (ns.attach x l).link? y = if x = y then some l else ns.link? y := by
  simp only [link?, attach, List.find?_cons]
  by_cases h : x = y
  · simp [h]
  · simp [h, beq_false_of_ne h]

/-- An entry at the end of a listing is found by its name, if no other entry is. -/
theorem lookup_append (dir : Directory) (n' : String) (x : ObjectId) (n : String) :
    Directory.lookup (dir ++ [(n', x)]) n =
      (Directory.lookup dir n).or (if n' = n then some x else none) := by
  simp only [Directory.lookup, List.find?_append, Option.map_or]
  by_cases h : n' = n <;> simp [h]

/-- The name that was free is mapped to the object, and every other name as it was. -/
theorem child_attach (hd : l.parent < ns.directories.length)
    (free : ns.child l.parent l.name = none) :
    (ns.attach x l).child d n = if l = ⟨n, d⟩ then some x else ns.child d n := by
  obtain ⟨name, parent⟩ := l
  simp only [child, attach, List.getElem?_modify, Link.mk.injEq] at free ⊢
  by_cases hp : parent = d
  · subst hp
    rw [List.getElem?_eq_getElem hd] at free ⊢
    have hfree : Directory.lookup ns.directories[parent] name = none := free
    have hlookup := lookup_append ns.directories[parent] name x n
    by_cases hn : name = n
    · subst hn
      rw [hfree] at hlookup
      simpa using hlookup
    · simpa [hn] using hlookup
  · simp [hp]

/-! ## What operations do to the names -/

/-- At most one object is made, and has no name. -/
inductive Makes (ns : Namespace) : Namespace → Prop where
  /-- none is -/
  | nothing : Makes ns ns
  /-- a directory -/
  | directory : Makes ns ns.newDirectory.1
  /-- a device -/
  | device (dev : Device) : Makes ns (ns.newDevice dev).1

namespace Makes

theorem links (h : ns.Makes ns') : ns'.links = ns.links := by cases h <;> rfl

theorem link? (h : ns.Makes ns') (x : ObjectId) : ns'.link? x = ns.link? x := by
  simp only [Namespace.link?, h.links]

/-- The directories that were there are as they were, and a new one is empty. -/
theorem directories (h : ns.Makes ns') (d : DirectoryId) :
    ns'.directories[d]? = ns.directories[d]? ∨
      ns.directories[d]? = none ∧ ns'.directories[d]? = some [] := by
  cases h with
  | nothing => exact .inl rfl
  | device => exact .inl rfl
  | directory =>
    simp only [newDirectory]
    rw [getElem?_grown]
    by_cases hd : d = ns.directories.length
    · simp [hd]
    · simp [hd]

theorem child (h : ns.Makes ns') (d : DirectoryId) (n : String) : ns'.child d n = ns.child d n := by
  simp only [Namespace.child]
  rcases h.directories d with h | ⟨h, h'⟩
  · rw [h]
  · rw [h, h']
    rfl

theorem length_directories (h : ns.Makes ns') :
    ns.directories.length ≤ ns'.directories.length := by
  cases h with
  | nothing => exact Nat.le_refl _
  | device => exact Nat.le_refl _
  | directory => simp [newDirectory]

end Makes

/-- **What a segment does to the names.** It makes an object or none; and it may be a creation,
which is refused, or attaches an object that had no name. -/
inductive Step (ns : Namespace) : Option (Link × Outcome Accessor) → Namespace → Prop where
  /-- no name was to be given -/
  | make {ns' : Namespace} (made : ns.Makes ns') : Step ns none ns'
  /-- no name is given -/
  | refuse {ns' : Namespace} {l : Link} {why : KernelError} (made : ns.Makes ns')
    (cause : why ∈ [.invalidPath, .unauthorizedAccess, .alreadyExists, .invalidOperation]) :
    Step ns (some (l, .error why)) ns'
  /-- an object is given a name -/
  | attach {ns' : Namespace} {l : Link} {a : Accessor} (made : ns.Makes ns')
    (name : Path.isName l.name = true) (free : ns'.child l.parent l.name = none)
    (unnamed : ns'.link? a.object = none) : Step ns (some (l, .ok a)) (ns'.attach a.object l)

/-- A link is never taken back. -/
theorem Step.link?_of_some {creation : Option (Link × Outcome Accessor)}
    (h : ns.Step creation ns') (hl : ns.link? x = some l) : ns'.link? x = some l := by
  cases h with
  | make made => rw [made.link?, hl]
  | refuse made cause => rw [made.link?, hl]
  | @attach ns' l' a made name free unnamed =>
    rw [link?_attach, if_neg]
    · rw [made.link?, hl]
    · rintro rfl
      rw [made.link?, hl] at unnamed
      cases unnamed

end Namespace

/-! ## The segments that give names -/

/-- The link that an operation was to make, with its answer. -/
def Op.creation : (op : Op G) → op.Result → Option (Link × Outcome Accessor)
  | createObject _ name parent, answer => some (⟨name, parent.directory⟩, answer)
  | createDirectory name parent, answer => some (⟨name, parent.directory⟩, answer)
  | createEvent name _ parent, answer => some (⟨name, parent.directory⟩, answer)
  | _, _ => none

namespace Segment

variable {seg : Segment G}

/-- The link that a segment was to make, with the answer. -/
def creation (seg : Segment G) : Option (Link × Outcome Accessor) :=
  seg.answer.bind seg.op.creation

/-- The directory that a segment was to give a name in is there. -/
def ParentMade (seg : Segment G) : Prop :=
  ∀ p ∈ seg.creation, p.1.parent < seg.before.objects.directories.length

instance (seg : Segment G) : Decidable seg.ParentMade :=
  inferInstanceAs (Decidable (∀ p ∈ seg.creation,
    p.1.parent < seg.before.objects.directories.length))

/-- An operation that is not about names leaves them alone, in every one of its segments. -/
theorem Sound.objects_of_not_mayName (hseg : seg.Sound) (h : ¬ seg.op.MayName) :
    seg.after.objects = seg.before.objects := by
  obtain ⟨k, path, hk⟩ := hseg.exists_path
  have hpath : seg.after.objects = k.objects := by
    refine path.keeps (I := fun k' => k'.objects = k.objects) (fun k' ch admitted _ ih => ?_) rfl
    refine (Kernel.objects_apply fun objects hch => h ?_).trans ih
    rw [hch] at admitted
    exact admitted.2
  rw [hpath]
  rcases hk with rfl | ⟨c, wake, -, rfl⟩
  · rfl
  · exact (Kernel.Adjusts.refl.setAside c wake).objects

theorem creation_of_not_mayName (h : ¬ seg.op.MayName) : seg.creation = none := by
  obtain ⟨core, op, first, before, after, answer⟩ := seg
  cases answer with
  | none => rfl
  | some a =>
    cases op with
    | createObject | createDirectory | createEvent => exact absurd trivial h
    | _ => rfl

/-- The object that a segment was to give a name to: one that its operation was given, or an event,
or a directory that it has made. -/
def Names (seg : Segment G) (x : ObjectId) : Prop :=
  (∃ name parent, seg.op = .createObject x name parent) ∨ (∃ e, x = .event e) ∨
    x = .directory seg.before.objects.directories.length

/-- **What a segment does about names.** It makes an object or none; or it makes one or none, and
then is a creation. -/
theorem Sound.creation_cases (hseg : seg.Sound) :
    seg.before.objects.Makes seg.after.objects ∧ seg.creation = none ∨
    ∃ (x : ObjectId) (name : String) (parent : Parent) (k : Kernel G),
      seg.Names x ∧ seg.before.objects.Makes k.objects ∧
      seg.after = (Effect.createObject x name parent k).1 ∧
      seg.creation = some (⟨name, parent.directory⟩, (Effect.createObject x name parent k).2) := by
  by_cases h : seg.op.MayName
  · cases hseg with
    | @whole core op f k managed valid effect =>
      cases op with
      | createObject x name parent =>
        cases effect
        exact .inr ⟨x, name, parent, k, .inl ⟨name, parent, rfl⟩, .nothing, rfl, rfl⟩
      | createDirectory name parent =>
        cases effect
        exact .inr ⟨_, name, parent, _, .inr (.inr rfl), .directory, rfl, rfl⟩
      | createEvent name autoReset parent =>
        cases effect
        exact .inr ⟨_, name, parent, (Effect.newEvent autoReset k).1, .inr (.inl ⟨_, rfl⟩),
          .nothing, rfl, rfl⟩
      | newDirectory =>
        cases effect
        exact .inl ⟨.directory, rfl⟩
      | newDevice dev =>
        cases effect
        exact .inl ⟨.device dev, rfl⟩
      | _ => exact h.elim
    | @client core op first k k' answer noEffect path =>
      cases op with
      | createObject | createDirectory | createEvent | newDirectory | newDevice => cases noEffect
      | _ => exact h.elim
    | paused => exact h.elim
    | resumed => exact h.elim
  · refine .inl ⟨?_, creation_of_not_mayName h⟩
    rw [hseg.objects_of_not_mayName h]
    exact .nothing

/-- **One segment.** It makes an object or none, and attaches an object or none. -/
theorem Sound.names (hseg : seg.Sound) :
    seg.before.objects.Step seg.creation seg.after.objects := by
  rcases hseg.creation_cases with ⟨made, hnone⟩ | ⟨x, name, parent, k, -, made, hafter, hcreation⟩
  · rw [hnone]
    exact .make made
  · rw [hafter, hcreation]
    simp only [Effect.createObject]
    cases h : k.objects.create x name parent with
    | error why => exact .refuse made (Namespace.create_eq_error h)
    | ok objects =>
      obtain ⟨hname, -, hfree, hunnamed, rfl⟩ := Namespace.create_eq_ok_iff.mp h
      exact .attach (a := ⟨x, _⟩) made hname hfree hunnamed

/-- A creation that succeeds answers with the object that it was to give a name to. -/
theorem Sound.names_object (hseg : seg.Sound) {l : Link} {a : Accessor}
    (h : seg.creation = some (l, .ok a)) : seg.Names a.object := by
  rcases hseg.creation_cases with ⟨-, hnone⟩ | ⟨x, name, parent, k, hx, -, -, hcreation⟩
  · rw [hnone] at h
    cases h
  · rw [hcreation] at h
    simp only [Effect.createObject, Option.some.injEq, Prod.mk.injEq] at h
    obtain ⟨-, h⟩ := h
    split at h
    · cases h
    · cases h
      exact hx

end Segment

/-! ## Directories and links -/

namespace Namespace

variable {ns ns' : Namespace} {x : ObjectId} {l : Link}

/-- Directories and links agree. -/
structure Coherent (ns : Namespace) : Prop where
  /-- a directory maps a name to an object just if the link of the object says so -/
  agree : ∀ d n x, ns.child d n = some x ↔ ns.link? x = some ⟨n, d⟩
  /-- what an object is called is a name -/
  named : ∀ x l, ns.link? x = some l → Path.isName l.name = true
  /-- no directory lists a name twice -/
  distinct : ∀ (d : DirectoryId) (dir : Directory), ns.directories[d]? = some dir →
    (dir.map (·.1)).Nodup

/-- The directory that an object stands in is there. -/
theorem Coherent.parent_lt (h : ns.Coherent) (hl : ns.link? x = some l) :
    l.parent < ns.directories.length := by
  have hchild := (h.agree l.parent l.name x).mpr hl
  obtain ⟨dir, hdir, -⟩ := Option.bind_eq_some_iff.mp hchild
  exact (List.getElem?_eq_some_iff.mp hdir).1

theorem coherent_empty : Coherent {} where
  agree d n x := by
    cases d with
    | zero => simp [child, link?, Directory.lookup]
    | succ d => simp [child, link?]
  named x l h := by cases h
  distinct d dir h := by
    cases d with
    | zero =>
      cases h
      exact List.nodup_nil
    | succ d => cases h

theorem Coherent.make (h : ns.Coherent) (made : ns.Makes ns') : ns'.Coherent where
  agree d n x := by rw [made.child, made.link?, h.agree]
  named x l hl := h.named x l (made.link? x ▸ hl)
  distinct d dir hdir := by
    rcases made.directories d with hd | ⟨-, hd⟩
    · exact h.distinct d dir (hd ▸ hdir)
    · rw [hd] at hdir
      cases hdir
      exact List.nodup_nil

theorem Coherent.attach (h : ns.Coherent) (hd : l.parent < ns.directories.length)
    (name : Path.isName l.name = true) (free : ns.child l.parent l.name = none)
    (unnamed : ns.link? x = none) : (ns.attach x l).Coherent where
  agree d n y := by
    rw [child_attach hd free, link?_attach]
    by_cases hl : l = ⟨n, d⟩
    · -- the name that was free is now the name of the object, and of no other
      subst hl
      have hother : ns.link? y ≠ some ⟨n, d⟩ := by
        intro hy
        rw [← h.agree, free] at hy
        cases hy
      by_cases hxy : x = y <;> simp [hxy, hother]
    · by_cases hxy : x = y
      · subst hxy
        simp [hl, h.agree, unnamed]
      · simp [hl, hxy, h.agree]
  named y l' hl' := by
    rw [link?_attach] at hl'
    split at hl'
    · cases hl'
      exact name
    · exact h.named y l' hl'
  distinct d dir hdir := by
    simp only [Namespace.attach, List.getElem?_modify] at hdir
    split at hdir
    next hp =>
      -- the listing is longer by a name that it did not have
      subst hp
      obtain ⟨old, hold, rfl⟩ := Option.map_eq_some_iff.mp hdir
      have hnew : l.name ∉ old.map (·.1) := by
        simp only [child, hold, Option.bind_some, Directory.lookup, Option.map_eq_none_iff,
          List.find?_eq_none] at free
        simpa using fun y hy => free (l.name, y) hy
      simp only [List.map_append, List.map_cons, List.map_nil]
      exact List.nodup_append.mpr ⟨h.distinct _ old hold, by simp, by
        rintro a ha b hb rfl
        rw [List.mem_singleton.mp hb] at ha
        exact hnew ha⟩
    next hp => exact h.distinct d dir (by simpa using hdir)

/-- **One segment keeps directories and links in agreement**, if it attaches to a directory that is
there. -/
theorem Coherent.step {creation : Option (Link × Outcome Accessor)} (h : ns.Coherent)
    (step : ns.Step creation ns')
    (hparent : ∀ p ∈ creation, p.1.parent < ns.directories.length) : ns'.Coherent := by
  cases step with
  | make made => exact h.make made
  | refuse made cause => exact h.make made
  | attach made name free unnamed =>
    exact (h.make made).attach
      (Nat.lt_of_lt_of_le (hparent _ rfl) made.length_directories) name free unnamed

end Namespace

/-- The segment leaves every directory that was there and every link as it was, and has a directory
that it made empty. -/
structure Segment.LeavesNames (seg : Segment G) : Prop where
  /-- the links, also of an object that was to be attached -/
  links : ∀ x, seg.after.objects.link? x = seg.before.objects.link? x
  /-- the directories that were there -/
  directories : ∀ d < seg.before.objects.directories.length,
    seg.after.objects.directories[d]? = seg.before.objects.directories[d]?
  /-- what all directories map -/
  children : ∀ d n, seg.after.objects.child d n = seg.before.objects.child d n

/-- **A creation that is refused leaves the names as they were.** It is refused for one of four
causes. -/
theorem Segment.Sound.leavesNames {seg : Segment G} (hseg : seg.Sound) {l : Link}
    {why : KernelError} (h : seg.creation = some (l, .error why)) :
    why ∈ [.invalidPath, .unauthorizedAccess, .alreadyExists, .invalidOperation] ∧
      seg.LeavesNames := by
  have hnames := hseg.names
  rw [h] at hnames
  cases hnames with
  | refuse made cause =>
    refine ⟨cause, made.link?, fun d hd => ?_, made.child⟩
    rcases made.directories d with h | ⟨h, -⟩
    · exact h
    · rw [List.getElem?_eq_getElem hd] at h
      cases h

/-- **A creation that succeeds links an object that had no name.** -/
theorem Segment.Sound.links {seg : Segment G} (hseg : seg.Sound) {l : Link} {a : Accessor}
    (h : seg.creation = some (l, .ok a)) :
    seg.before.objects.link? a.object = none ∧ seg.after.objects.link? a.object = some l := by
  have hnames := hseg.names
  rw [h] at hnames
  generalize seg.after.objects = after at hnames ⊢
  cases hnames with
  | attach made name free unnamed =>
    rw [made.link?] at unnamed
    rw [Namespace.link?_attach, if_pos rfl]
    exact ⟨unnamed, rfl⟩

namespace System

variable {m : Machine G} {s₀ s : System G} {history : List (Segment G)}

/-- **A whole run keeps directories and links in agreement.** -/
theorem Runs.coherent (booted : m.Booted) (run : Runs ⟨m, []⟩ history s)
    (parents : ∀ seg ∈ history, seg.ParentMade) : s.machine.kernel.objects.Coherent ∧
      ∀ seg ∈ history, seg.before.objects.Coherent ∧ seg.after.objects.Coherent :=
  run.keeps (I := fun k => k.objects.Coherent) forall_tasks_start parents
    (fun _ hparent hseg h => h.step hseg.names hparent)
    (booted.objects ▸ Namespace.coherent_empty)

/-- **A link that was made once is there at the end of the run.** -/
theorem Runs.link?_of_before (run : Runs s₀ history s) (h₀ : ∀ task ∈ s₀.tasks, task.Sound)
    {seg : Segment G} (hseg : seg ∈ history) {x : ObjectId} {l : Link}
    (hl : seg.before.objects.link? x = some l) : s.machine.kernel.objects.link? x = some l := by
  induction run with
  | start => cases hseg
  | @step history s s' last run next ih =>
    have hnames := (next.sound (run.sound h₀).2).1.names
    rw [next.kernels.1, next.kernels.2] at hnames
    refine hnames.link?_of_some ?_
    rcases List.mem_cons.mp hseg with rfl | hseg
    · exact next.kernels.1 ▸ hl
    · exact ih hseg

end System

/-- **Directories and links agree.** Take a run from a boot in which names are given in directories
that are there. A directory maps a name to an object just if the link of the object tells that name
and that directory; such a name is not empty and has no separator in it; an object stands in one
directory under one name at most, and no directory lists a name twice. A link that was there at any
point of the run is there at its end. A creation that succeeded has linked an object that had no
name, and one that was refused, for one of four causes, has left the names as they were. -/
theorem directories_and_links_agree {m : Machine G} {s : System G} {history : List (Segment G)}
    (booted : m.Booted) (run : System.Runs ⟨m, []⟩ history s)
    (parents : ∀ seg ∈ history, seg.ParentMade) :
    (∀ d n x, s.machine.kernel.objects.child d n = some x ↔
      s.machine.kernel.objects.link? x = some ⟨n, d⟩) ∧
    (∀ d n x, s.machine.kernel.objects.child d n = some x → n ≠ "" ∧ '/' ∉ n.toList) ∧
    (∀ x d n d' n', s.machine.kernel.objects.child d n = some x →
      s.machine.kernel.objects.child d' n' = some x → d = d' ∧ n = n') ∧
    (∀ (d : DirectoryId) (dir : Directory),
      s.machine.kernel.objects.directories[d]? = some dir → (dir.map (·.1)).Nodup) ∧
    (∀ seg ∈ history, ∀ x l, seg.before.objects.link? x = some l →
      s.machine.kernel.objects.link? x = some l) ∧
    (∀ seg ∈ history, ∀ l a, seg.creation = some (l, .ok a) →
      seg.before.objects.link? a.object = none ∧ seg.after.objects.link? a.object = some l) ∧
    ∀ seg ∈ history, ∀ l why, seg.creation = some (l, .error why) →
      why ∈ [.invalidPath, .unauthorizedAccess, .alreadyExists, .invalidOperation] ∧
        seg.LeavesNames := by
  have hnone := System.forall_tasks_start (m := m) (P := Task.Sound)
  have hsound := (run.sound hnone).1
  have hns := (run.coherent booted parents).1
  refine ⟨hns.agree, fun d n x h => ?_, fun x d n d' n' h h' => ?_, hns.distinct,
    fun seg hseg x l => run.link?_of_before hnone hseg, fun seg hseg l a => (hsound seg hseg).links,
    fun seg hseg l why => (hsound seg hseg).leavesNames⟩
  · exact Path.isName_iff.mp (hns.named x ⟨n, d⟩ ((hns.agree d n x).mp h))
  · have hl := ((hns.agree d n x).mp h).symm.trans ((hns.agree d' n' x).mp h')
    cases hl
    exact ⟨rfl, rfl⟩

/-- Make a directory, and an event in it. -/
def eventInDirectory : List (CoreId × Op ⟨Unit, Unit⟩) :=
  [(0, .createDirectory "a" Namespace.rootParent), (0, .createEvent "e" false ⟨1, .readWrite⟩)]

/-- The event cannot be given a second name, nor the directory be made again, and neither a path nor
a directory that may only be read takes a new name: all four leave the names as they were, and they
agree. -/
theorem names_agree_after_refusals : ∃ m past s later s',
    Machine.boot? {} {} = some m ∧ System.play ⟨m, []⟩ eventInDirectory = some (past, s) ∧
    s.play [(0, .createObject (.event 0) "f" Namespace.rootParent),
      (0, .createDirectory "a" Namespace.rootParent),
      (0, .createDirectory "a/b" Namespace.rootParent),
      (0, .createDirectory "b" ⟨1, .read⟩)] = some (later, s') ∧
    (∀ seg ∈ later ++ past, seg.ParentMade) ∧
    s'.machine.kernel.objects.child 1 "e" = some (.event 0) ∧
    s'.machine.kernel.objects.link? (.event 0) = some ⟨"e", 1⟩ ∧
    ∀ seg ∈ later, seg.LeavesNames := by
  obtain ⟨m, past, s, later, s', hm, hfirst, hsecond, htest⟩ := System.exists_play {} {}
    eventInDirectory [(0, .createObject (.event 0) "f" Namespace.rootParent),
      (0, .createDirectory "a" Namespace.rootParent),
      (0, .createDirectory "a/b" Namespace.rootParent),
      (0, .createDirectory "b" ⟨1, .read⟩)]
    (fun past _ later s' => (later ++ past).all (fun seg => decide seg.ParentMade) &&
      (decide (s'.machine.kernel.objects.child 1 "e" = some (.event 0)) &&
        later.all fun seg => seg.creation.any fun p => !p.2.toBool)) (by decide +kernel)
  simp only [Bool.and_eq_true, List.all_eq_true, decide_eq_true_eq] at htest
  obtain ⟨hparents, hchild, hrefused⟩ := htest
  have hrun := (System.runs_of_play hfirst).trans (System.runs_of_play hsecond)
  obtain ⟨hagree, -, -, -, -, -, hleaves⟩ :=
    directories_and_links_agree (Machine.booted_of_boot? hm) hrun hparents
  refine ⟨m, past, s, later, s', hm, hfirst, hsecond, hparents, hchild,
    (hagree 1 "e" (.event 0)).mp hchild, fun seg hseg => ?_⟩
  obtain ⟨⟨l, answer⟩, hc, hanswer⟩ := (Option.any_eq_true _ _).mp (hrefused seg hseg)
  cases answer with
  | ok a => cases hanswer
  | error why => exact (hleaves seg (List.mem_append_left _ hseg) l why hc).2

end Nucleus
