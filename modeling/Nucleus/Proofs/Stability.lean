import Nucleus.Proofs.Resolution
import Nucleus.Proofs.Attachment

/-!
# Names stay

Directories only ever gain entries, so what a path led to once, it leads to always. A new entry
gives a meaning to paths that had none, and to no other: just those that came to its directory and
found that there was nothing of its name. One entry may do this for many paths at once, if it is a
directory with entries of its own that is attached.

* `Namespace.Extends` is the order on namespaces; every segment of every run goes up in it.
* `Extends.resolve_eq` says that paths keep what they lead to, and the rights that are granted
  there.
* `resolve_ne_attach` says which paths the attaching of an object concerns.
-/

namespace Nucleus

variable {G : Guest}

namespace Namespace

variable {ns ns' ns'' : Namespace} {x y start : ObjectId} {l : Link} {d : DirectoryId}
  {g n : String} {gs : List String} {ys : List ObjectId} {path : String} {desired : AccessMask}

/-! ## Namespaces that grow -/

/-- Every entry of a directory is in the other namespace too, and so is every device. -/
structure Extends (ns ns' : Namespace) : Prop where
  /-- the entries -/
  child : ∀ d n x, ns.child d n = some x → ns'.child d n = some x
  /-- the devices -/
  device : ∀ (i : Nat) (dev : Device), ns.devices[i]? = some dev → ns'.devices[i]? = some dev

theorem Extends.refl (ns : Namespace) : ns.Extends ns := ⟨fun _ _ _ h => h, fun _ _ h => h⟩

theorem Extends.trans (h : ns.Extends ns') (h' : ns'.Extends ns'') : ns.Extends ns'' :=
  ⟨fun d n x hx => h'.child d n x (h.child d n x hx),
    fun i dev hi => h'.device i dev (h.device i dev hi)⟩

/-- The entries of all directories after an attachment: the new one counts if no older one has its
name, and if its directory is there. -/
theorem child_attach_eq (ns : Namespace) (x : ObjectId) (l : Link) (d : DirectoryId) (n : String) :
    (ns.attach x l).child d n = (ns.child d n).or
      (if l = ⟨n, d⟩ ∧ d < ns.directories.length then some x else none) := by
  obtain ⟨name, parent⟩ := l
  simp only [child, attach, List.getElem?_modify, Link.mk.injEq]
  by_cases hp : parent = d
  · subst hp
    cases hdir : ns.directories[parent]? with
    | none =>
      have hlen : ¬ parent < ns.directories.length := by
        intro hlt
        rw [List.getElem?_eq_getElem hlt] at hdir
        cases hdir
      simp [hlen]
    | some dir =>
      have hlen : parent < ns.directories.length := (List.getElem?_eq_some_iff.mp hdir).1
      simpa [hlen] using lookup_append dir name x n
  · simp [hp]

theorem extends_attach (ns : Namespace) (x : ObjectId) (l : Link) : ns.Extends (ns.attach x l) where
  child d n y hy := by rw [child_attach_eq, hy, Option.some_or]
  device _ _ h := h

theorem Makes.extends (h : ns.Makes ns') : ns.Extends ns' where
  child d n x hx := (h.child d n).trans hx
  device i dev hi := by
    cases h with
    | nothing => exact hi
    | directory => exact hi
    | device =>
      obtain ⟨hlt, -⟩ := List.getElem?_eq_some_iff.mp hi
      exact (List.getElem?_append_left hlt).trans hi

theorem Step.extends {creation : Option (Link × Outcome Accessor)} (h : ns.Step creation ns') :
    ns.Extends ns' := by
  cases h with
  | make made => exact made.extends
  | refuse made cause => exact made.extends
  | attach made name free unnamed => exact made.extends.trans (extends_attach _ _ _)

/-! ## Paths in a namespace that grows -/

theorem Extends.opens (h : ns.Extends ns') (hx : ns.opens x = some d) : ns'.opens x = some d := by
  cases x with
  | directory => exact hx
  | event => exact hx
  | thread => exact hx
  | device i =>
    obtain ⟨dev, hi, hdev⟩ := Option.bind_eq_some_iff.mp hx
    exact Option.bind_eq_some_iff.mpr ⟨dev, h.device i dev hi, hdev⟩

/-- A device is there, and everything that is no device is. -/
def Present (ns : Namespace) (x : ObjectId) : Prop := ∀ i, x = .device i → i < ns.devices.length

theorem present_of_opens (hx : ns.opens x = some d) : ns.Present x := by
  rintro i rfl
  obtain ⟨dev, hi, -⟩ := Option.bind_eq_some_iff.mp hx
  exact (List.getElem?_eq_some_iff.mp hi).1

theorem Extends.valid (h : ns.Extends ns') (hx : ns.Present x) : ns'.valid x = ns.valid x := by
  cases x with
  | directory => rfl
  | event => rfl
  | thread => rfl
  | device i =>
    have hi := List.getElem?_eq_getElem (hx i rfl)
    simp only [Namespace.valid, hi, h.device i _ hi]

theorem Extends.enters (h : ns.Extends ns') (hy : ns.Enters x g y) : ns'.Enters x g y := by
  obtain ⟨hg, d, hd, hchild⟩ := hy
  exact ⟨hg, d, h.opens hd, h.child d g y hchild⟩

theorem Extends.chain (h : ns.Extends ns') (chain : ns.Chain x gs ys) : ns'.Chain x gs ys := by
  induction chain with
  | nil x => exact .nil x
  | cons enters _ ih => exact .cons (h.enters enters) ih

/-- Whatever the directories list is there. -/
def Listed (ns : Namespace) : Prop := ∀ d n x, ns.child d n = some x → ns.Present x

theorem Extends.present (h : ns.Extends ns') (hx : ns.Present x) : ns'.Present x := by
  rintro i rfl
  exact (List.getElem?_eq_some_iff.mp
    (h.device i _ (List.getElem?_eq_getElem (hx i rfl)))).1

theorem Step.listed {creation : Option (Link × Outcome Accessor)} (h : ns.Step creation ns')
    (listed : ns.Listed) (present : ∀ l a, creation = some (l, .ok a) → ns'.Present a.object) :
    ns'.Listed := by
  intro d n x hx
  by_cases hold : ns.child d n = some x
  · exact h.extends.present (listed d n x hold)
  · cases h with
    | make made => exact absurd ((made.child d n).symm.trans hx) hold
    | refuse made cause => exact absurd ((made.child d n).symm.trans hx) hold
    | @attach ns' l a made name free unnamed =>
      -- an entry that was not there before is the new one
      rw [child_attach_eq, made.child] at hx
      rcases Option.or_eq_some_iff.mp hx with hx | ⟨-, hx⟩
      · exact absurd hx hold
      · split at hx
        · cases hx
          exact present l a rfl
        · cases hx

theorem Listed.of_chain (listed : ns.Listed) (chain : ns.Chain x gs ys) :
    ∀ y ∈ ys, ns.Present y := by
  induction chain with
  | nil => exact List.forall_mem_nil _
  | cons enters _ ih =>
    obtain ⟨-, d, -, hchild⟩ := enters
    exact List.forall_mem_cons.mpr ⟨listed _ _ _ hchild, ih⟩

/-- **A path keeps what it leads to**, and what is granted there of any rights asked for. -/
theorem Extends.resolve_eq (h : ns.Extends ns') (listed : ns.Listed) {st : AccessState}
    (hr : ns.resolve start path desired = .ok (x, st)) :
    ns'.resolve start path desired = .ok (x, st) := by
  obtain ⟨r, hres⟩ := ns.exists_resolution start (Path.relative path.toList) desired
  rw [hres.resolve_eq] at hr
  cases hres with
  | closed => cases hr
  | lost => cases hr
  | self hstart empty =>
    obtain ⟨d, hd⟩ := Option.isSome_iff_exists.mp hstart
    rw [← hr, ← h.valid (present_of_opens hd)]
    exact (Resolution.self (Option.isSome_of_eq_some (h.opens hd)) empty).resolve_eq
  | @found ys hstart nonempty chain =>
    obtain ⟨d, hd⟩ := Option.isSome_iff_exists.mp hstart
    rw [← hr, ← List.map_congr_left fun y hy => h.valid (listed.of_chain chain y hy)]
    exact (Resolution.found (Option.isSome_of_eq_some (h.opens hd)) nonempty
      (h.chain chain)).resolve_eq

/-- Whether a path leads somewhere, and where, does not depend on the rights asked for. -/
theorem resolve_of_desired {st : AccessState} (hr : ns.resolve start path desired = .ok (x, st))
    (desired' : AccessMask) : ∃ st', ns.resolve start path desired' = .ok (x, st') := by
  obtain ⟨r, hres⟩ := ns.exists_resolution start (Path.relative path.toList) desired
  rw [hres.resolve_eq] at hr
  cases hres with
  | closed => cases hr
  | lost => cases hr
  | self hstart empty =>
    cases hr
    exact ⟨_, (Resolution.self hstart empty).resolve_eq⟩
  | found hstart nonempty chain =>
    cases hr
    exact ⟨_, (Resolution.found hstart nonempty chain).resolve_eq⟩

/-! ## One entry more -/

/-- The path comes from the start to the directory of the link, and goes on with the name. -/
def Reaches (ns : Namespace) (start : ObjectId) (path : String) (l : Link) : Prop :=
  ∃ before after ys,
    ((Path.relative path.toList).splitOn '/').map String.ofList = before ++ l.name :: after ∧
      ns.Chain start before ys ∧ ns.opens (ys.getLastD start) = some l.parent

/-- **Whom a new entry concerns**: a path that reached its directory, and found that there was
nothing of its name. -/
theorem resolve_ne_of_entry (h : ns.Extends ns') (hdevices : ns'.devices = ns.devices)
    (hnew : ∀ d n y, ns.child d n = none → ns'.child d n = some y → l = ⟨n, d⟩)
    (hne : ns'.resolve start path desired ≠ ns.resolve start path desired) :
    ns.resolve start path desired = .error .notFound ∧ ns.Reaches start path l := by
  have hopens : ns'.opens = ns.opens := by
    funext x
    cases x <;> simp [opens, hdevices]
  have hvalid : ns'.valid = ns.valid := by
    funext x
    cases x <;> simp [valid, hdevices]
  obtain ⟨r, hres⟩ := ns.exists_resolution start (Path.relative path.toList) desired
  have hr := hres.resolve_eq
  -- had it led somewhere, or failed at the start, it would do so now
  cases hres with
  | closed hclosed =>
    exact absurd ((Resolution.closed (hopens ▸ hclosed)).resolve_eq.trans hr.symm) hne
  | self hstart empty =>
    rw [← hopens] at hstart
    rw [← hvalid] at hr
    exact absurd ((Resolution.self hstart empty).resolve_eq.trans hr.symm) hne
  | found hstart nonempty chain =>
    rw [← hopens] at hstart
    rw [← hvalid] at hr
    exact absurd ((Resolution.found hstart nonempty (h.chain chain)).resolve_eq.trans hr.symm) hne
  | @lost before after g ys hstart nonempty segments chain nowhere =>
    by_cases hnow : ∃ y, ns'.Enters (ys.getLastD start) g y
    · obtain ⟨y, hg, d, hd, hchild⟩ := hnow
      rw [hopens] at hd
      have hfree : ns.child d g = none := by
        cases hold : ns.child d g with
        | none => rfl
        | some z => exact absurd ⟨hg, d, hd, hold⟩ (nowhere z)
      cases hnew d g y hfree hchild
      rw [hr, fault, if_neg fun h => hg h.2]
      exact ⟨rfl, before, after, ys, segments, chain, hd⟩
    · -- the segment leads nowhere still, and for the same cause
      rw [← hopens] at hstart
      have hfault : ns'.fault (ys.getLastD start) g = ns.fault (ys.getLastD start) g := by
        rw [fault, hopens, ← fault]
      rw [← hfault] at hr
      exact absurd ((Resolution.lost hstart nonempty segments (h.chain chain)
        (not_exists.mp hnow)).resolve_eq.trans hr.symm) hne

/-- A name is a path of one segment. -/
theorem resolve_name (hn : Path.isName n = true) (hchild : ns.child d n = some x)
    (desired : AccessMask) : ns.resolve (.directory d) n desired =
      .ok (x, (AccessState.new desired).step (ns.valid x)) := by
  obtain ⟨hne, hsep⟩ := Path.isName_iff.mp hn
  have hnil : n.toList ≠ [] := fun h => hne (String.toList_eq_nil_iff.mp h)
  have hrelative : Path.relative n.toList = n.toList := by
    rw [Path.relative]
    rintro cs hcs
    exact hsep (hcs ▸ List.mem_cons_self)
  have hsegments : ((Path.relative n.toList).splitOn '/').map String.ofList = [n] := by
    have hsplit : (['/'].intercalate [n.toList]).splitOn '/' = [n.toList] :=
      List.splitOn_intercalate '/' (by simpa using hsep) (by simp)
    rw [List.intercalate_singleton] at hsplit
    rw [hrelative, hsplit]
    simp
  have hchain : ns.Chain (.directory d) [n] [x] := .cons ⟨hne, d, rfl, hchild⟩ (.nil x)
  rw [← hsegments] at hchain
  exact (Resolution.found rfl (hrelative.symm ▸ hnil) hchain).resolve_eq

end Namespace

/-! ## Runs -/

/-- The device that an operation was to give a name to. -/
def Op.device? : Op G → Option Nat
  | createObject (.device i) _ _ => some i
  | _ => none

namespace Segment

variable {seg : Segment G} {l : Link} {a : Accessor}

/-- A device that a segment was to give a name to is there. -/
def DeviceMade (seg : Segment G) : Prop :=
  ∀ i ∈ seg.op.device?, i < seg.before.objects.devices.length

instance (seg : Segment G) : Decidable seg.DeviceMade :=
  inferInstanceAs (Decidable (∀ i ∈ seg.op.device?, i < seg.before.objects.devices.length))

/-- Giving a name makes no device. -/
theorem Sound.devices_eq (hseg : seg.Sound) {p : Link × Outcome Accessor}
    (h : seg.creation = some p) : seg.after.objects.devices = seg.before.objects.devices := by
  have hcreate (x : ObjectId) (name : String) (parent : Parent) (k : Kernel G) :
      (Effect.createObject x name parent k).1.objects.devices = k.objects.devices := by
    simp only [Effect.createObject]
    cases hk : k.objects.create x name parent with
    | error why => rfl
    | ok objects =>
      obtain ⟨-, -, -, -, rfl⟩ := Namespace.create_eq_ok_iff.mp hk
      rfl
  cases hseg with
  | @whole core op f k managed valid effect =>
    cases op with
    | createObject x name parent =>
      cases effect
      exact hcreate x name parent k
    | createDirectory name parent =>
      cases effect
      exact hcreate _ name parent _
    | createEvent name autoReset parent =>
      cases effect
      exact hcreate _ name parent _
    | _ => cases h
  | @client core op first k k' answer noEffect path =>
    cases op with
    | createObject | createDirectory | createEvent => cases noEffect
    | _ => cases answer <;> cases h
  | paused => cases h
  | resumed => cases h

/-- An object that is given a name is there, if it is when it is a device. -/
theorem Sound.present (hseg : seg.Sound) (made : seg.DeviceMade)
    (h : seg.creation = some (l, .ok a)) : seg.after.objects.Present a.object := by
  rintro i hi
  rw [hseg.devices_eq h]
  rcases hseg.names_object h with ⟨name, parent, hop⟩ | ⟨e, he⟩ | hd
  · rw [DeviceMade, hop, hi] at made
    exact made i rfl
  · cases he.symm.trans hi
  · cases hd.symm.trans hi

/-- **One creation that succeeds**: the name leads to the object, and the creation concerns only
paths that reached its directory and found nothing of the name there. -/
theorem Sound.resolve_created (hseg : seg.Sound) (made : seg.ParentMade)
    (h : seg.creation = some (l, .ok a)) :
    (∀ desired, seg.after.objects.resolve (.directory l.parent) l.name desired =
      .ok (a.object, (AccessState.new desired).step (seg.after.objects.valid a.object))) ∧
    ∀ start path desired, seg.after.objects.resolve start path desired ≠
        seg.before.objects.resolve start path desired →
      seg.before.objects.resolve start path desired = .error .notFound ∧
        seg.before.objects.Reaches start path l := by
  have hdevices := hseg.devices_eq h
  have hnames := hseg.names
  have hparent := made _ h
  rw [h] at hnames
  have hextends := hnames.extends
  generalize seg.after.objects = after at hdevices hnames hextends ⊢
  cases hnames with
  | @attach ns' _ _ grown name free unnamed =>
    have hd : l.parent < ns'.directories.length :=
      Nat.lt_of_lt_of_le hparent grown.length_directories
    refine ⟨fun desired => Namespace.resolve_name name ?_ desired, fun start path desired =>
      Namespace.resolve_ne_of_entry hextends hdevices fun d n y hold hy => ?_⟩
    · rw [Namespace.child_attach hd free, if_pos rfl]
    · rw [Namespace.child_attach hd free, grown.child, hold] at hy
      split at hy
      next hl => exact hl
      next => cases hy

end Segment

namespace System

variable {m : Machine G} {s₀ s : System G} {history : List (Segment G)}

/-- **A whole run only adds to the names.** -/
theorem Runs.extends (run : Runs s₀ history s) (h₀ : ∀ task ∈ s₀.tasks, task.Sound) :
    s₀.machine.kernel.objects.Extends s.machine.kernel.objects :=
  (run.keeps (I := fun k => s₀.machine.kernel.objects.Extends k.objects) (P := fun _ => True) h₀
    (fun _ _ => trivial) (fun _ _ hseg h => h.trans hseg.names.extends) (.refl _)).1

/-- **A whole run lists nothing that is not there.** -/
theorem Runs.listed (booted : m.Booted) (run : Runs ⟨m, []⟩ history s)
    (devices : ∀ seg ∈ history, seg.DeviceMade) : s.machine.kernel.objects.Listed := by
  refine (run.keeps (I := fun k => k.objects.Listed) forall_tasks_start devices
    (fun _ made hseg h => hseg.names.listed h fun l a => hseg.present made) ?_).1
  intro d n x hx
  rw [booted.objects, (Namespace.coherent_empty.agree d n x)] at hx
  cases hx

end System

/-- **Names stay.** Take a run from a boot in which the devices that are given names are there, and
then any run that goes on from its end. A path that leads to an object leads to the same object ever
after, with the same rights granted of any that are asked for. Of the creations in the second run,
in directories that are there: one that succeeds makes its name lead from its directory to its
object; and every path that it gives another outcome had found nothing before, and had reached the
directory and gone on with the name there. -/
theorem resolution_is_stable {m : Machine G} {s s' : System G} {past later : List (Segment G)}
    (booted : m.Booted) (run : System.Runs ⟨m, []⟩ past s) (run' : System.Runs s later s')
    (devices : ∀ seg ∈ past, seg.DeviceMade) (parents : ∀ seg ∈ later, seg.ParentMade) :
    (∀ start path desired₀ x st₀,
      s.machine.kernel.objects.resolve start path desired₀ = .ok (x, st₀) → ∀ desired, ∃ st,
        s.machine.kernel.objects.resolve start path desired = .ok (x, st) ∧
          s'.machine.kernel.objects.resolve start path desired = .ok (x, st)) ∧
    ∀ seg ∈ later, ∀ l a, seg.creation = some (l, .ok a) →
      (∀ desired, seg.after.objects.resolve (.directory l.parent) l.name desired =
        .ok (a.object, (AccessState.new desired).step (seg.after.objects.valid a.object))) ∧
      ∀ start path desired, seg.after.objects.resolve start path desired ≠
          seg.before.objects.resolve start path desired →
        seg.before.objects.resolve start path desired = .error .notFound ∧
          seg.before.objects.Reaches start path l := by
  obtain ⟨-, htasks⟩ := run.sound System.forall_tasks_start
  constructor
  · intro start path desired₀ x st₀ hr desired
    obtain ⟨st, hst⟩ := Namespace.resolve_of_desired hr desired
    exact ⟨st, hst, (run'.extends htasks).resolve_eq (run.listed booted devices) hst⟩
  · intro seg hseg l a h
    exact ((run'.sound htasks).1 seg hseg).resolve_created (parents seg hseg) h

/-- Make a directory without a name, an event in it, and another directory under the root. -/
def detachedEvent : List (CoreId × Op ⟨Unit, Unit⟩) :=
  [(0, .newDirectory), (0, .createEvent "e" false ⟨1, .readWrite⟩),
    (0, .createDirectory "b" Namespace.rootParent)]

/-- The directory with the event in it is attached to the root as `a`. The path `/b` leads to the
other directory still, the path `a/e` had led nowhere and leads to the event now, and it had come to
the root and gone on with `a`. -/
theorem event_appears_with_its_directory : ∃ m past s later s',
    Machine.boot? {} {} = some m ∧ System.play ⟨m, []⟩ detachedEvent = some (past, s) ∧
    s.play [(0, .createObject (.directory 1) "a" Namespace.rootParent),
      (0, .createDirectory "b" Namespace.rootParent)] = some (later, s') ∧
    (∀ desired, ∃ st, s.machine.kernel.objects.resolve Namespace.root "/b" desired =
        .ok (.directory 2, st) ∧
      s'.machine.kernel.objects.resolve Namespace.root "/b" desired = .ok (.directory 2, st)) ∧
    ∃ seg ∈ later, (seg.after.objects.resolve Namespace.root "a/e" .all).toBool ∧
      seg.before.objects.resolve Namespace.root "a/e" .all = .error .notFound ∧
      seg.before.objects.Reaches Namespace.root "a/e" ⟨"a", 0⟩ := by
  obtain ⟨m, past, s, later, s', hm, hfirst, hsecond, htest⟩ := System.exists_play {} {}
    detachedEvent [(0, .createObject (.directory 1) "a" Namespace.rootParent),
      (0, .createDirectory "b" Namespace.rootParent)]
    (fun past s later _ => past.all (fun seg => decide seg.DeviceMade) &&
      (later.all (fun seg => decide seg.ParentMade) &&
        (decide ((s.machine.kernel.objects.resolve Namespace.root "/b" .none).toOption.map (·.1) =
            some (.directory 2)) &&
          later.any fun seg => seg.creation.any (fun p => p.1 = ⟨"a", 0⟩ && p.2.toBool) &&
            ((seg.after.objects.resolve Namespace.root "a/e" .all).toBool &&
              !(seg.before.objects.resolve Namespace.root "a/e" .all).toBool))))
    (by decide +kernel)
  simp only [Bool.and_eq_true, List.all_eq_true, List.any_eq_true, Option.any_eq_true,
    decide_eq_true_eq, Bool.not_eq_true'] at htest
  obtain ⟨hdevices, hparents, hb, seg, hseg, hseg', hafter, hbefore⟩ := htest
  obtain ⟨⟨l, answer⟩, hcreation, hl, hanswer⟩ := hseg'
  obtain ⟨hstays, hcreated⟩ := resolution_is_stable (Machine.booted_of_boot? hm)
    (System.runs_of_play hfirst) (System.runs_of_play hsecond) hdevices hparents
  refine ⟨m, past, s, later, s', hm, hfirst, hsecond, ?_, seg, hseg, hafter, ?_⟩
  · cases hr : s.machine.kernel.objects.resolve Namespace.root "/b" .none with
    | error why =>
      rw [hr] at hb
      cases hb
    | ok r =>
      obtain ⟨x, st⟩ := r
      rw [hr] at hb
      cases hb
      exact hstays _ _ _ _ _ hr
  · cases answer with
    | error why => cases hanswer
    | ok a =>
      cases hl
      refine (hcreated seg hseg _ a hcreation).2 _ _ _ fun heq => ?_
      rw [heq, hbefore] at hafter
      cases hafter

end Nucleus
