import Nucleus.Proofs.Rights
import Nucleus.Proofs.Ancestry

/-!
# Up and down again

The path of an object is made by going up from it, and it is read by going down from the top.
`open_fullPath` says that the one undoes the other: whoever opens the path of an object from the top
above it gets the object, with those of the rights asked for that exist on it.

Three things have to come together. The names are found again in the text, since a name is not empty
and has no separator in it. Going down by the names comes by the objects that going up came by,
since directories and links agree. And the rights that the last object allows are all still wanted
when the walk comes to it, since all objects on the way are directories and allow the same.
-/

namespace Nucleus

variable {G : Guest}

/-! ## The text -/

namespace Path

/-- Names with a separator before each are a separator, and then the names with one between any
two. -/
theorem toList_join_cons (n : String) (names : List String) :
    (String.join ((n :: names).map fun n => "/" ++ n)).toList =
      '/' :: ['/'].intercalate ((n :: names).map String.toList) := by
  induction names generalizing n with
  | nil => simp
  | cons n' names ih =>
    have h := ih n'
    simp only [List.map_cons, String.toList_join, List.flatMap_cons] at h ⊢
    rw [h, List.intercalate_cons_cons]
    simp

/-- The names are found again between the separators. -/
theorem splitOn_relative_join {names : List String} (h : names ≠ [])
    (hnames : ∀ n ∈ names, isName n = true) :
    relative (String.join (names.map fun n => "/" ++ n)).toList ≠ [] ∧
      ((relative (String.join (names.map fun n => "/" ++ n)).toList).splitOn '/').map
        String.ofList = names := by
  obtain ⟨n, names, rfl⟩ := List.exists_cons_of_ne_nil h
  rw [toList_join_cons, relative]
  have hsplit : (['/'].intercalate ((n :: names).map String.toList)).splitOn '/' =
      (n :: names).map String.toList := by
    refine List.splitOn_intercalate '/' (fun cs hcs => ?_) (by simp)
    obtain ⟨n', hn', rfl⟩ := List.mem_map.mp hcs
    exact (isName_iff.mp (hnames n' hn')).2
  constructor
  · -- no text at all is one empty piece, and the first name is not empty
    intro hnil
    rw [hnil] at hsplit
    have hn : n.toList = [] := (List.cons.inj hsplit).1.symm
    exact (isName_iff.mp (hnames n List.mem_cons_self)).1 (String.toList_eq_nil_iff.mp hn)
  · rw [hsplit, List.map_map]
    simp

end Path

/-! ## The objects -/

namespace Namespace

variable {ns : Namespace} {x y start : ObjectId} {D p : DirectoryId} {names gs : List String}
  {ys : List ObjectId} {g : String} {desired : AccessMask}

/-- One segment more at the end. -/
theorem Chain.snoc (h : ns.Chain x gs ys) (enters : ns.Enters (ys.getLastD x) g y) :
    ns.Chain x (gs ++ [g]) (ys ++ [y]) := by
  induction h with
  | nil x => exact .cons enters (.nil y)
  | cons first _ ih =>
    rw [List.getLastD_cons] at enters
    exact .cons first (ih enters)

/-- The link of an object leads down from its directory to the object. -/
theorem Coherent.enters (hns : ns.Coherent) {l : Link} (hl : ns.link? x = some l) :
    ns.Enters (.directory l.parent) l.name x :=
  ⟨(Path.isName_iff.mp (hns.named x l hl)).1, l.parent, rfl, (hns.agree _ _ _).mpr hl⟩

/-- What an object is called on the way up are names. -/
theorem Climbs.isName (hns : ns.Coherent) {top : ObjectId} (h : ns.Climbs x names top) :
    ∀ n ∈ names, Path.isName n = true := by
  induction h with
  | top => exact List.forall_mem_nil _
  | up linked _ ih =>
    intro n hn
    rcases List.mem_append.mp hn with hn | hn
    · exact ih n hn
    · rw [List.mem_singleton.mp hn]
      exact hns.named _ _ linked

/-- The names on the way up from a directory lead down to it again, through directories only. -/
theorem Climbs.exists_directories (hns : ns.Coherent)
    (h : ns.Climbs (.directory p) names (.directory D)) :
    ∃ ds : List DirectoryId, ns.Chain (.directory D) names (ds.map .directory) ∧
      (ds.map ObjectId.directory).getLastD (.directory D) = .directory p := by
  generalize hx : ObjectId.directory p = x at h
  generalize hD : ObjectId.directory D = top at h ⊢
  induction h generalizing p with
  | top => exact ⟨[], .nil _, hx.symm ▸ rfl⟩
  | @up x top l names linked rest ih =>
    obtain ⟨ds, chain, hlast⟩ := ih rfl hD
    refine ⟨ds ++ [p], ?_, by simp [hx]⟩
    rw [List.map_append, List.map_singleton, hx]
    exact chain.snoc (hlast ▸ hns.enters linked)

/-- A path that is written with the names of a chain leads along the chain. -/
theorem Chain.resolve_join (chain : ns.Chain start (gs ++ [g]) (ys ++ [x]))
    (hstart : (ns.opens start).isSome) (hnames : ∀ n ∈ gs ++ [g], Path.isName n = true)
    (desired : AccessMask) :
    ns.resolve start (String.join ((gs ++ [g]).map fun n => "/" ++ n)) desired =
      .ok (x, (AccessState.new desired).visit (ys.map ns.valid ++ [ns.valid x])) := by
  obtain ⟨hnonempty, hsegments⟩ := Path.splitOn_relative_join (by simp) hnames
  rw [← hsegments] at chain
  rw [(Resolution.found hstart hnonempty chain).resolve_eq]
  simp

/-- **Down again.** The path of an object leads from the top to the object, and the rights that are
granted are those of the object. -/
theorem Climbs.resolve_eq (hns : ns.Coherent) (h : ns.Climbs x names (.directory D)) :
    ∃ path, ns.fullPath? x = some path ∧ ∀ desired : AccessMask, desired.Subset .all →
      ∃ st : AccessState, ns.resolve (.directory D) path desired = .ok (x, st) ∧
        st.granted = desired.inter (ns.valid x) := by
  refine ⟨_, h.fullPath?_eq, fun desired hdesired => ?_⟩
  cases h with
  | top unnamed =>
    exact ⟨_, (Resolution.self rfl rfl).resolve_eq,
      AccessState.granted_visit_append (u := .none) hdesired [] (List.forall_mem_nil _) _⟩
  | @up _ _ l names linked rest =>
    obtain ⟨ds, chain, hlast⟩ := rest.exists_directories hns
    have hchain := chain.snoc (hlast ▸ hns.enters linked)
    have hnames := (Climbs.up linked rest).isName hns
    rw [if_neg (by simp)]
    refine ⟨_, hchain.resolve_join rfl hnames desired,
      AccessState.granted_visit_append (u := .readWrite) hdesired _ (fun w hw => ?_) _⟩
    -- all objects on the way are directories
    simp only [List.map_map, List.mem_map] at hw
    obtain ⟨d, -, rfl⟩ := hw
    rfl

end Namespace

/-- **Paths are read as they are written.** Take a run from a boot in which names are given in
directories that are there, and at its end an object above which a directory is at the top. The
object has a path; opening this path from the directory, as what the object is, gives the object
with those of the rights asked for that exist on it; and no other object below the same directory
has this path. -/
theorem open_fullPath {m : Machine G} {s : System G} {history : List (Segment G)} {x : ObjectId}
    {D : DirectoryId} (booted : m.Booted) (run : System.Runs ⟨m, []⟩ history s)
    (parents : ∀ seg ∈ history, seg.ParentMade)
    (top : s.machine.kernel.objects.TopOf x (.directory D)) :
    ∃ path, s.machine.kernel.objects.fullPath? x = some path ∧
      (∀ desired : AccessMask, desired.Subset .all →
        s.machine.kernel.objects.openFrom (.directory D) x.kind path desired =
          .ok ⟨x, desired.inter (s.machine.kernel.objects.valid x)⟩) ∧
      ∀ y, s.machine.kernel.objects.TopOf y (.directory D) →
        s.machine.kernel.objects.fullPath? y = some path → y = x := by
  have hns := (run.coherent booted parents).1
  generalize s.machine.kernel.objects = ns at hns top ⊢
  obtain ⟨names, hclimbs⟩ := top.exists_climbs
  obtain ⟨path, hpath, hresolve⟩ := hclimbs.resolve_eq hns
  refine ⟨path, hpath, fun desired hdesired => ?_, fun y hy hpath' => ?_⟩
  · obtain ⟨st, hst, hgranted⟩ := hresolve desired hdesired
    rw [Namespace.openFrom, hst]
    simp [hgranted]
  · -- the one path leads to both
    obtain ⟨names', hclimbs'⟩ := hy.exists_climbs
    obtain ⟨_, hpath'', hresolve'⟩ := hclimbs'.resolve_eq hns
    cases hpath'.symm.trans hpath''
    obtain ⟨st, hst, -⟩ := hresolve .none rfl
    obtain ⟨st', hst', -⟩ := hresolve' .none rfl
    cases hst.symm.trans hst'
    rfl

/-- The event in a directory, opened by its path from the root with every right asked for: one may
read and write it. -/
theorem event_opened_by_its_path : ∃ m past s later s',
    Machine.boot? {} {} = some m ∧ System.play ⟨m, []⟩ eventInDirectory = some (past, s) ∧
    s.play [(0, .createObject (.event 0) "f" Namespace.rootParent)] = some (later, s') ∧
    s'.machine.kernel.objects.fullPath? (.event 0) = some "/a/e" ∧
    s'.machine.kernel.objects.openFrom Namespace.root .event "/a/e" .all =
      .ok ⟨.event 0, .readWrite⟩ := by
  obtain ⟨m, past, s, later, s', hm, hfirst, hsecond, htest⟩ := System.exists_play {} {}
    eventInDirectory [(0, .createObject (.event 0) "f" Namespace.rootParent)]
    (fun past _ later s' => (later ++ past).all (fun seg => decide seg.ParentMade) &&
      (decide (s'.machine.kernel.objects.link? (.event 0) = some ⟨"e", 1⟩) &&
        (decide (s'.machine.kernel.objects.link? (.directory 1) = some ⟨"a", 0⟩) &&
          (decide (s'.machine.kernel.objects.link? (.directory 0) = none) &&
            decide (s'.machine.kernel.objects.fullPath? (.event 0) = some "/a/e")))))
    (by decide +kernel)
  simp only [Bool.and_eq_true, List.all_eq_true, decide_eq_true_eq] at htest
  obtain ⟨hparents, hevent, hdirectory, hroot, hfull⟩ := htest
  have hrun := (System.runs_of_play hfirst).trans (System.runs_of_play hsecond)
  have htop : s'.machine.kernel.objects.TopOf (.event 0) (.directory 0) :=
    ⟨.head ⟨_, hevent, rfl⟩ (.single ⟨_, hdirectory, rfl⟩), hroot⟩
  obtain ⟨path, hpath, hopen, -⟩ := open_fullPath (Machine.booted_of_boot? hm) hrun hparents htop
  cases hfull.symm.trans hpath
  have hgranted : AccessMask.all.inter .readWrite = .readWrite := by decide
  exact ⟨m, past, s, later, s', hm, hfirst, hsecond, hfull, hgranted ▸ hopen .all rfl⟩

end Nucleus
