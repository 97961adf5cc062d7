import Nucleus.Path

/-!
# What a path means

A path is read from left to right, one segment after the other, and each segment leads from an
object to the next. `Namespace.Resolution` says what a path means without following it: which
chains of objects belong to it, and, where there is none, which segment is the first that leads
nowhere and what is wrong with it. `resolve_iff_grammar` says that following a path gives just
this meaning.

An object leads on if it opens a directory. Directories open themselves; of the other objects only
a client's own may open one, and where no client does this, the objects that lead on are the
directories.
-/

namespace Nucleus

namespace Path

/-- The pieces of a text are what stands between its separators. -/
theorem cut_eq_splitOn (s : List Char) : cut s = s.splitOn '/' := by
  induction s with
  | nil => rfl
  | cons c cs ih =>
    obtain ⟨g, gs, hg⟩ := List.exists_cons_of_ne_nil (cut_ne_nil cs)
    simp only [cut, hg]
    rw [List.splitOn, List.splitOnP_cons_eq_if_modifyHead, ← List.splitOn, ← ih, hg]
    by_cases hc : c = '/' <;> simp [hc]

theorem segments_ne_nil (s : List Char) : segments s ≠ [] := by
  simp [segments, cut_ne_nil]

end Path

namespace Namespace

variable {ns : Namespace} {x y : ObjectId} {g : String} {gs rest : List String}
  {ys : List ObjectId} {desired : AccessMask}

/-- A segment leads from an object to another: it is not empty, and the directory that the object
opens maps it. -/
def Enters (ns : Namespace) (x : ObjectId) (g : String) (y : ObjectId) : Prop :=
  g ≠ "" ∧ ∃ d, ns.opens x = some d ∧ ns.child d g = some y

/-- Segments lead from an object through others, the last of them being where they lead to. -/
inductive Chain (ns : Namespace) : ObjectId → List String → List ObjectId → Prop where
  /-- no segment, no object -/
  | nil (x : ObjectId) : Chain ns x [] []
  /-- a segment leads to an object, and the others from there -/
  | cons {x y : ObjectId} {g : String} {gs : List String} {ys : List ObjectId}
    (enters : ns.Enters x g y) (rest : Chain ns y gs ys) : Chain ns x (g :: gs) (y :: ys)

/-- What is wrong with a segment that leads nowhere: it is empty although it is a directory that
has to read it, or there is nothing of that name. -/
def fault (ns : Namespace) (x : ObjectId) (g : String) : KernelError :=
  if (ns.opens x).isSome ∧ g = "" then .invalidPath else .notFound

/-- **The meaning of a path** from an object, of which `s` is what is left without a separator at
its start. Rights are folded over the objects of the chain, and over the start only if the chain is
empty. -/
inductive Resolution (ns : Namespace) (start : ObjectId) (s : List Char) (desired : AccessMask) :
    Outcome (ObjectId × AccessState) → Prop where
  /-- the start opens no directory -/
  | closed (h : ns.opens start = none) : Resolution ns start s desired (.error .invalidPath)
  /-- the empty path -/
  | self (h : (ns.opens start).isSome) (empty : s = []) :
    Resolution ns start s desired (.ok (start, (AccessState.new desired).visit [ns.valid start]))
  /-- every segment leads to an object -/
  | found {ys : List ObjectId} (h : (ns.opens start).isSome) (nonempty : s ≠ [])
    (chain : ns.Chain start ((s.splitOn '/').map String.ofList) ys) :
    Resolution ns start s desired
      (.ok (ys.getLastD start, (AccessState.new desired).visit (ys.map ns.valid)))
  /-- the segments before `g` lead to objects, and `g` leads nowhere -/
  | lost {before after : List String} {g : String} {ys : List ObjectId}
    (h : (ns.opens start).isSome) (nonempty : s ≠ [])
    (segments : (s.splitOn '/').map String.ofList = before ++ g :: after)
    (chain : ns.Chain start before ys) (nowhere : ∀ y, ¬ ns.Enters (ys.getLastD start) g y) :
    Resolution ns start s desired (.error (ns.fault (ys.getLastD start) g))

/-! ## Following segments from an object -/

/-- Follow segments from an object: `walk`, with the object in the place of the directory that it
opens. -/
def follow (ns : Namespace) : ObjectId → List String → AccessState →
    Outcome (ObjectId × AccessState)
  | x, [], st => .ok (x, st)
  | x, g :: gs, st =>
    match ns.opens x with
    | none => .error .notFound
    | some d =>
      if g = "" then .error .invalidPath
      else match ns.child d g with
        | none => .error .notFound
        | some y => ns.follow y gs (st.step (ns.valid y))

/-- A walk from the directory that an object opens follows the segments from the object. -/
theorem walk_eq_follow {d : DirectoryId} (h : ns.opens x = some d) (g : String) (gs : List String)
    (st : AccessState) : ns.walk d (g :: gs) st = ns.follow x (g :: gs) st := by
  induction gs generalizing d x g st with
  | nil =>
    rw [walk, follow, h]
    by_cases hg : g = ""
    · simp [hg]
    · cases hy : ns.child d g <;> simp [hg, hy, follow]
  | cons g' gs ih =>
    rw [walk, follow, h]
    by_cases hg : g = ""
    · simp [hg]
    · simp only [String.isEmpty_iff, if_neg hg]
      cases ns.child d g with
      | none => rfl
      | some y =>
        dsimp only
        cases hy : ns.opens y with
        | none =>
          rw [follow, hy]
        | some d' => exact ih hy g' (st.step (ns.valid y))

/-- Along a chain, following goes from object to object, and folds the rights of each. -/
theorem Chain.follow (h : ns.Chain x gs ys) (rest : List String) (st : AccessState) :
    ns.follow x (gs ++ rest) st =
      ns.follow (ys.getLastD x) rest (st.visit (ys.map ns.valid)) := by
  induction h generalizing st with
  | nil x => rfl
  | @cons x y g gs ys enters _ ih =>
    obtain ⟨hg, d, hd, hy⟩ := enters
    rw [List.cons_append, Namespace.follow, hd]
    simp only [if_neg hg, hy]
    rw [ih, List.getLastD_cons]
    rfl

/-- A segment that leads nowhere ends it. -/
theorem follow_of_nowhere (h : ∀ y, ¬ ns.Enters x g y) (st : AccessState) :
    ns.follow x (g :: gs) st = .error (ns.fault x g) := by
  rw [follow, fault]
  cases hd : ns.opens x with
  | none => simp
  | some d =>
    by_cases hg : g = ""
    · simp [hg]
    · cases hy : ns.child d g with
      | none => simp [hg, hy]
      | some y => exact absurd ⟨hg, d, hd, hy⟩ (h y)

/-- Segments lead through objects, or one of them is the first that leads nowhere. -/
theorem exists_chain (ns : Namespace) (x : ObjectId) (gs : List String) :
    (∃ ys, ns.Chain x gs ys) ∨ ∃ before g after ys, gs = before ++ g :: after ∧
      ns.Chain x before ys ∧ ∀ y, ¬ ns.Enters (ys.getLastD x) g y := by
  induction gs generalizing x with
  | nil => exact .inl ⟨[], .nil x⟩
  | cons g gs ih =>
    by_cases h : ∃ y, ns.Enters x g y
    · obtain ⟨y, hy⟩ := h
      rcases ih y with ⟨ys, chain⟩ | ⟨before, g', after, ys, rfl, chain, nowhere⟩
      · exact .inl ⟨y :: ys, .cons hy chain⟩
      · exact .inr ⟨g :: before, g', after, y :: ys, rfl, .cons hy chain,
          by rwa [List.getLastD_cons]⟩
    · exact .inr ⟨[], g, gs, [], rfl, .nil x, not_exists.mp h⟩

/-! ## Resolving -/

/-- A path that is not empty is resolved by following its segments. -/
theorem resolve_eq_follow {path : String} (h : (ns.opens x).isSome)
    (hs : Path.relative path.toList ≠ []) :
    ns.resolve x path desired = ns.follow x
      (((Path.relative path.toList).splitOn '/').map String.ofList) (AccessState.new desired) := by
  obtain ⟨d, hd⟩ := Option.isSome_iff_exists.mp h
  obtain ⟨g, gs, hg⟩ :=
    List.exists_cons_of_ne_nil (Path.segments_ne_nil (Path.relative path.toList))
  rw [resolve, hd]
  dsimp only
  split
  next heq => exact absurd heq hs
  next =>
    rw [← Path.cut_eq_splitOn, ← Path.segments, hg]
    exact walk_eq_follow hd g gs _

/-- What a path means is what resolving it gives. -/
theorem Resolution.resolve_eq {path : String} {r : Outcome (ObjectId × AccessState)}
    (h : ns.Resolution x (Path.relative path.toList) desired r) :
    ns.resolve x path desired = r := by
  cases h with
  | closed h => rw [resolve, h]
  | self h empty =>
    obtain ⟨d, hd⟩ := Option.isSome_iff_exists.mp h
    rw [resolve, hd, empty]
    rfl
  | @found ys h nonempty chain =>
    rw [resolve_eq_follow h nonempty, ← List.append_nil (List.map _ _), chain.follow]
    rfl
  | lost h nonempty segments chain nowhere =>
    rw [resolve_eq_follow h nonempty, segments, chain.follow, follow_of_nowhere nowhere]

/-- Every path means something. -/
theorem exists_resolution (ns : Namespace) (start : ObjectId) (s : List Char)
    (desired : AccessMask) : ∃ r, ns.Resolution start s desired r := by
  cases hd : ns.opens start with
  | none => exact ⟨_, .closed hd⟩
  | some d =>
    have h : (ns.opens start).isSome := by rw [hd]; rfl
    by_cases hs : s = []
    · exact ⟨_, .self h hs⟩
    · rcases ns.exists_chain start ((s.splitOn '/').map String.ofList) with
        ⟨ys, chain⟩ | ⟨before, g, after, ys, segments, chain, nowhere⟩
      · exact ⟨_, .found h hs chain⟩
      · exact ⟨_, .lost h hs segments chain nowhere⟩

/-- Where no client's object stands in front of a directory, only directories open one. -/
theorem opens_eq_some_iff (h : ∀ dev ∈ ns.devices, dev.inner = none) {d : DirectoryId} :
    ns.opens x = some d ↔ x = .directory d := by
  cases x with
  | directory i => simp [opens]
  | event e => simp [opens]
  | thread t => simp [opens]
  | device i =>
    simp only [opens, reduceCtorEq, iff_false]
    cases hi : ns.devices[i]? with
    | none => simp
    | some dev => simp [h dev (List.mem_of_getElem? hi)]

end Namespace

/-- **Resolving a path is reading it by its grammar.** For every namespace, start, path and rights
asked for, the answer is what the path means; and where no client's object stands in front of a
directory, the objects through which a path leads on are the directories, each opening itself. -/
theorem resolve_iff_grammar (ns : Namespace) (start : ObjectId) (path : String)
    (desired : AccessMask) :
    (∀ r, ns.resolve start path desired = r ↔
      ns.Resolution start (Path.relative path.toList) desired r) ∧
    ((∀ dev ∈ ns.devices, dev.inner = none) → ∀ x d, ns.opens x = some d ↔ x = .directory d) := by
  refine ⟨fun r => ⟨?_, Namespace.Resolution.resolve_eq⟩, fun h x d =>
    Namespace.opens_eq_some_iff h⟩
  rintro rfl
  obtain ⟨r, hr⟩ := ns.exists_resolution start (Path.relative path.toList) desired
  rw [hr.resolve_eq]
  exact hr

end Nucleus
