import Nucleus.Object

/-!
# Paths

A path is a text cut at every `/`. One separator at its start carries no meaning; every other one
ends a segment, so two in a row, or one at the end, leave an empty segment, and an empty segment
names nothing.

`Namespace.walk` follows segments from a directory. It stops at the first segment that fails:
an empty one is a malformed path, one that the directory does not know is not found, and so is
one that comes after an object through which no path continues. The rights asked for are folded
once per object that the walk comes to.
-/

namespace Nucleus

namespace Path

/-- Cut a text at every separator. -/
def cut : List Char → List (List Char)
  | [] => [[]]
  | c :: cs =>
    match cut cs with
    | [] => [[]]
    | g :: gs => if c = '/' then [] :: g :: gs else (c :: g) :: gs

/-- A text without one separator at its start. -/
def relative : List Char → List Char
  | '/' :: cs => cs
  | cs => cs

/-- The segments of a text. -/
def segments (s : List Char) : List String := (cut s).map String.ofList

/-- A text that can be a name: not empty, and in one piece. -/
def isName (s : String) : Bool := !s.isEmpty && !s.toList.contains '/'

theorem isName_iff {s : String} : isName s = true ↔ s ≠ "" ∧ '/' ∉ s.toList := by
  simp [isName]

theorem cut_ne_nil (s : List Char) : cut s ≠ [] := by
  cases s with
  | nil => simp [cut]
  | cons c cs =>
    simp only [cut]
    split
    · simp
    · split <;> simp

end Path

namespace Namespace

/-- Follow segments from a directory, folding the rights of every object on the way. -/
def walk (ns : Namespace) : DirectoryId → List String → AccessState →
    Outcome (ObjectId × AccessState)
  | _, [], _ => .error .invalidPath
  | d, g :: gs, st =>
    if g.isEmpty then .error .invalidPath
    else match ns.child d g with
      | none => .error .notFound
      | some x =>
        let st := st.step (ns.valid x)
        match gs with
        | [] => .ok (x, st)
        | g' :: gs' =>
          match ns.opens x with
          | none => .error .notFound
          | some d' => walk ns d' (g' :: gs') st

/-- Follow a text from a directory, no separator at its start being passed over. -/
def parse (ns : Namespace) (d : DirectoryId) (path : String) (st : AccessState) :
    Outcome (ObjectId × AccessState) :=
  ns.walk d (Path.segments path.toList) st

/-- Resolve a path from an object. The empty path leads to the object itself. -/
def resolve (ns : Namespace) (start : ObjectId) (path : String) (desired : AccessMask) :
    Outcome (ObjectId × AccessState) :=
  match ns.opens start with
  | none => .error .invalidPath
  | some d =>
    match Path.relative path.toList with
    | [] => .ok (start, (AccessState.new desired).step (ns.valid start))
    | cs => ns.walk d (Path.segments cs) (AccessState.new desired)

/-- The names on the way from an object up to one that has none, that one's side first. Each
link is passed at most once in `fuel` steps, so running out of fuel means going round in a
circle, and there is no such way. -/
def ancestry (ns : Namespace) : Nat → ObjectId → Option (List String)
  | 0, _ => none
  | fuel + 1, x =>
    match ns.link? x with
    | none => some []
    | some l => (ancestry ns fuel (.directory l.parent)).map (· ++ [l.name])

/-- The path of an object from the object at the top of its chain of directories; absent if the
chain has no top. -/
def fullPath? (ns : Namespace) (x : ObjectId) : Option String :=
  (ns.ancestry (ns.links.length + 1) x).map fun names =>
    if names.isEmpty then "/" else String.join (names.map fun n => "/" ++ n)

end Namespace

end Nucleus
