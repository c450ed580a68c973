/-
  ScriptModule/SourceTree.lean
  ============================
  **Source trees.**  The scripts and format resources below a source root.  They are
  told by the ends of their names, whatever the case, and stand in one order: by folded
  path, then by path.
-/
import ScriptModule.Disk.Basic
import ScriptModule.Report.Basic
import ScriptModule.Text.Casing

namespace ScriptModule

/-- The source files below a root, as paths from the root. -/
structure SourceTree where
  scripts : List Path
  formats : List Path
deriving DecidableEq, Repr

namespace SourceTree

/-! ### Which files -/

/-- How many directories deep source files are looked for, unless asked otherwise. -/
def defaultDepth : Int := 16

/-- Whether a name ends in `suffix`, which is in folded form. -/
def hasSuffix (suffix name : Text) : Bool := suffix.isSuffixOf (Text.fold name)

def isFormat (name : Text) : Bool := hasSuffix ".format.ps1xml" name

/-- Whether a name is that of a script and not of a test. -/
def isScript (name : Text) : Bool := hasSuffix ".ps1" name && !hasSuffix ".tests.ps1" name

/-! ### In which order -/

def le (p q : Path) : Bool :=
  let s := Text.fold p.toText
  let t := Text.fold q.toText
  if s = t then Text.le p.toText q.toText else Text.le s t

def sorted (places : List (List Text)) : List Path := (places.map (Path.mk 0)).mergeSort le

/-! ### Finding them -/

/-- The source files in a listing, at most `maxDepth` directories deep; no depth is less
    than none. -/
def ofListing (maxDepth : Int) (l : Listing) : SourceTree :=
  let places := l.visible maxDepth.toNat
  let named (p : Text → Bool) := places.filter fun place => p (place.getLast?.getD [])
  ⟨sorted (named isScript), sorted (named isFormat)⟩

/-- The path by which a search comes to a directory below its root; below the working
    directory it begins with a dot. -/
def searchPath (root dir : Path) : Path :=
  if root = ⟨0, []⟩ then ⟨0, ['.'] :: dir.parts⟩ else root.append dir

/-- The source files whose directories are searched by paths that the system takes. -/
def withinReach (root : Path) (t : SourceTree) : SourceTree :=
  let near (p : Path) : Bool := !(searchPath root p.parent).isTooLong
  ⟨t.scripts.filter near, t.formats.filter near⟩

/-- The source files below a root, if it is a directory; no search goes by a void depth. -/
def scan (d : Disk) (root : Path) (maxDepth : Option Int) :
    Except Abort (Option SourceTree) :=
  match d.directory? root, maxDepth with
  | .error r, _ => .error (.refused r root.toText)
  | .ok none, _ => .ok none
  | .ok (some _), none => .error .voidDepth
  | .ok (some l), some n => .ok (some ((ofListing n l).withinReach root))

end SourceTree
end ScriptModule
