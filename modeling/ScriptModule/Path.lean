/-
  ScriptModule/Path.lean
  ======================
  **File paths.**  A path is a run of leading slashes and the components after
  it; empty components and single dots say nothing and are dropped on reading.
  Two leading slashes are kept apart from one, any other number counts as one.
  Parent components are resolved by text alone, since no link is followed.
-/
import ScriptModule.Text.Basic

namespace ScriptModule

/-! ### Reading and showing -/

/-- A path in components; `slashes` is 0 for a relative path, else 1 or 2. -/
structure Path where
  slashes : Nat
  parts : List Text
deriving DecidableEq, Repr

namespace Path

/-- The leading slashes that a path text keeps. -/
def leading (t : Text) : Nat :=
  match (t.takeWhile (· = '/')).length with
  | 0 => 0
  | 2 => 2
  | _ => 1

/-- Reads a path; parent components stay. -/
def ofText (t : Text) : Path :=
  ⟨leading t, (Text.fields '/' t).filter fun p => p ≠ [] && p ≠ ['.']⟩

/-- The text of a path; the path without components is a dot. -/
def toText (p : Path) : Text :=
  let t := List.replicate p.slashes '/' ++ Text.join "/" p.parts
  if t.isEmpty then "." else t

def name (p : Path) : Text := p.parts.getLast?.getD []

/-- The path without its last component. -/
def parent (p : Path) : Path := ⟨p.slashes, p.parts.dropLast⟩

/-- A path below a directory; an absolute path stands for itself. -/
def append (dir p : Path) : Path :=
  if p.slashes = 0 then ⟨dir.slashes, dir.parts ++ p.parts⟩ else p

/-! ### Parent components -/

/-- One component after the components of an absolute path: `..` takes one away. -/
def climb (parts : List Text) (c : Text) : List Text :=
  if c = ['.', '.'] then parts.dropLast else parts ++ [c]

/-- The absolute path that a path names in the directory `cwd`. -/
def absolute (cwd p : Path) : Path :=
  let q := cwd.append p
  ⟨q.slashes, q.parts.foldl climb []⟩

/-- The absolute path with one leading slash. -/
def resolve (cwd p : Path) : Path := ⟨1, (absolute cwd p).parts⟩

/-- What two lists share at their front, and the two remainders. -/
def afterCommon : List Text → List Text → List Text × List Text
  | a :: as, b :: bs => if a = b then afterCommon as bs else (a :: as, b :: bs)
  | as, bs => (as, bs)

/-- The relative path from the absolute directory `base` to the absolute path `p`. -/
def relativeTo (base p : Path) : Path :=
  let (up, down) := afterCommon base.parts p.parts
  ⟨0, up.map (fun _ => ['.', '.']) ++ down⟩

/-! ### File names -/

def baseName (t : Text) : Text := Text.afterLast '/' t

/-- A file name without its extension; leading dots begin no extension. -/
def stem (t : Text) : Text :=
  match t.reverse.dropWhile (· ≠ '.') with
  | [] => t
  | _ :: r => if r.any (· ≠ '.') then r.reverse else t

end Path
end ScriptModule
