/-
  ScriptModule/Disk/Write.lean
  ============================
  **Writing a file.**  A file is written under a name of its own beside the place that it
  is meant for, and is then moved there.  Every step can fail; what the earlier steps left
  is still on the disk then, so the file is removed again.
-/
import ScriptModule.Disk.Basic

namespace ScriptModule

/-- What is done to a disk: it ends in a value or an error and leaves a disk either way. -/
abbrev Deed := EStateM FileError Disk

namespace Disk

/-- The path of a name in the directory of another path. -/
def beside (d : Disk) (p : Path) (name : Text) : Path :=
  (Path.absolute d.cwd p).parent.append ⟨0, [name]⟩

/-- Whether the last component of a path is the name of an entry. -/
def endsInName (p : Path) : Bool := p.name ≠ [] && p.name ≠ ['.', '.']

def withFile (d : Disk) (content : Bytes) (place : List Text) : Disk :=
  { d with root := d.root.put (.file content) place }

/-! ### Steps -/

/-- A step that the system may fail in. -/
def attempt (s : WriteStep) (e : Refusal → FileError) : Deed Unit := do
  match (← get).faults s with
  | some r => throw (e r)
  | none => pure ()

/-- Makes an empty file of the first drawn name that is free in the directory of `p`;
    gives its path and its place. -/
def create (p : Path) : List Text → Deed (Path × List Text)
  | [] => throw (.failed .noFreeName)
  | name :: names => do
    let d ← get
    let spare := d.beside p name
    match d.locate spare with
    | .error r => throw (.refused r spare.toText)
    | .ok place =>
      if (d.root.node? place).isSome then create p names
      else
        attempt .create (.refused · spare.toText)
        modify (withFile · [] place)
        return (spare, place)

def fill (place : List Text) (content : Bytes) : Deed Unit := do
  attempt .fill .failed
  modify (withFile · content place)

/-- What the system says about a path. -/
def inspect (d : Disk) (p : Path) : Except Refusal Node :=
  match d.faults .inspect with
  | some r => .error r
  | none => d.node p

/-- Gives a new file the mode of the one at `p`, or that of any file if there is none;
    modes themselves are left out. -/
def keepMode (spare p : Path) : Deed Unit := do
  match (← get).inspect p with
  | .ok _ | .error .missing => attempt .setMode (.refused · spare.toText)
  | .error r => throw (.refused r p.toText)

/-- Moves a file to the place that a path leads to. -/
def replace (spare : Path) (place : List Text) (p : Path) : Deed Unit := do
  let notReplaced (r : Refusal) := FileError.notReplaced r spare.toText p.toText
  attempt .replace notReplaced
  let d ← get
  match d.locate p with
  | .error r => throw (notReplaced r)
  | .ok target =>
    if !endsInName p then throw (notReplaced .busy)
    else match d.root.node? target with
    | some (.directory _) => throw (notReplaced .isDirectory)
    | _ => set { d with root := d.root.move place target }

/-! ### All of them -/

/-- Puts a file in the place that a path leads to, in one step or not at all. -/
def write (p : Path) (content : Bytes) : Deed Unit := do
  let d ← get
  let (spare, place) ← create p (d.spare :: d.laterSpares)
  try
    fill place content
    keepMode spare p
    replace spare place p
  catch e =>
    modify fun d => { d with root := d.root.remove place }
    throw e

end Disk
end ScriptModule
