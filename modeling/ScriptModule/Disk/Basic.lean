/-
  ScriptModule/Disk/Basic.lean
  ============================
  **The disk.**  The directories that a program sees, and the one it works in.  A path
  is followed component by component, so it leads nowhere if a directory on the way is
  missing, even where a parent component takes it back.  The system bounds the bytes of a
  name and of a whole path; no path with a NUL character leads anywhere.
-/
import ScriptModule.Disk.Listing
import ScriptModule.Disk.Refusal
import ScriptModule.Path

namespace ScriptModule

/-! ### Places -/

def nameLimit : Nat := 255

/-- How many bytes a path has to stay below. -/
def pathLimit : Nat := 4096

/-- Whether the system takes no path of this length. -/
def Path.isTooLong (p : Path) : Bool := decide (pathLimit ≤ Utf8.size p.toText)

/-- Whether a path has a NUL character, which ends it for the system. -/
def Path.hasNull (p : Path) : Bool := p.parts.any fun c => c.contains '\x00'

/-- The place that components lead to from the place `here`. -/
def Listing.locate (l : Listing) (here : List Text) : List Text → Except Refusal (List Text)
  | [] => .ok here
  | c :: cs =>
    match l.node? here with
    | some (.directory _) =>
      if nameLimit < Utf8.size c then .error .nameTooLong else l.locate (Path.climb here c) cs
    | some (.file _) => .error .notDirectory
    | none => .error .missing

/-- What the system is asked for while a file takes the place of another. -/
inductive WriteStep where
  | create
  | fill
  | inspect
  | setMode
  | replace
deriving DecidableEq, Repr

/-- The root directory, the directory in which relative paths begin, and the names that
    are drawn, one after another, for the files that are written before they take the
    place of others.  A step of writing can fail though nothing on the disk is against it. -/
structure Disk where
  root : Listing
  cwd : Path
  spare : Text
  laterSpares : List Text := []
  faults : WriteStep → Option Refusal := fun _ => none

namespace Disk

/-- The place that a path leads to. -/
def locate (d : Disk) (p : Path) : Except Refusal (List Text) :=
  if p.hasNull then .error .missing
  else if p.isTooLong then .error .nameTooLong
  else d.root.locate [] (d.cwd.append p).parts

/-- What a path leads to. -/
def node (d : Disk) (p : Path) : Except Refusal Node :=
  match d.locate p with
  | .error r => .error r
  | .ok place =>
    match d.root.node? place with
    | some x => .ok x
    | none => .error .missing

/-- The entries of the directory that a path leads to, if it leads to one; a path that is
    too long cannot even be asked about. -/
def directory? (d : Disk) (p : Path) : Except Refusal (Option Listing) :=
  match d.node p with
  | .ok (.directory l) => .ok (some l)
  | .error .nameTooLong => .error .nameTooLong
  | _ => .ok none

/-- The absolute path that a path names, by its text alone. -/
def resolve (d : Disk) (p : Path) : Path := Path.resolve d.cwd p

/-! ### Reading -/

def read (d : Disk) (p : Path) : Except FileError Text :=
  match d.node p with
  | .ok (.file bs) => (Utf8.read bs).mapError .undecodable
  | .ok (.directory _) => .error (.refused .isDirectory p.toText)
  | .error r => .error (.refused r p.toText)

/-- The files that are new on a disk or hold other bytes than on an earlier one. -/
def changes (before after : Disk) : List (List Text × Bytes) :=
  after.root.files.filter fun f => before.root.node? f.1 != some (.file f.2)

end Disk
end ScriptModule
