/-
  ScriptModule/Main.lean
  ======================
  **The program.**  Takes from the real disk what a command line is about, runs it on
  that, and carries the changes back.
-/
import ScriptModule.CommandLine.Run
import Std.Time.Format

namespace ScriptModule.Program

/-! ### Taking from the disk -/

def pathText (place : List Text) : String := String.ofList (Path.mk 1 place).toText

/-- The source files below a directory; nothing else is ever read. -/
partial def takeTree (path : String) : IO Listing := do
  let mut l := Listing.nil
  for entry in ← ((← IO.currentDir) / path).readDir do
    let name := entry.fileName.toList
    if ← entry.path.isDir then
      unless Listing.isHidden name do
        l := l.set name (.directory (← takeTree entry.path.toString))
    else if SourceTree.isScript name || SourceTree.isFormat name then
      l := l.set name (.file (← IO.FS.readBinFile entry.path).toList)
  return l

/-- Follows components from the place `here` and adds what they lead through; gives the
    place at the end. -/
def takePath (root : Listing) (here : List Text) : List Text → IO (Listing × List Text)
  | [] => return (root, here)
  | c :: cs => do
    let place := Path.climb here c
    let path := (← IO.currentDir) / pathText place
    if ← path.isDir then takePath (root.putDirectory place) place cs
    else if ← path.pathExists then
      return (root.put (.file (← IO.FS.readBinFile path).toList) place, place)
    else return (root, place)

/-- The part of the disk that a command is about. -/
def take (d : Disk) (c : Command) : IO Disk := do
  let (searched, followed) := c.paths d
  let mut (root, _) ← takePath d.root [] d.cwd.parts
  for p in searched.toList do
    let (root', place) ← takePath root [] (d.cwd.append p).parts
    root := root'
    if ← ((← IO.currentDir) / pathText place).isDir then
      root := root.put (.directory (← takeTree (pathText place))) place
      root := (← takePath root [] (d.cwd.append p).parts).1
  for p in followed do
    root := (← takePath root [] (d.cwd.append p).parts).1
  return { d with root := root }

/-! ### Giving back -/

/-- Writes a file beside its place and moves it there. -/
def give (spare : Text) (place : List Text) (content : Bytes) : IO Unit := do
  let beside := pathText (place.dropLast ++ [spare])
  try
    IO.FS.writeBinFile beside content.toByteArray
    IO.FS.rename beside (pathText place)
  catch e =>
    try IO.FS.removeFile beside catch _ => pure ()
    throw e

/-! ### One run -/

def start (args : List String) : IO UInt32 := do
  let line := args.map String.toList
  let setting := (← IO.getEnv "PSMB_MAX_DEPTH").map String.toList
  let now := (← Std.Time.PlainDateTime.now).format "uuuu-MM-dd HH:mm:ss"
  let number ← IO.rand 0 99999999
  let disk : Disk := {
    root := .nil
    cwd := Path.ofText (← IO.currentDir).toString.toList
    spare := ".psmb-".toList ++ Text.ofNat number ++ ".tmp".toList }
  let before ← match Invocation.ofLine (defaultDepth setting) line with
    | .ok i => take disk i.command
    | .error _ => pure disk
  let o := run before now.toList setting line
  for (place, content) in before.changes o.disk do
    give before.spare place content
  IO.eprint (String.ofList o.messages)
  IO.print (String.ofList o.output)
  match o.ending with
  | .ok n => return n.toUInt32
  | .error e =>
    IO.eprintln (String.ofList e.message)
    return 1

end ScriptModule.Program

def main (args : List String) : IO UInt32 := ScriptModule.Program.start args
