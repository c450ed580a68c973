/-
  ScriptModule/CommandLine/Run.lean
  =================================
  **Running an invocation.**  A failure is shown with the line of the file that it is
  about and a mark under its column.
-/
import ScriptModule.CommandLine.Invocation
import ScriptModule.Token.Scan

namespace ScriptModule

/-! ### Showing a failure -/

/-- The line of a source that a report is about, and a mark under its column; nothing if
    the report gives no line or the source has no such line. -/
def Report.snippet (r : Report) (source : Text) : List Text :=
  match r.line with
  | some (.ofNat (n + 1)) =>
    match (Text.lines source)[n]? with
    | some line =>
      let number := Text.padStart 5 (Text.ofNat (n + 1))
      let caret (column : Int) : Text :=
        List.replicate number.length ' ' ++ " | " ++ List.replicate (column - 1).toNat ' ' ++ "^"
      (number ++ " | " ++ line) :: (r.column.map caret).toList
    | none => []
  | _ => []

/-- The text of the file that a report is about, as far as it can be read. -/
def Report.source (d : Disk) (r : Report) : Text :=
  match r.filename with
  | some (c :: f) => ((d.read (Path.ofText (c :: f))).toOption).getD []
  | _ => []

def Report.events (d : Disk) (r : Report) : List LogEvent :=
  .diagnostic r.diagnostic :: (r.snippet (r.source d)).map (LogEvent.message .error)

/-! ### Commands -/

/-- What a run leaves: its exit code or why it broke off, what it wrote to the two
    outputs, and the disk. -/
structure Outcome where
  ending : Except Abort Nat
  output : Text := []
  messages : Text := []
  disk : Disk

def Outcome.success : Nat := 0
def Outcome.failed : Nat := 1
def Outcome.misused : Nat := 2

/-- What is written about events, all at one time. -/
def LogSettings.writeAll (s : LogSettings) (cwd : Path) (time : Text) (es : List LogEvent) :
    Text :=
  es.flatMap (s.write cwd time)

/-- The end of a project: what was said, and the failure if there is one. -/
def Project.Result.events (r : Project.Result) : List LogEvent :=
  match r.text with
  | .error (.report f) => r.draft.log ++ f.events r.disk
  | _ => r.draft.log

def Project.Result.ending (r : Project.Result) : Except Abort Nat :=
  match r.text with
  | .ok _ => .ok Outcome.success
  | .error (.report _) => .ok Outcome.failed
  | .error (.abort a) => .error a

/-- The file that a module is written to without a name of its own: the name of its root. -/
def Project.defaultOutput (p : Project) (d : Disk) : Path :=
  let name := (d.resolve p.root).name
  Path.ofText ((if name.isEmpty then "module".toList else name) ++ ".psm1".toList)

def tokenLine (file : Path) (p : Position) (kind text : Text) : Text :=
  file.toText ++ ":" ++ Text.ofNat p.line ++ ":" ++ Text.ofNat p.column ++ ":\t" ++
    Text.padEnd 12 kind ++ " " ++ Text.quoted text ++ "\n"

/-- The tokens of a file, each on a line, and the end of the file if asked for. -/
def Scan.listing (s : Scan) (file : Path) (withEnd : Bool) : Text :=
  (s.tokens.flatMap fun t => tokenLine file t.start t.kind.label t.text) ++
    if withEnd then tokenLine file s.stop "EOF" [] else []

/-- The directory that a command searches, if any, and the other paths that it follows. -/
def Command.paths (d : Disk) : Command → Option Path × List Path
  | .build p output => (some p.root, [output.getD (p.defaultOutput d)])
  | .check p _ => (some p.root, [])
  | .tokens file _ => (none, [file])

/-- Runs a command; gives its ending, its output, what it says, and the disk. -/
def Command.run (d : Disk) : Command → Except Abort Nat × Text × List LogEvent × Disk
  | .build p output =>
    let destination := output.getD (p.defaultOutput d)
    if output.isNone && p.root.hasNull then (.error .nullInPath, [], [], d)
    else
    let r := p.build d destination
    let wrote := match r.text with
      | .ok _ => [LogEvent.message .info ("Wrote " ++ destination.toText)]
      | .error _ => []
    (r.ending, [], r.events ++ wrote, r.disk)
  | .check p print =>
    let r := p.check d
    let output := match r.text with
      | .ok t => if print then t else []
      | .error _ => []
    (r.ending, output, r.events, r.disk)
  | .tokens file withEnd =>
    if file.hasNull then (.error .nullInPath, [], [], d)
    else match d.read file with
    | .error e =>
      (.ok Outcome.failed, [], [.message .error
        ("error: [DRV-0020] cannot read " ++ file.toText ++ ": " ++ e.message)], d)
    | .ok source =>
      match (scan source).mapError (ScanError.report file.toText) with
      | .error r => (.ok Outcome.failed, [], r.events d, d)
      | .ok s => (.ok Outcome.success, s.listing file withEnd, [], d)

/-! ### Command lines -/

def Interruption.outcome (d : Disk) : Interruption → Outcome
  | .help g => { ending := .ok Outcome.success, output := g.usage, disk := d }
  | .abort a => { ending := .error a, disk := d }
  | .misuse g e =>
    { ending := .ok Outcome.misused,
      messages := g.usage ++ g.program ++ ": error: " ++ e.message ++ "\n", disk := d }

/-- Runs a command line at a time; `setting` is the depth that the environment asks for. -/
def run (d : Disk) (time : Text) (setting : Option Text) (line : List Text) : Outcome :=
  match Invocation.ofLine (defaultDepth setting) line with
  | .error i => i.outcome d
  | .ok i =>
    let (ending, output, events, d') := i.command.run d
    ⟨ending, output, i.settings.writeAll d.cwd time events, d'⟩

end ScriptModule
