/-
  ScriptModule/Project.lean
  =========================
  **Projects.**  A project is a source root that is made into one module.  Its files are
  taken in one after another, scripts before format resources; the module is then shown
  or written.  The disk changes in the last step only.
-/
import ScriptModule.Artifact.Module
import ScriptModule.Disk.Write
import ScriptModule.SourceTree

namespace ScriptModule

/-- A source root, how deep it is searched, and the aliases that exist without it. -/
structure Project where
  root : Path
  maxDepth : Option Int := some SourceTree.defaultDepth    -- none is a void setting
  known : KnownAliases := KnownAliases.builtin

namespace Project

/-! ### What the files contribute -/

/-- The contributions of a file that is not read. -/
def unreadable (p : Path) (e : FileError) : List Contribution :=
  [.refusal (.report { problem := .unreadableFile p.toText e.message, filename := some p.toText })]

/-- The contributions of a script; `position` is its number among how many. -/
def scriptContributions (known : KnownAliases) (d : Disk) (p : Path) (position : Int × Int) :
    List Contribution :=
  match d.read p with
  | .error e => unreadable p e
  | .ok source => sourceContributions known source p.toText (some position)

/-- The contributions of a format resource; the module lies in the directory `base`. -/
def formatContributions (d : Disk) (base p : Path) : List Contribution :=
  match d.read p with
  | .error e => unreadable p e
  | .ok document =>
    match Format.viewNames document (some p.toText) with
    | .error r => [.refusal (.report r)]
    | .ok views =>
      viewContributions p.toText (Path.relativeTo base (d.resolve p)).toText views

/-- The contributions of the files of a source tree. -/
def treeContributions (p : Project) (d : Disk) (base : Path) (t : SourceTree) :
    List Contribution :=
  Contribution.debug
      ("Found " ++ Text.ofNat t.scripts.length ++ " script(s) and " ++
        Text.ofNat t.formats.length ++ " format resource(s)") ::
    ((t.scripts.zipIdx 1).flatMap fun s =>
      scriptContributions p.known d (p.root.append s.1) (s.2, t.scripts.length)) ++
    t.formats.flatMap fun f => formatContributions d base (p.root.append f)

/-- The contributions of a project to a module in the directory `base`. -/
def contributions (p : Project) (d : Disk) (base : Path) : List Contribution :=
  .event (.stage "Scanning source tree" (some p.root.toText) none) ::
    match SourceTree.scan d p.root p.maxDepth with
    | .error a => [.refusal (.abort a)]
    | .ok none => [.refusal (.report { problem := .missingRoot p.root.toText })]
    | .ok (some t) => p.treeContributions d base t

/-- The draft that a project comes to, and why it is not complete. -/
def assemble (p : Project) (d : Disk) (base : Path) : Draft × Option Failure :=
  ({} : Draft).takeAll (p.contributions d base)

/-! ### Showing and writing -/

/-- How a build ends: the disk after it, the draft with its warnings and all that was
    said, and the text of the module or the reason why there is none. -/
structure Result where
  disk : Disk
  draft : Draft
  text : Except Failure Text

def rendering : LogEvent := .stage "Rendering module" none none

/-- Makes the module of a project without writing it. -/
def check (p : Project) (d : Disk) : Result :=
  match p.assemble d (d.resolve p.root) with
  | (draft, some f) => ⟨d, draft, .error f⟩
  | (draft, none) => ⟨d, draft.say rendering, .ok draft.render⟩

/-- A failure that is about the file a module is written to. -/
def writeFailure (destination : Path) (problem : Problem) : Failure :=
  .report { problem := problem, filename := some destination.toText }

def save (d : Disk) (draft : Draft) (destination : Path) : Result :=
  let name := destination.toText
  let text := draft.render
  let draft := (draft.say (.stage "Writing" (some name) none)).say rendering
  match Disk.write destination (Utf8.encode text) d with
  | .error e d' => ⟨d', draft, .error (writeFailure destination (.unwritableFile name e.message))⟩
  | .ok _ d' =>
    let wrote := "Wrote " ++ Text.ofNat text.length ++ " character(s) to '" ++ name ++ "'"
    let built := "Built '" ++ name ++ "' with " ++ Text.ofNat draft.warnings.length ++
      " warning(s)"
    ⟨d', (draft.say (.message .debug wrote)).say (.message .info built), .ok text⟩

def build (p : Project) (d : Disk) (destination : Path) : Result :=
  let base := (d.resolve destination).parent
  if destination.hasNull then ⟨d, {}, .error (.abort .nullInPath)⟩
  else match d.directory? base with
  | .error r => ⟨d, {}, .error (.abort (.refused r base.toText))⟩
  | .ok none =>
    ⟨d, {}, .error (writeFailure destination (.missingDestination destination.parent.toText))⟩
  | .ok (some _) =>
    match p.assemble d base with
    | (draft, some f) => ⟨d, draft, .error f⟩
    | (draft, none) => save d draft destination

end Project
end ScriptModule
