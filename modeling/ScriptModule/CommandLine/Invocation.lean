/-
  ScriptModule/CommandLine/Invocation.lean
  ========================================
  **Invocations.**  What a command line asks for.
-/
import ScriptModule.CommandLine.Reading
import ScriptModule.Log
import ScriptModule.Project

namespace ScriptModule

/-- What is to be done. -/
inductive Command where
  | build (p : Project) (output : Option Path)
  | check (p : Project) (print : Bool)
  | tokens (file : Path) (withEnd : Bool)

/-- A command, and what is written about its progress. -/
structure Invocation where
  command : Command
  settings : LogSettings

/-! ### Settings -/

/-- The depth that is searched without an option; `setting` is that of the environment. -/
def defaultDepth (setting : Option Text) : Int :=
  (setting.bind Numeral.readInteger).getD SourceTree.defaultDepth

/-- The level for a number of requests to say more. -/
def LogLevel.ofVerbosity (n : Nat) : LogLevel :=
  if n ≥ 3 then .debug else if n ≥ 1 then .info else .warning

/-- Declares an alias given as name, equals sign and target. -/
def KnownAliases.declareText (known : KnownAliases) (t : Text) : KnownAliases :=
  match Text.cut? '=' t with
  | some (name, target) => known.declare (Text.trim name) (Text.trim target)
  | none => known.declare (Text.trim t) []

/-! ### From readings -/

namespace Reading

def maxDepth (depth : Int) (r : Reading) : Option Int :=
  match (r.values .maxDepth).getLast? with
  | some v => Numeral.readInteger v
  | none => some depth

def project (depth : Int) (r : Reading) : Except Abort Project :=
  let aliases := r.values .knownAlias
  if aliases.any isVoid then .error .voidAlias
  else .ok {
    root := Path.ofText (r.operand.getD [])
    maxDepth := r.maxDepth depth
    known := aliases.foldl KnownAliases.declareText KnownAliases.builtin }

/-- The file that a module is to be written to; an empty name is none. -/
def output (r : Reading) : Option Path :=
  ((r.values .output).getLast?.filter fun v => !v.isEmpty && !isVoid v).map Path.ofText

def command (depth : Int) (r : Reading) : Verb → Except Abort Command
  | .build => (r.project depth).map fun p => .build p r.output
  | .check => (r.project depth).map fun p => .check p (r.has .print)
  | .tokens => .ok (.tokens (Path.ofText (r.operand.getD [])) (r.has .includeEnd))

/-- The settings that the front of a line asks for. -/
def settings (r : Reading) : LogSettings where
  level := LogLevel.ofVerbosity (r.values .verbose).length
  rich := r.has .rich

end Reading

/-- Reads a command line; `depth` is searched unless it says otherwise. -/
def Invocation.ofLine (depth : Int) (line : List Text) : Except Interruption Invocation :=
  match Reading.ofLine .front line with
  | .error i => .error i
  | .ok front =>
    let name := front.operand.getD []
    match Verb.spellings.lookup name with
    | none => .error (.misuse .front (.unknownCommand name))
    | some v =>
      match Reading.ofLine (.ofVerb v) front.rest with
      | .error i => .error i
      | .ok r =>
        let extras := front.extras ++ r.extras
        if extras.isEmpty then
          match r.command depth v with
          | .error a => .error (.abort a)
          | .ok c => .ok ⟨c, front.settings⟩
        else .error (.misuse .front (.unrecognized extras))

end ScriptModule
