/-
  ScriptModule/Log.lean
  =====================
  **Progress messages.**  Messages have levels; the settings say up to which level they
  are written, and whether time and level stand in front.
-/
import ScriptModule.Report.Diagnostic

namespace ScriptModule

/-! ### Levels -/

/-- How much is written: nothing, errors, warnings, progress, everything. -/
inductive LogLevel where
  | silent
  | error
  | warning
  | info
  | debug
deriving DecidableEq, Repr

namespace LogLevel

def label : LogLevel → Text
  | .silent => "SILENT"
  | .error => "ERROR"
  | .warning => "WARNING"
  | .info => "INFO"
  | .debug => "DEBUG"

/-- The rank of a level; a message is written up to the rank of the settings. -/
def rank : LogLevel → Nat
  | .silent => 0
  | .error => 3
  | .warning => 6
  | .info => 10
  | .debug => 30

end LogLevel

/-! ### Events -/

/-- What is said about a build as it goes on. -/
inductive LogEvent where
  | message (level : LogLevel) (text : Text)
  | stage (name : Text) (source : Option Text) (place : Option (Int × Int))
  | diagnostic (d : Diagnostic)
deriving DecidableEq, Repr

namespace LogEvent

/-- The level of an event; a diagnostic that is no warning is an error. -/
def level : LogEvent → LogLevel
  | .message l _ => l
  | .stage _ _ _ => .info
  | .diagnostic d => if d.kind = "warning".toList then .warning else .error

/-- What a stage works on, or three dots. -/
def stageText (name : Text) : Option Text → Text
  | some (c :: s) => name ++ " '" ++ (c :: s) ++ "'"
  | _ => name ++ "..."

/-- The words of an event. -/
def text (cwd : Path) : LogEvent → Text
  | .message _ t => t
  | .stage name source none => stageText name source
  | .stage name source (some (i, n)) =>
    stageText name source ++ " (" ++ Text.ofInt i ++ "/" ++ Text.ofInt n ++ ")"
  | .diagnostic d => d.format cwd

end LogEvent

/-! ### Writing -/

/-- Up to which level events are written, and in which form. -/
structure LogSettings where
  level : LogLevel := .warning
  rich : Bool := false

def LogSettings.write (s : LogSettings) (cwd : Path) (time : Text) (e : LogEvent) : Text :=
  if e.level.rank ≤ s.level.rank then
    (if s.rich then time ++ " [" ++ e.level.label ++ "] " ++ e.text cwd else e.text cwd) ++ "\n"
  else []

end ScriptModule
