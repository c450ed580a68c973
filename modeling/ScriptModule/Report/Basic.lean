/-
  ScriptModule/Report/Basic.lean
  ==============================
  **Reports and failures.**  A report is a problem with its place.  A build fails
  with a report, or breaks off without one.
-/
import ScriptModule.Disk.Refusal
import ScriptModule.Report.Diagnostic
import ScriptModule.Report.Problem
import ScriptModule.Text.Numeral

namespace ScriptModule

/-- A problem, the file and the place it is about, and the offending text. -/
structure Report where
  problem : Problem
  filename : Option Text := none
  line : Option Int := none
  column : Option Int := none
  text : Option Text := none
deriving DecidableEq, Repr

def Severity.word : Severity → Text
  | .omission => "warning"
  | _ => "error"

def Report.diagnostic (r : Report) : Diagnostic :=
  Diagnostic.about r.problem.severity.word r.problem.message r.filename r.line r.column r.text

/-- Why something is refused, wherever it stands. -/
inductive Rejection where
  | problem (p : Problem)
  | numeral (e : NumeralError)
deriving DecidableEq, Repr

/-- Why a run breaks off without a report. -/
inductive Abort where
  | numeral (e : NumeralError)            -- an integer that cannot be read or printed
  | refused (r : Refusal) (path : Text)   -- a path that cannot even be asked about
  | nullInPath
  | voidDepth                             -- a depth that was given no value
  | voidAlias                             -- a known alias that was given no text
deriving DecidableEq, Repr

def Abort.message : Abort → Text
  | .numeral e => e.message
  | .refused r path => r.text ++ ": " ++ Text.quoted path
  | .nullInPath => "embedded null byte"
  | .voidDepth => "'>=' not supported between instances of 'int' and 'list'"
  | .voidAlias => "'list' object has no attribute 'partition'"

/-- Why a build ends early. -/
inductive Failure where
  | report (r : Report)
  | abort (a : Abort)
deriving DecidableEq, Repr

end ScriptModule
