/-
  ScriptModule/CommandLine/Grammar.lean
  =====================================
  **What may stand on the command line.**  Options with their spellings, and one grammar
  for the front of the line and for each command.
-/
import ScriptModule.Report.Basic

namespace ScriptModule

/-! ### Options -/

/-- The options of all commands. -/
inductive Switch where
  | help
  | verbose
  | rich
  | output
  | maxDepth
  | knownAlias
  | print
  | includeEnd
deriving DecidableEq, Repr

namespace Switch

def names : Switch → List Text
  | .help => ["-h", "--help"]
  | .verbose => ["-v", "--verbose"]
  | .rich => ["-l", "--log"]
  | .output => ["--output", "-o"]
  | .maxDepth => ["--max-depth"]
  | .knownAlias => ["--known-alias"]
  | .print => ["--print", "-p"]
  | .includeEnd => ["--include-eof", "-I"]

def label (s : Switch) : Text := Text.join "/" s.names

def takesValue : Switch → Bool
  | .output | .maxDepth | .knownAlias => true
  | _ => false

end Switch

/-! ### Grammars -/

/-- What a command is, or none for the front of the line. -/
inductive Verb where
  | build
  | check
  | tokens
deriving DecidableEq, Repr

def Verb.spellings : List (Text × Verb) :=
  [("build", .build), ("check", .check), ("tok", .tokens), ("tokens", .tokens)]

/-- The options that may be used, and the one argument that has to be there.  At the
    front of the line that argument is the command, and all behind it is left to the
    grammar of the command. -/
structure Grammar where
  program : Text
  usage : Text
  switches : List Switch
  operand : Text
  isFront : Bool := false
deriving DecidableEq, Repr

namespace Grammar

def front : Grammar where
  program := "psmbc"
  usage := "usage: psmbc [-h] [-v] [-l] \x7bbuild,check,tok,tokens\x7d ...\n"
  switches := [.help, .verbose, .rich]
  operand := "command"
  isFront := true

def build : Grammar where
  program := "psmbc build"
  usage :=
    "usage: psmbc build [-h] [--output OUTPUT] [--max-depth MAX_DEPTH]\n" ++
    "                   [--known-alias NAME=TARGET]\n" ++
    "                   root\n".toList
  switches := [.help, .output, .maxDepth, .knownAlias]
  operand := "root"

def check : Grammar where
  program := "psmbc check"
  usage :=
    "usage: psmbc check [-h] [--print] [--max-depth MAX_DEPTH]\n" ++
    "                   [--known-alias NAME=TARGET]\n" ++
    "                   root\n".toList
  switches := [.help, .print, .maxDepth, .knownAlias]
  operand := "root"

def tokens : Grammar where
  program := "psmbc tok"
  usage := "usage: psmbc tok [-h] [--include-eof] file\n"
  switches := [.help, .includeEnd]
  operand := "file"

def ofVerb : Verb → Grammar
  | .build => build
  | .check => check
  | .tokens => tokens

def spellings (g : Grammar) : List (Text × Switch) :=
  g.switches.flatMap fun s => s.names.map fun n => (n, s)

def switch? (g : Grammar) (name : Text) : Option Switch := g.spellings.lookup name

end Grammar

/-! ### Mistakes -/

/-- Why a command line is not understood. -/
inductive UsageError where
  | ambiguous (given : Text) (candidates : List Text)
  | unusedValue (s : Switch) (value : Text)
  | missingValue (s : Switch)
  | notInteger (s : Switch) (value : Text)
  | unknownCommand (given : Text)
  | missingOperand (name : Text)
  | unrecognized (given : List Text)
deriving DecidableEq, Repr

def Switch.message (s : Switch) (t : Text) : Text := "argument " ++ s.label ++ ": " ++ t

def UsageError.message : UsageError → Text
  | .ambiguous t ns => "ambiguous option: " ++ t ++ " could match " ++ Text.join ", " ns
  | .unusedValue s v => s.message ("ignored explicit argument " ++ Text.quoted v)
  | .missingValue s => s.message "expected one argument"
  | .notInteger s v => s.message ("invalid int value: " ++ Text.quoted v)
  | .unknownCommand t =>
    "argument command: invalid choice: " ++ Text.quoted t ++ " (choose from " ++
      Text.join ", " (Verb.spellings.map fun v => Text.quoted v.1) ++ ")"
  | .missingOperand n => "the following arguments are required: " ++ n
  | .unrecognized ts => "unrecognized arguments: " ++ Text.join " " ts

/-- Why nothing is done: help was asked for, the line is not understood, or it leaves out
    a text that is needed. -/
inductive Interruption where
  | help (g : Grammar)
  | misuse (g : Grammar) (e : UsageError)
  | abort (a : Abort)
deriving DecidableEq, Repr

end ScriptModule
