/-
  ScriptModule/Report/Diagnostic.lean
  ===================================
  **Diagnostics.**  A message with its place, as it is shown to the user:
  `file:line:column: kind: message (near 'text')`.
-/
import ScriptModule.Text.Excerpt
import ScriptModule.Path

namespace ScriptModule

/-- A message about a place in a file. -/
structure Diagnostic where
  kind : Text
  message : Text
  filename : Option Text := none
  line : Option Int := none
  column : Option Int := none
  excerpt : Option Text := none     -- the offending text, already cut
deriving DecidableEq, Repr

namespace Diagnostic

/-- A diagnostic that shows an excerpt of the offending text. -/
def about (kind message : Text) (filename : Option Text) (line column : Option Int)
    (text : Option Text) : Diagnostic :=
  ⟨kind, message, filename, line, column, text.map (Text.excerpt Text.excerptLimit)⟩

/-- The file name as it is shown: absolute, in the directory `cwd`. -/
def file (cwd : Path) (d : Diagnostic) : Text :=
  match d.filename with
  | some f => (Path.absolute cwd (Path.ofText f)).toText
  | none => []

/-- Line and column; a column is shown only behind a line. -/
def lineAndColumn (d : Diagnostic) : Text :=
  match d.line, d.column with
  | some l, some c => ":" ++ Text.ofInt l ++ ":" ++ Text.ofInt c
  | some l, none => ":" ++ Text.ofInt l
  | none, _ => []

/-- The offending text in brackets, if there is any. -/
def near (d : Diagnostic) : Text :=
  match d.excerpt with
  | some (c :: t) => " (near '" ++ (c :: t) ++ "')"
  | _ => []

def format (cwd : Path) (d : Diagnostic) : Text :=
  let place := d.file cwd ++ d.lineAndColumn
  let intro : Text := if place.isEmpty then [] else place ++ ": "
  intro ++ d.kind ++ ": " ++ d.message ++ d.near

end Diagnostic
end ScriptModule
