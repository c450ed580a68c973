/-
  ScriptModule/Artifact/Builder.lean
  ==================================
  **Lines with indentation.**  Lines are added one after another, each indented by the
  current level; text may also be added as it is.
-/
import ScriptModule.Text.Basic

namespace ScriptModule

/-- The lines so far, the current level, and the text of one level. -/
structure Builder where
  lines : List Text := []
  level : Nat := 0
  unit : Text := "    "

namespace Builder

def indent (b : Builder) : Builder := { b with level := b.level + 1 }

/-- One level less deep, if there is one. -/
def dedent? (b : Builder) : Option Builder :=
  match b.level with
  | 0 => none
  | n + 1 => some { b with level := n }

/-- Adds an indented line; an empty line is not indented. -/
def emit (b : Builder) (line : Text) : Builder :=
  { b with lines := b.lines ++ [if line.isEmpty then [] else Text.times b.level b.unit ++ line] }

/-- Adds text as it is, which may have several lines. -/
def emitRaw (b : Builder) (t : Text) : Builder :=
  { b with lines := b.lines ++ Text.fields '\n' t }

def emitNested (b : Builder) (ls : List Text) : Builder :=
  { ls.foldl emit b.indent with level := b.level }

def text (b : Builder) : Text := Text.join "\n" b.lines

end Builder
end ScriptModule
