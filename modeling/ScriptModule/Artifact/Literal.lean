/-
  ScriptModule/Artifact/Literal.lean
  ==================================
  **Literals of the written module.**  A text is written between single quotes, with
  every single quote in it doubled; a list of texts with commas between them.
-/
import ScriptModule.Text.Basic

namespace ScriptModule.Literal

def quote (t : Text) : Text := '\'' :: Text.replaceChar '\'' "''" t ++ ['\'']

/-- Texts as a list of literals; an empty list is an empty array. -/
def list : List Text → Text
  | [] => "@()"
  | ts => Text.join ", " (ts.map quote)

end ScriptModule.Literal
