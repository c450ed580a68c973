/-
  ScriptModule/SectionKind.lean
  =============================
  **The kinds of definitions** that a module keeps apart, each in a section of
  its own.
-/
import ScriptModule.Text.Basic

namespace ScriptModule

/-- What a definition is. -/
inductive SectionKind where
  | enumeration
  | classType
  | variable
  | function
  | entryPoint
  | aliasName
  | formatView
deriving DecidableEq, Repr

def SectionKind.label : SectionKind → Text
  | .enumeration => "enum"
  | .classType => "class"
  | .variable => "variable"
  | .function => "function"
  | .entryPoint => "entry point"
  | .aliasName => "alias"
  | .formatView => "format view"

end ScriptModule
