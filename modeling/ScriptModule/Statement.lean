/-
  ScriptModule/Statement.lean
  ===========================
  **Statements.**  The records that a source file is read into: requirements,
  imports, type definitions, variables and functions, each with the stretch of
  the source it was read from.
-/
import ScriptModule.Text.Basic

namespace ScriptModule

/-! ### Places -/

/-- A stretch of a source by lines and columns; the end is exclusive. -/
structure Span where
  startLine : Int
  startColumn : Int
  endLine : Int
  endColumn : Int
deriving DecidableEq, Repr

/-! ### Requirements -/

/-- A required module with its identity and version bounds. -/
structure ModuleSpec where
  name : Text
  guid : Option Text := none
  minVersion : Option Text := none
  maxVersion : Option Text := none
  exactVersion : Option Text := none
deriving DecidableEq, Repr

/-- What one requirement comment asks for. -/
structure Requires where
  version : Option Text := none
  editions : List Text := []
  modules : List ModuleSpec := []
  runAsAdmin : Bool := false
  assemblies : List Text := []      -- a form that is no longer accepted
deriving DecidableEq, Repr

/-! ### Imports -/

/-- What an import brings in. -/
inductive ImportKind where
  | names           -- a namespace
  | assembly
  | module
  | unknown
deriving DecidableEq, Repr

/-- An import directive. -/
structure Import where
  kind : ImportKind
  name : Text
deriving DecidableEq, Repr

/-! ### Definitions -/

/-- A member of an enumeration with the text of its value, if one is given. -/
structure EnumMember where
  name : Text
  value : Option Text := none
deriving DecidableEq, Repr

/-- An enumeration. -/
structure EnumDef where
  name : Text
  members : List EnumMember
  attributes : List Text := []
  underlyingType : Option Text := none
deriving DecidableEq, Repr

/-- A class with the types it is based on. -/
structure ClassDef where
  name : Text
  baseTypes : List Text := []
deriving DecidableEq, Repr

/-- A variable: its bare name, the target as written, the expression assigned, and the
    type constraints in front of it. -/
structure VariableDef where
  name : Text
  target : Text
  expression : Text
  typeConstraint : Option Text := none
deriving DecidableEq, Repr

/-- The assignment that a variable definition stands for. -/
def VariableDef.render (v : VariableDef) : Text :=
  v.typeConstraint.getD [] ++ v.target ++ " = " ++ v.expression

/-! ### Statements -/

/-- What a statement says. -/
inductive Content where
  | requirement (r : Requires)
  | importing (i : Import)
  | enumeration (e : EnumDef)
  | classType (c : ClassDef)
  | assignment (v : VariableDef)
  | function (name : Text)
  | other
deriving DecidableEq, Repr

/-- A statement with its file, its place and its source text. -/
structure Statement where
  content : Content
  filename : Option Text := none
  span : Option Span := none
  text : Text := []
deriving DecidableEq, Repr

/-! ### Entry points -/

/-- An alias of an entry point and where it is declared. -/
structure AliasDeclaration where
  name : Text
  line : Int
  column : Int
deriving DecidableEq, Repr

/-- An exported script: the function it becomes, its aliases, and the directives taken
    out of its body. -/
structure EntryPoint where
  name : Text
  body : Text
  aliases : List AliasDeclaration := []
  directives : List Statement := []
  filename : Option Text := none
  span : Option Span := none
deriving DecidableEq, Repr

def EntryPoint.render (e : EntryPoint) : Text :=
  "function " ++ e.name ++ " \x7b\n" ++ e.body ++ "\n\x7d"

end ScriptModule
