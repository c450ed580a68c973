/-
  ScriptModule/Merge/Imports.lean
  ===============================
  **Merged imports.**  Namespaces and assemblies are kept once each, in order of
  first appearance; a module import has no place in a merged module and is left
  out with a warning.
-/
import ScriptModule.Merge.Assembly
import ScriptModule.Merge.Namespace
import ScriptModule.Report.Problem
import ScriptModule.Statement
import ScriptModule.Table

namespace ScriptModule

/-- The imports of a module by folded name. -/
structure Imports where
  namespaces : Table Text Text := Table.empty
  assemblies : Table Text Text := Table.empty

namespace Imports

def isEmpty (i : Imports) : Bool := i.namespaces.isEmpty && i.assemblies.isEmpty

/-- The import directives of the module. -/
def render (i : Imports) : List Text :=
  i.namespaces.values.map ("using namespace ".toList ++ ·) ++
    i.assemblies.values.map ("using assembly ".toList ++ ·)

/-- Takes in one import; `text` is the directive as written. -/
def add (i : Imports) (stmt : Import) (text : Text) : Imports × Option Problem :=
  match stmt.kind with
  | .names =>
    let shown := Namespace.canonical stmt.name
    ({ i with namespaces := i.namespaces.insertNew (Text.fold shown) shown }, none)
  | .assembly =>
    let shown := Assembly.normalize stmt.name
    ({ i with assemblies := i.assemblies.insertNew (Text.fold shown) shown }, none)
  | .module => (i, some (.moduleImport stmt.name))
  | .unknown => (i, some (.unknownImport text))

end Imports
end ScriptModule
