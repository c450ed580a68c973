/-
  ScriptModule/Merge/Assembly.lean
  ================================
  **Assembly references.**  A reference is a name followed by detail clauses, most
  of the form `key=value`.  Two references with the same clauses in another order
  mean the same, so the clauses are sorted by key.
-/
import ScriptModule.Text.Casing

namespace ScriptModule.Assembly

/-- A clause without white space around its first equals sign. -/
def tidy (clause : Text) : Text :=
  match Text.cut? '=' clause with
  | some (key, value) => Text.trim key ++ "=" ++ Text.trim value
  | none => clause

/-- What clauses are sorted by: the text in front of the first equals sign. -/
def sortKey (clause : Text) : Text :=
  Text.fold (Text.trim (clause.takeWhile (· ≠ '=')))

/-- The clauses in the order of their keys; clauses with equal keys keep their order. -/
def sorted (clauses : List Text) : List Text :=
  clauses.mergeSort fun a b => Text.le (sortKey a) (sortKey b)

def normalize (name : Text) : Text :=
  match (Text.fields ',' name).map Text.trim with
  | [] => []
  | head :: rest => Text.join ", " (head :: sorted ((rest.filter (!·.isEmpty)).map tidy))

end ScriptModule.Assembly
