/-
  ScriptModule/Merge/EnumText.lean
  ================================
  **Canonical enumerations.**  Every member has a value: the one written behind it,
  or one more than the member in front of it, from zero on.  In the canonical text
  all values are written out in one column, so that two spellings of one enumeration
  have the same text.
-/
import ScriptModule.Report.Basic
import ScriptModule.Statement

namespace ScriptModule.EnumDef

/-- The members with their values, where `next` is the value that follows. -/
def valuesFrom (enum : Text) (next : Int) :
    List EnumMember → Except Problem (List (Text × Int))
  | [] => .ok []
  | m :: ms => do
    let v ← match m.value with
      | none => pure next
      | some t =>
        match Numeral.readLiteral (Text.trim t) with
        | some n => pure n
        | none => .error (.badMemberValue enum m.name t)
    let rest ← valuesFrom enum (v + 1) ms
    return (m.name, v) :: rest

def values (e : EnumDef) : Except Problem (List (Text × Int)) := valuesFrom e.name 0 e.members

def header (e : EnumDef) : Text :=
  "enum " ++ e.name ++
    (match e.underlyingType with
      | some (c :: u) => " : ".toList ++ (c :: u)
      | _ => []) ++ " \x7b"

/-- The line of a member, its name in a column of the given width. -/
def memberLine (width : Nat) (m : Text × Int) : Except NumeralError Text :=
  (Numeral.print m.2).map fun v => "    " ++ Text.padEnd width m.1 ++ " = " ++ v

def nameWidth (vs : List (Text × Int)) : Nat := vs.foldl (fun w m => max w m.1.length) 0

def canonicalText (e : EnumDef) : Except Rejection Text :=
  match e.values with
  | .error p => .error (.problem p)
  | .ok vs =>
    match vs.mapM (memberLine (nameWidth vs)) with
    | .error n => .error (.numeral n)
    | .ok ls => .ok (Text.join "\n" (e.attributes ++ e.header :: ls ++ ["\x7d".toList]))

end ScriptModule.EnumDef
