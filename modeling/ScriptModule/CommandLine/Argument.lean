/-
  ScriptModule/CommandLine/Argument.lean
  ======================================
  **Arguments.**  What each argument is before any is acted on.  An option may be cut
  short where only one spelling begins so, and may carry text behind its name.
-/
import ScriptModule.CommandLine.Grammar
import ScriptModule.Unicode.Digit

namespace ScriptModule

/-- An option with its full name and the text behind it, after an equals sign or at once. -/
structure Use where
  switch : Switch
  name : Text
  attached : Option Text
deriving DecidableEq, Repr

/-- An argument: plain, the mark behind which all are plain, or an option. -/
inductive Argument where
  | plain (given : Text)
  | mark
  | unknown (given : Text)
  | option (given : Text) (u : Use)
deriving DecidableEq, Repr

namespace Argument

def text : Argument → Text
  | .plain t => t
  | .mark => "--"
  | .unknown t => t
  | .option t _ => t

/-! ### Kinds of arguments -/

/-- Whether a text is a minus sign with decimal digits, or with a decimal fraction; a
    line feed may stand behind it. -/
def isNegativeNumber : Text → Bool
  | '-' :: r =>
    let r := if r.getLast? = some '\n' then r.dropLast else r
    match Text.cut? '.' r with
    | none => !r.isEmpty && r.all Unicode.isDecimal
    | some (whole, part) =>
      whole.all Unicode.isDecimal && !part.isEmpty && part.all Unicode.isDecimal
  | _ => false

/-- The text before the first equals sign, and what stands behind it. -/
def split (t : Text) : Text × Option Text :=
  match Text.cut? '=' t with
  | some (name, value) => (name, some value)
  | none => (t, none)

/-- The uses that an argument may stand for, none of which it spells out. -/
def candidates (g : Grammar) : Text → List Use
  | '-' :: '-' :: r =>
    let (start, attached) := split ('-' :: '-' :: r)
    (g.spellings.filter fun n => start.isPrefixOf n.1).map fun n => ⟨n.2, n.1, attached⟩
  | '-' :: c :: r =>
    (g.spellings.filter fun n => n.1 = ['-', c]).map fun n => ⟨n.2, n.1, some r⟩
  | _ => []

/-- The use that an argument spells out, with a value or without. -/
def spelled? (g : Grammar) (t : Text) : Option Use :=
  match g.switch? t with
  | some s => some ⟨s, t, none⟩
  | none =>
    match split t with
    | (name, some value) => (g.switch? name).map fun s => ⟨s, name, some value⟩
    | (_, none) => none

/-- Reads an argument that begins with a minus sign and goes on behind it. -/
def readOption (g : Grammar) (t : Text) : Except UsageError Argument :=
  match spelled? g t with
  | some u => .ok (.option t u)
  | none =>
    match candidates g t with
    | [u] => .ok (.option t u)
    | [] => .ok (if isNegativeNumber t || t.contains ' ' then .plain t else .unknown t)
    | us => .error (.ambiguous t (us.map Use.name))

def read (g : Grammar) : Text → Except UsageError Argument
  | '-' :: c :: r => readOption g ('-' :: c :: r)
  | t => .ok (.plain t)

/-- Reads arguments; behind the mark all are plain. -/
def readAll (g : Grammar) : List Text → Except UsageError (List Argument)
  | [] => .ok []
  | t :: ts =>
    if t = ['-', '-'] then .ok (.mark :: ts.map .plain)
    else
      match read g t, readAll g ts with
      | .error e, _ => .error e
      | .ok _, .error e => .error e
      | .ok a, .ok as => .ok (a :: as)

end Argument
end ScriptModule
