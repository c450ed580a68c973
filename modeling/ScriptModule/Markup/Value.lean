/-
  ScriptModule/Markup/Value.lean
  ==============================
  **What is written between quotes.**  The value of an entity is text in which character
  numbers are replaced.  The value of an attribute is a row of characters, spaces and
  references.
-/
import ScriptModule.Markup.Content

namespace ScriptModule.Markup

/-! ### Values of entities -/

/-- The value of an entity, in which only character numbers are replaced. -/
def entityValue (w : Width) (t : Text) : Except Mistake Text :=
  match t with
  | [] => .ok []
  | '\r' :: '\n' :: r => (entityValue w r).map ('\n' :: ·)
  | c :: r =>
    if c = '\r' then (entityValue w r).map ('\n' :: ·)
    else if c = '&' then
      match _h : Reference.read w r with
      | .error (.bad here) => .error ⟨.invalidToken, here⟩
      | .error _ => .error ⟨.invalidToken, c :: r⟩
      | .ok (.entity _, _) => (entityValue w r).map (c :: ·)
      | .ok (.character none, _) => .error ⟨.badCharacterNumber, c :: r⟩
      | .ok (.character (some d), rest) => (entityValue w rest).map (d :: ·)
    else if c = '%' then
      match parameter w r with
      | .error (.bad here) => .error ⟨.invalidToken, here⟩
      | .error _ => .error ⟨.invalidToken, c :: r⟩
      | .ok (none, here) => .error ⟨.invalidToken, here⟩
      | .ok (some _, _) => .error ⟨.parameterReference, c :: r⟩
    else (entityValue w r).map (c :: ·)
termination_by t.length
decreasing_by
  all_goals simp only [List.length_cons]
  all_goals first | omega | (have hr := Reference.read_length _h; omega)

/-! ### Values of attributes -/

/-- What a value is made of. -/
inductive ValuePart where
  | characters (t : Text)      -- as written
  | numbered (c : Char)        -- by its number
  | space
  | entity (name : Text)
  | fault (c : Cause)
deriving DecidableEq, Repr

/-- A part of a value, the text that starts with it, and how many bytes it counts for. -/
structure ValueItem where
  part : ValuePart
  here : Text
  size : Nat
deriving DecidableEq, Repr

def Reference.valuePart : Reference → ValuePart
  | .entity n => .entity n
  | .character none => .fault .badCharacterNumber
  | .character (some c) => .numbered c

/-- Whether a character of a value is no part together with others. -/
def standsApart (c : Char) : Bool := isBlank c || c = '&' || c = '<'

/-- The parts of a value.  A carriage return at its end counts for nothing. -/
def valueItems (w : Width) (t : Text) : List ValueItem :=
  match t with
  | [] => []
  | '\r' :: '\n' :: r => ⟨.space, t, 2 * w.unit⟩ :: valueItems w r
  | ['\r'] => [⟨.space, t, 0⟩]
  | c :: r =>
    if isBlank c then ⟨.space, t, w.unit⟩ :: valueItems w r
    else if c = '<' then [⟨.fault .invalidToken, t, 0⟩]
    else if c = '&' then
      match _h : Reference.read w r with
      | .error (.bad here) => [⟨.fault .invalidToken, here, 0⟩]
      | .error _ => [⟨.fault .invalidToken, t, 0⟩]
      | .ok (v, rest) => ⟨v.valuePart, t, w.size (tokenText t)⟩ :: valueItems w rest
    else
      let run := c :: r.takeWhile fun d => !standsApart d
      ⟨.characters run, t, w.size run⟩ :: valueItems w (r.dropWhile fun d => !standsApart d)
termination_by t.length
decreasing_by
  all_goals simp only [List.length_cons]
  all_goals first
    | omega
    | (have hr := Reference.read_length _h; omega)
    | exact Nat.lt_succ_of_le (dropWhile_length_le _ _)

/-- Whether two spaces follow each other, or a space comes last. -/
def hasLooseSpace : Text → Bool
  | ' ' :: r => r.isEmpty || r.head? = some ' ' || hasLooseSpace r
  | _ :: r => hasLooseSpace r
  | [] => false

/-- Whether nothing in a value as written has to be replaced or left out, whatever type
    its attribute has. -/
def isSettled (value : Text) : Bool :=
  !(value.head? = some ' ' || hasLooseSpace value ||
    value.any fun c => c = '&' || (isBlank c && c != ' '))

end ScriptModule.Markup
