/-
  ScriptModule/Text/Casing.lean
  =============================
  **Upper and lower case.**  Names are compared by their folded text, so that two
  spellings of one name are equal exactly when their folds are.  Folding works
  character by character; lower case alone looks at the neighbours, because a
  capital sigma at the end of a word becomes a final sigma.
-/
import ScriptModule.Text.Basic
import ScriptModule.Unicode.FoldTable
import ScriptModule.Unicode.UpperTable
import ScriptModule.Unicode.LowerTable
import ScriptModule.Unicode.CaseClass

namespace ScriptModule.Text

/-! ### Folding -/

def foldChar (c : Char) : Text :=
  if c.toNat < 128 then [c.toLower]
  else Unicode.mapChar Unicode.foldShifts Unicode.foldExpansions c

/-- The fold of a text: two spellings of a name have the same fold. -/
def fold (t : Text) : Text := t.flatMap foldChar

/-- Whether two texts are spellings of one name. -/
def sameName (a b : Text) : Bool := fold a == fold b

/-! ### Upper and lower case -/

def upperChar (c : Char) : Text :=
  if c.toNat < 128 then [c.toUpper]
  else Unicode.mapChar Unicode.upperShifts Unicode.upperExpansions c

/-- The small form of one character that is not a capital sigma. -/
def lowerChar (c : Char) : Text :=
  if c.toNat < 128 then [c.toLower]
  else Unicode.mapChar Unicode.lowerShifts Unicode.lowerExpansions c

/-- Whether the nearest character that is not passed over has a case. -/
def casedAhead (t : Text) : Bool :=
  match t.dropWhile Unicode.isCaseIgnorable with
  | c :: _ => Unicode.isCased c
  | [] => false

/-- Lower case of a text whose characters before it are given nearest first. -/
def lowerAfter (before : Text) : Text → Text
  | [] => []
  | c :: r =>
    (if c = 'Σ' then
      (if casedAhead before && !casedAhead r then ['ς'] else ['σ'])
    else lowerChar c) ++ lowerAfter (c :: before) r

def lower (t : Text) : Text := lowerAfter [] t

/-- Whether a text has a capital and no small or titlecase letter. -/
def isAllCapitals (t : Text) : Bool :=
  t.any Unicode.isCapital && !t.any Unicode.isSmall

/-- The text with its first letter capital and the others small. -/
def capitalize : Text → Text
  | [] => []
  | c :: r => upperChar c ++ lower r

end ScriptModule.Text
