/-
  ScriptModule/Text/Numeral.lean
  ==============================
  **Reading and printing integers.**  Decimal digits of every script are read.
  Decimal text of more than 4300 digits is refused, in reading and in printing.
  A literal may have a sign, white space around it, single underscores between
  digits and, where a base mark is allowed, a leading `0x`, `0o` or `0b`.
-/
import ScriptModule.Text.Quoted
import ScriptModule.Unicode.Digit

namespace ScriptModule

/-! ### Causes of failure -/

/-- Why a text is not read as an integer, or an integer not printed. -/
inductive NumeralError where
  | notDecimal (text : Text)        -- a character without a decimal value
  | tooManyDigits (count : Nat)     -- more decimal digits than are read
  | tooLongToPrint                  -- more decimal digits than are printed
deriving DecidableEq, Repr

/-- Decimal digits that a number may have in text. -/
def maxDigits : Nat := 4300

def NumeralError.message : NumeralError → Text
  | .notDecimal t =>
    "invalid literal for int() with base 10: " ++ (Text.quoted t).take 200
  | .tooManyDigits n =>
    "Exceeds the limit (4300 digits) for integer string conversion: value has " ++
      Text.ofNat n ++ " digits; use sys.set_int_max_str_digits() to increase the limit"
  | .tooLongToPrint =>
    "Exceeds the limit (4300 digits) for integer string conversion; " ++
      "use sys.set_int_max_str_digits() to increase the limit".toList

namespace Numeral

/-! ### Values of digit rows -/

/-- The value of a row of digits, the most significant first. -/
def ofDigits (base : Nat) (ds : List Nat) : Nat := ds.foldl (fun n d => base * n + d) 0

/-- The value of a plain digit or letter as a digit. -/
def digit? (base : Nat) (c : Char) : Option Nat :=
  let value? :=
    if c.isDigit then some (c.toNat - '0'.toNat)
    else if c.isLower then some (c.toNat - 'a'.toNat + 10)
    else if c.isUpper then some (c.toNat - 'A'.toNat + 10)
    else none
  value?.filter (· < base)

/-! ### Reading -/

/-- Reads a row of decimal digits of any script; nothing else may stand in it. -/
def readDecimal (t : Text) : Except NumeralError Nat :=
  let ds := t.takeWhile Unicode.isDecimal
  if maxDigits < ds.length then .error (.tooManyDigits ds.length)
  else if ds.length < t.length then .error (.notDecimal t)
  else .ok (ofDigits 10 (ds.filterMap Unicode.decimalValue?))

/-- The plain form of a character in a literal: white space and decimal digits
    of every script become the common ones, any other character is a mistake. -/
def plainChar (c : Char) : Char :=
  if c.toNat < 127 then c
  else if Unicode.isBlank c then ' '
  else match Unicode.decimalValue? c with
    | some d => Char.ofNat ('0'.toNat + d)
    | none => '?'

/-- White space allowed around a plain literal. -/
def isPadding (c : Char) : Bool :=
  c = ' ' || c = '\t' || c = '\n' || c = '\r' || c = '\x0b' || c = '\x0c'

/-- Reads digits with single underscores between them, then only padding. -/
def readDigits (base : Nat) (t : Text) : Option Nat :=
  let row := t.takeWhile fun c => c = '_' || (digit? base c).isSome
  let groups := Text.fields '_' row
  let digits := row.filterMap (digit? base)
  if groups.all (!·.isEmpty) && (t.drop row.length).all isPadding &&
      !(base == 10 && maxDigits < digits.length) then
    some (ofDigits base digits)
  else none

/-- The text after a base mark, where one underscore may stand. -/
def afterMark : Text → Text
  | '_' :: r => r
  | r => r

/-- Reads digits whose base a mark gives; without a mark the base is ten, and then
    only zero may start with the digit zero. -/
def readMarked (t : Text) : Option Nat :=
  match t with
  | '0' :: m :: r =>
    if m = 'x' || m = 'X' then readDigits 16 (afterMark r)
    else if m = 'o' || m = 'O' then readDigits 8 (afterMark r)
    else if m = 'b' || m = 'B' then readDigits 2 (afterMark r)
    else (readDigits 10 t).filter (· == 0)
  | _ => readDigits 10 t

/-- Reads a literal with the given reader for what follows the sign. -/
def readSigned (read : Text → Option Nat) (t : Text) : Option Int :=
  match (t.map plainChar).dropWhile isPadding with
  | '-' :: r => (read r).map fun n => -(n : Int)
  | '+' :: r => (read r).map fun n => (n : Int)
  | r => (read r).map fun n => (n : Int)

def readInteger (t : Text) : Option Int := readSigned (readDigits 10) t

/-- Reads an integer literal, with a base mark or in decimal with leading zeros. -/
def readLiteral (t : Text) : Option Int :=
  readSigned readMarked t <|> readInteger t

/-! ### Printing -/

/-- The decimal text of an integer, unless it is too long. -/
def print (n : Int) : Except NumeralError Text :=
  if n.natAbs < Nat.pow 10 maxDigits then .ok (Text.ofInt n) else .error .tooLongToPrint

end Numeral
end ScriptModule
