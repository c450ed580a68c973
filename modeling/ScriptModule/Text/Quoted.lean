/-
  ScriptModule/Text/Quoted.lean
  =============================
  **Quoted text for messages and listings.**  A text is shown between single
  quotes, or between double quotes if it holds a single quote and no double one.
  A backslash and the quote in use are escaped; so is every character that has
  no visible form.
-/
import ScriptModule.Text.Basic
import ScriptModule.Unicode.Printable

namespace ScriptModule.Text

/-! ### Escapes -/

/-- The lower case hexadecimal digits of a code point, at least `width` of them. -/
def hexText (width n : Nat) : Text :=
  let ds := Nat.toDigits 16 n
  List.replicate (width - ds.length) '0' ++ ds

/-- The numeric escape of a character, in the shortest of its three lengths. -/
def escapeCode (c : Char) : Text :=
  if c.toNat ≤ 0xff then "\\x" ++ hexText 2 c.toNat
  else if c.toNat ≤ 0xffff then "\\u" ++ hexText 4 c.toNat
  else "\\U" ++ hexText 8 c.toNat

def escapeChar (quote c : Char) : Text :=
  if c = quote || c = '\\' then ['\\', c]
  else if c = '\n' then ['\\', 'n']
  else if c = '\r' then ['\\', 'r']
  else if c = '\t' then ['\\', 't']
  else if Unicode.isPrintable c then [c]
  else escapeCode c

/-! ### Quoting -/

def quoteFor (t : Text) : Char :=
  if t.contains '\'' && !t.contains '"' then '"' else '\''

def quoted (t : Text) : Text :=
  quoteFor t :: t.flatMap (escapeChar (quoteFor t)) ++ [quoteFor t]

end ScriptModule.Text
