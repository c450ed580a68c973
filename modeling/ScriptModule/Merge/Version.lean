/-
  ScriptModule/Merge/Version.lean
  ===============================
  **Versions.**  A version is a row of numbers with dots between them.  Zeros at the
  end make no difference: versions are compared by keys without them.
-/
import ScriptModule.Text.Numeral

namespace ScriptModule.Version

def isNumber (t : Text) : Bool := !t.isEmpty && t.all Unicode.isDigit

/-- The numbers of a version text; nothing if it is not one.  A digit without a
    decimal value cannot be read. -/
def read? (t : Text) : Except NumeralError (Option (List Nat)) :=
  let parts := Text.fields '.' (Text.trim t)
  if parts.all isNumber then (parts.mapM Numeral.readDecimal).map some else .ok none

/-- The numbers of a version without the zeros at its end; the first number stays. -/
def key (v : List Nat) : List Nat :=
  match (v.reverse.dropWhile (· == 0)).reverse with
  | [] => v.take 1
  | k => k

/-- The key of a version text that can be read. -/
def keyOf (t : Text) : List Nat :=
  match read? t with
  | .ok (some v) => key v
  | _ => []

/-- Whether one row of numbers stands before another: by the first difference, and a
    beginning before the whole. -/
def less : List Nat → List Nat → Bool
  | _, [] => false
  | [], _ :: _ => true
  | a :: as, b :: bs => a < b || (a == b && less as bs)

end ScriptModule.Version
