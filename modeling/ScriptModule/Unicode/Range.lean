/-
  ScriptModule/Unicode/Range.lean
  ===============================
  **Classes and maps of code points.**  A class is a list of closed ranges; a
  map that moves many characters by the same distance is a list of shifts.
-/

namespace ScriptModule.Unicode

/-! ### Classes -/

/-- Whether a code point lies in one of the closed ranges. -/
def inRanges (ranges : List (Nat × Nat)) (n : Nat) : Bool :=
  ranges.any fun r => r.1 ≤ n && n ≤ r.2

/-! ### Maps -/

/-- Every `step`-th code point from `first` to `last` moves by `delta`. -/
structure Shift where
  first : Nat
  last : Nat
  step : Nat
  delta : Int

def Shift.covers (s : Shift) (n : Nat) : Bool :=
  s.first ≤ n && n ≤ s.last && (n - s.first) % s.step == 0

/-- The image of a character under the first shift that covers it; a character
    that none covers is its own image. -/
def shiftChar (shifts : List Shift) (c : Char) : Char :=
  match shifts.find? (·.covers c.toNat) with
  | some s => Char.ofNat (Int.toNat (c.toNat + s.delta))
  | none => c

/-- The image of a character under a map with expansions to several characters. -/
def mapChar (shifts : List Shift) (expansions : List (Nat × List Nat)) (c : Char) : List Char :=
  match expansions.lookup c.toNat with
  | some ns => ns.map Char.ofNat
  | none => [shiftChar shifts c]

end ScriptModule.Unicode
