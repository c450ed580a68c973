/-
  ScriptModule/Unicode/Blank.lean
  ===============================
  **White space.**  The characters that trimming removes and that an excerpt
  collapses.
-/
import ScriptModule.Unicode.Range

namespace ScriptModule.Unicode

def blankRanges : List (Nat × Nat) := [
  (0x9, 0xd), (0x1c, 0x20), (0x85, 0x85), (0xa0, 0xa0), (0x1680, 0x1680), (0x2000, 0x200a),
  (0x2028, 0x2029), (0x202f, 0x202f), (0x205f, 0x205f), (0x3000, 0x3000)]

/-- White space of any script, the information separators included. -/
def isBlank (c : Char) : Bool := inRanges blankRanges c.toNat

end ScriptModule.Unicode
