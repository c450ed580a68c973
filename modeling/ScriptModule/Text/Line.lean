/-
  ScriptModule/Text/Line.lean
  ===========================
  **Lines.**  On reading, every line end becomes a single line feed.  When a line is
  shown, further characters that a terminal may break a line at end it too.
-/
import ScriptModule.Text.Basic

namespace ScriptModule.Text

/-! ### Line feeds -/

/-- The text with a line feed for each carriage return, alone or before a line feed. -/
def withLineFeeds : Text → Text
  | [] => []
  | '\r' :: '\n' :: t => '\n' :: withLineFeeds t
  | c :: t => (if c = '\r' then '\n' else c) :: withLineFeeds t

theorem cr_not_mem_withLineFeeds (t : Text) : '\r' ∉ withLineFeeds t := by
  fun_induction withLineFeeds t with
  | case1 => simp
  | case2 t ih => simp [ih]
  | case3 c t _ ih =>
    by_cases h : c = '\r'
    · simp [h, ih]
    · simp [h, ih, Ne.symm h]

/-! ### Lines as they are shown -/

/-- Whether a line that is shown ends at a character. -/
def isLineEnd (c : Char) : Bool :=
  c = '\n' || c = '\r' || c = '\x0b' || c = '\x0c' || c = '\x1c' || c = '\x1d' || c = '\x1e' ||
    c = '\u0085' || c = '\u2028' || c = '\u2029'

/-- The lines of a text without pairs of line ends; a line end at the very end begins
    no further line. -/
def lines (t : Text) : List Text :=
  let ls := fieldsBy isLineEnd t
  if ls.getLast? = some [] then ls.dropLast else ls

end ScriptModule.Text
