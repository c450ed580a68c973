/-
  ScriptModule/Text/Excerpt.lean
  ==============================
  **Excerpts.**  A diagnostic shows the offending text on one line: runs of white
  space become one space, and a long text is cut to a limit with three dots.
-/
import ScriptModule.Text.Basic

namespace ScriptModule.Text

/-- The words of a text with one space between neighbours. -/
def collapse (t : Text) : Text := join " " (words t)

/-- The first `n` characters; a negative count leaves that many off the end. -/
def front (n : Int) (t : Text) : Text :=
  match n with
  | .ofNat k => t.take k
  | .negSucc k => t.take (t.length - (k + 1))

/-- The collapsed text, cut to `limit` characters with its last three dots. -/
def excerpt (limit : Int) (t : Text) : Text :=
  if limit < (collapse t).length then front (limit - 3) (collapse t) ++ "..."
  else collapse t

/-- Characters that an excerpt in a diagnostic may have. -/
def excerptLimit : Int := 64

end ScriptModule.Text
