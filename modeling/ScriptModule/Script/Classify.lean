/-
  ScriptModule/Script/Classify.lean
  =================================
  **Classification.**  A script without a parameter block is a sequence of
  directives and definitions.  Between them stand line ends, semicolons and
  comments; anything else at the top level is refused.
-/
import ScriptModule.Script.Declaration
import ScriptModule.Script.Requirement
import ScriptModule.Script.Using

namespace ScriptModule.Script

def statementsFrom (sc : Script) (ts : List Token) : Except Report (List Statement) :=
  match ts with
  | [] => .ok []
  | t :: r =>
    if t.kind == .newline || t.kind == .semicolon || t.isRemark then sc.statementsFrom r
    else if t.kind = .comment then
      match sc.requirement t with
      | .error e => .error e
      | .ok s => (sc.statementsFrom r).map (s :: ·)
    else if t.kind = .usingWord then
      match _h : sc.usingDirective t r with
      | .error e => .error e
      | .ok p => (sc.statementsFrom p.rest).map (p.value :: ·)
    else
      match _h : sc.declaration t r with
      | .error e => .error e
      | .ok p => (sc.statementsFrom p.rest).map (p.value :: ·)
termination_by ts.length
decreasing_by
  · simp
  · simp
  · have := usingDirective_length _h; simp only [List.length_cons]; omega
  · have := declaration_length _h; simp only [List.length_cons]; omega

def statements (sc : Script) : Except Report (List Statement) := sc.statementsFrom sc.tokens

def classify (filename : Option Text) (source : Text) : Except Report (List Statement) :=
  match ofSource filename source with
  | .error e => .error e
  | .ok sc => sc.statements

end ScriptModule.Script
