/-
  ScriptModule/Proofs/LexicalProblem.lean
  =======================================
  **Lexical problems.**  A scan fails with a problem of the characters, and with no other
  one; the options of a requirement comment, which are tokens, never have such a problem.
-/
import ScriptModule.Script.Requirement

namespace ScriptModule

open Lexeme

/-- Problems that are found when characters are cut into tokens. -/
def Problem.isLexical : Problem → Bool
  | unterminatedString | unterminatedHereString | unterminatedComment | unterminatedVariable =>
    true
  | _ => false

/-! ### Scans -/

theorem dollar_isLexical {t : Text} {p : Problem} (h : dollar t = .error p) :
    p.isLexical = true := by
  unfold dollar at h
  split at h
  · cases h
  · split at h
    · cases h
    · cases h
      rfl
  · split at h
    · cases h
    · split at h <;> cases h
  · cases h

theorem atSign_isLexical {t : Text} {p : Problem} (h : atSign t = .error p) :
    p.isLexical = true := by
  unfold atSign at h
  split at h
  · cases h
  · cases h
  · split at h
    · split at h
      · cases h
      · cases h
        rfl
    · split at h <;> cases h

theorem ofString_isLexical {s : Option (Nat × Text)} {p : Problem}
    (h : ofString s = .error p) : p.isLexical = true := by
  unfold ofString at h
  split at h
  · cases h
  · cases h
    rfl

theorem read_isLexical {sign : Bool} {c : Char} {r : Text} {p : Problem}
    (h : Lexeme.read sign c r = .error p) : p.isLexical = true := by
  unfold Lexeme.read at h
  split at h
  · cases h
  · split at h
    · cases h
    · split at h
      · cases h
      · cases h
        rfl
    · exact dollar_isLexical h
    · exact atSign_isLexical h
    · exact ofString_isLexical h
    · exact ofString_isLexical h
    all_goals cases h

theorem scanFrom_isLexical {before : Option TokenKind} {place : Position} {t : Text}
    {e : ScanError} (h : scanFrom before place t = .error e) : e.problem.isLexical = true := by
  fun_induction scanFrom before place t with
  | case1 => cases h
  | case2 before place c r n hgap ih => exact ih h
  | case3 before place c r hgap p hread =>
    cases h
    exact read_isLexical hread
  | case4 before place c r hgap l hread tok e' herror =>
    rename_i ih
    cases h
    exact ih herror
  | case5 => cases h

theorem scanFile_isLexical {filename : Option Text} {t : Text} {r : Report}
    (h : scanFile filename t = .error r) : r.problem.isLexical = true := by
  unfold scanFile at h
  cases hscan : scan t with
  | error e =>
    rw [hscan] at h
    cases h
    exact scanFrom_isLexical hscan
  | ok s =>
    rw [hscan] at h
    cases h

end ScriptModule

namespace ScriptModule.Script

/-! ### Requirement options -/

theorem moduleEntry_isLexical {ts : List Token} {p : Problem} (h : moduleEntry ts = .error p) :
    p.isLexical = false := by
  unfold moduleEntry at h
  split at h
  · cases h
    rfl
  · split at h
    · cases h
      rfl
    · split at h
      · cases h
        rfl
      · split at h
        · split at h <;> cases h
          rfl
        · cases h
          rfl

theorem moduleTable_isLexical {s : Option Text × ModuleSpec} {ts : List Token} {p : Problem}
    (h : moduleTable s ts = .error p) : p.isLexical = false := by
  fun_induction moduleTable s ts with
  | case1 =>
    cases h
    rfl
  | case2 => cases h
  | case3 =>
    cases h
    rfl
  | case4 s ts t rest hgap hclose e hentry =>
    cases h
    exact moduleEntry_isLexical hentry
  | case5 s ts t rest hgap hclose key v more hentry ih => exact ih h

theorem moduleSpec_isLexical {ts : List Token} {p : Problem} (h : moduleSpec ts = .error p) :
    p.isLexical = false := by
  unfold moduleSpec at h
  split at h
  · split at h
    · exact moduleTable_isLexical h
    · split at h <;> cases h
      rfl
  · cases h
    rfl

theorem moduleSpecs_isLexical {ts : List Token} {p : Problem} (h : moduleSpecs ts = .error p) :
    p.isLexical = false := by
  fun_induction moduleSpecs ts with
  | case1 ts e hspec =>
    cases h
    exact moduleSpec_isLexical hspec
  | case2 => cases h
  | case3 ts m c more hspec hcomma e hspecs ih =>
    cases h
    exact ih hspecs
  | case4 => cases h
  | case5 => cases h

theorem requirementOption_isLexical {req : Requires} {option : Token} {ts : List Token}
    {p : Problem} (h : requirementOption req option ts = .error p) : p.isLexical = false := by
  unfold requirementOption at h
  dsimp only at h
  split at h
  · split at h <;> cases h
    rfl
  · split at h
    · split at h <;> cases h
      rfl
    · split at h
      · split at h
        · next e hspecs =>
          cases h
          exact moduleSpecs_isLexical hspecs
        · cases h
      · split at h
        · cases h
        · split at h <;> cases h
          rfl

theorem requirementOptions_isLexical {req : Requires} {ts : List Token} {p : Problem}
    (h : requirementOptions req ts = .error p) : p.isLexical = false := by
  fun_induction requirementOptions req ts with
  | case1 => cases h
  | case2 req t more hkind e hoption =>
    cases h
    exact requirementOption_isLexical hoption
  | case3 req t more hkind req' rest hoption ih => exact ih h
  | case4 =>
    cases h
    rfl

end ScriptModule.Script
