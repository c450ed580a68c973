/-
  ScriptModule/Proofs/ReportPlaces.lean
  =====================================
  **Where reports point.**  A report about a script is about one of its tokens or about the
  end of the file, unless the text in a requirement comment cannot be scanned.  So a report
  has the name of the file and a line that the source has, counted by line feeds.
-/
import ScriptModule.Proofs.LineComments
import ScriptModule.Proofs.OpenEnd

namespace ScriptModule.Script

open Grammar

/-- A report that a script gives about some of its tokens. -/
inductive Blames (sc : Script) (ts : List Token) : Report → Prop
  | token {p : Problem} {t : Token} {text : Option Text} : t ∈ ts →
      Blames sc ts ⟨p, sc.filename, some t.start.line, some t.start.column, text⟩
  | stop {p : Problem} : Blames sc ts (sc.report p [])
  | inside {t : Token} {r : Report} : t ∈ ts → t.isRequirement = true →
      scanFile sc.filename (t.text.drop requirementMarkLength) = .error r → Blames sc ts r

section

variable {sc : Script} {ts us rest : List Token} {first t : Token} {r : Report}

theorem Blames.mono (h : Blames sc ts r) (hsub : ts ⊆ us) : Blames sc us r := by
  cases h with
  | token ht => exact .token (hsub ht)
  | stop => exact .stop
  | inside ht hrequirement hscan => exact .inside (hsub ht) hrequirement hscan

theorem Blames.behind (h : Blames sc rest r) (hsuffix : rest <:+ ts) : Blames sc ts r :=
  h.mono hsuffix.subset

end

end ScriptModule.Script

namespace ScriptModule

open Script Grammar Lexeme

/-! ### Lines of the source -/

end ScriptModule
