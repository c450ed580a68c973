/-
  ScriptModule/Proofs/MemberValues.lean
  =====================================
  **The values of the members of an enumeration.**  A value written behind a member is read as
  a literal, and counting goes on from it; the first value that is no literal is reported.
  Beside decimal and `0x` literals, as they are documented, others are read.
-/
import ScriptModule.Proofs.CanonicalEnum
import ScriptModule.Proofs.LiteralGrammar

namespace ScriptModule

open Numeral

/-! ### Written values -/

namespace EnumMember

/-- Whether the value written behind a member, if there is one, is a literal. -/
def HasLiteral (k : Convention) (m : EnumMember) : Prop :=
  ∀ t ∈ m.value, ∃ v, k.Signed (Text.trim t) v

/-- Whether the value written behind a member, if there is one, is plain behind its sign. -/
def HasPlainValue (m : EnumMember) : Prop := ∀ t ∈ m.value, IsPlain (afterSign (Text.trim t))

section

variable {k : Convention} {m : EnumMember} {t : Text}

theorem hasLiteral_of_none (hm : m.value = none) : m.HasLiteral k := by
  intro t ht
  rw [hm] at ht
  cases ht

theorem hasLiteral_of_some (hm : m.value = some t) :
    m.HasLiteral k ↔ ∃ v, k.Signed (Text.trim t) v := by
  rw [HasLiteral, hm]
  simp

theorem hasPlainValue_of_none (hm : m.value = none) : m.HasPlainValue := by
  intro t ht
  rw [hm] at ht
  cases ht

theorem hasPlainValue_of_some (hm : m.value = some t) :
    m.HasPlainValue ↔ IsPlain (afterSign (Text.trim t)) := by
  rw [HasPlainValue, hm]
  simp

end
end EnumMember

/-- Values in the order of the members, where `next` is the value of the first of them if none
    is written behind it: a written literal has its own value, and the next one follows it. -/
inductive Assigned (k : Convention) : Int → List EnumMember → List (Text × Int) → Prop where
  | nil {next : Int} : Assigned k next [] []
  | written {next v : Int} {m : EnumMember} {t : Text} {ms : List EnumMember}
      {vs : List (Text × Int)} : m.value = some t → k.Signed (Text.trim t) v →
      Assigned k (v + 1) ms vs → Assigned k next (m :: ms) ((m.name, v) :: vs)
  | counted {next : Int} {m : EnumMember} {ms : List EnumMember} {vs : List (Text × Int)} :
      m.value = none → Assigned k (next + 1) ms vs →
      Assigned k next (m :: ms) ((m.name, next) :: vs)

/-- The report of the first written value that is no literal. -/
inductive Refused (k : Convention) (enum : Text) : List EnumMember → Problem → Prop where
  | here {m : EnumMember} {t : Text} {ms : List EnumMember} : m.value = some t →
      ¬ m.HasLiteral k → Refused k enum (m :: ms) (.badMemberValue enum m.name t)
  | behind {m : EnumMember} {ms : List EnumMember} {p : Problem} : m.HasLiteral k →
      Refused k enum ms p → Refused k enum (m :: ms) p

section

variable {k : Convention} {next : Int} {m : EnumMember} {t : Text} {ms : List EnumMember}
  {vs : List (Text × Int)}

theorem Assigned.cons_counted (hm : m.value = none) : Assigned k next (m :: ms) vs ↔
    ∃ rest, Assigned k (next + 1) ms rest ∧ (m.name, next) :: rest = vs := by
  constructor
  · intro h
    cases h with
    | written hsome _ _ =>
      rw [hm] at hsome
      cases hsome
    | counted _ hrest => exact ⟨_, hrest, rfl⟩
  · rintro ⟨rest, hrest, rfl⟩
    exact .counted hm hrest

theorem Assigned.cons_written (hm : m.value = some t) : Assigned k next (m :: ms) vs ↔
    ∃ v, k.Signed (Text.trim t) v ∧ ∃ rest, Assigned k (v + 1) ms rest ∧
      (m.name, v) :: rest = vs := by
  constructor
  · intro h
    cases h with
    | written hsome ht hrest =>
      rw [hm] at hsome
      obtain rfl := Option.some.inj hsome
      exact ⟨_, ht, _, hrest, rfl⟩
    | counted hnone _ =>
      rw [hm] at hnone
      cases hnone
  · rintro ⟨v, ht, rest, hrest, rfl⟩
    exact .written hm ht hrest

theorem Refused.code {enum : Text} {p : Problem} (h : Refused k enum ms p) :
    p.code = "TYP-0010".toList := by
  induction h with
  | here _ _ => rfl
  | behind _ _ ih => exact ih

/-- Values are given to all members exactly when every written value is a literal. -/
theorem exists_assigned_iff : (∃ vs, Assigned k next ms vs) ↔ ∀ m ∈ ms, m.HasLiteral k := by
  induction ms generalizing next with
  | nil =>
    constructor
    · intro _ m hm
      cases hm
    · intro _
      exact ⟨[], .nil⟩
  | cons m ms ih =>
    rw [List.forall_mem_cons]
    cases hm : m.value with
    | none =>
      constructor
      · rintro ⟨vs, h⟩
        obtain ⟨rest, hrest, -⟩ := (Assigned.cons_counted hm).mp h
        exact ⟨EnumMember.hasLiteral_of_none hm, ih.mp ⟨rest, hrest⟩⟩
      · rintro ⟨-, hms⟩
        obtain ⟨rest, hrest⟩ := ih.mpr hms
        exact ⟨_, .counted hm hrest⟩
    | some t =>
      rw [EnumMember.hasLiteral_of_some hm]
      constructor
      · rintro ⟨vs, h⟩
        obtain ⟨v, hv, rest, hrest, -⟩ := (Assigned.cons_written hm).mp h
        exact ⟨⟨v, hv⟩, ih.mp ⟨rest, hrest⟩⟩
      · rintro ⟨⟨v, hv⟩, hms⟩
        obtain ⟨rest, hrest⟩ := ih.mpr hms
        exact ⟨_, .written hm hv hrest⟩

/-- Documented literals give the values that are read, if the written values are plain. -/
theorem assigned_documented_iff :
    Assigned documented next ms vs ↔
      Assigned accepted next ms vs ∧ ∀ m ∈ ms, m.HasPlainValue := by
  induction ms generalizing next vs with
  | nil =>
    constructor
    · intro h
      cases h
      exact ⟨.nil, nofun⟩
    · rintro ⟨h, -⟩
      cases h
      exact .nil
  | cons m ms ih =>
    rw [List.forall_mem_cons]
    cases hm : m.value with
    | none =>
      rw [Assigned.cons_counted hm, Assigned.cons_counted hm]
      constructor
      · rintro ⟨rest, hrest, rfl⟩
        obtain ⟨haccepted, hplain⟩ := ih.mp hrest
        exact ⟨⟨rest, haccepted, rfl⟩, EnumMember.hasPlainValue_of_none hm, hplain⟩
      · rintro ⟨⟨rest, hrest, rfl⟩, -, hplain⟩
        exact ⟨rest, ih.mpr ⟨hrest, hplain⟩, rfl⟩
    | some t =>
      rw [Assigned.cons_written hm, Assigned.cons_written hm, EnumMember.hasPlainValue_of_some hm]
      constructor
      · rintro ⟨v, hv, rest, hrest, rfl⟩
        obtain ⟨hvalue, hm⟩ := documented_signed_iff.mp hv
        obtain ⟨haccepted, hplain⟩ := ih.mp hrest
        exact ⟨⟨v, hvalue, rest, haccepted, rfl⟩, hm, hplain⟩
      · rintro ⟨⟨v, hv, rest, hrest, rfl⟩, hm, hplain⟩
        exact ⟨v, documented_signed_iff.mpr ⟨hv, hm⟩, rest, ih.mpr ⟨hrest, hplain⟩, rfl⟩

end

namespace EnumDef

section

variable {enum t : Text} {next v : Int} {m : EnumMember} {ms : List EnumMember}
  {vs : List (Text × Int)}

/-! ### One member -/

theorem valuesFrom_counted (hm : m.value = none) :
    valuesFrom enum next (m :: ms) =
      valuesFrom enum (next + 1) ms >>= fun vs => .ok ((m.name, next) :: vs) := by
  rw [valuesFrom, hm]
  rfl

theorem valuesFrom_written (hm : m.value = some t) (ht : accepted.Signed (Text.trim t) v) :
    valuesFrom enum next (m :: ms) =
      valuesFrom enum (v + 1) ms >>= fun vs => .ok ((m.name, v) :: vs) := by
  have hread := (readLiteral_eq_some_iff (Text.isTrimmed_trim t)).mpr ht
  rw [valuesFrom, hm]
  simp only [hread]
  rfl

theorem valuesFrom_refused (hm : m.value = some t) (ht : ¬ m.HasLiteral accepted) :
    valuesFrom enum next (m :: ms) = .error (.badMemberValue enum m.name t) := by
  rw [EnumMember.hasLiteral_of_some hm] at ht
  have hread : readLiteral (Text.trim t) = none := by
    rw [Option.eq_none_iff_forall_ne_some]
    intro v hv
    exact ht ⟨v, (readLiteral_eq_some_iff (Text.isTrimmed_trim t)).mp hv⟩
  rw [valuesFrom, hm]
  simp only [hread]
  rfl

/-- A member that is not refused leaves the values behind it to be found. -/
theorem exists_valuesFrom_bind (hm : m.HasLiteral accepted) : ∃ v,
    valuesFrom enum next (m :: ms) =
      valuesFrom enum (v + 1) ms >>= fun vs => .ok ((m.name, v) :: vs) := by
  cases hvalue : m.value with
  | none => exact ⟨next, valuesFrom_counted hvalue⟩
  | some t =>
    obtain ⟨v, hv⟩ := (EnumMember.hasLiteral_of_some hvalue).mp hm
    exact ⟨v, valuesFrom_written hvalue hv⟩

/-! ### All members -/

theorem valuesFrom_eq_ok_iff :
    valuesFrom enum next ms = .ok vs ↔ Assigned accepted next ms vs := by
  induction ms generalizing next vs with
  | nil =>
    constructor
    · intro h
      cases h
      exact .nil
    · intro h
      cases h
      rfl
  | cons m ms ih =>
    cases hm : m.value with
    | none =>
      rw [valuesFrom_counted hm, bind_eq_ok, Assigned.cons_counted hm]
      simp only [ih, Except.ok.injEq]
    | some t =>
      rw [Assigned.cons_written hm]
      by_cases ht : m.HasLiteral accepted
      · obtain ⟨v, hv⟩ := (EnumMember.hasLiteral_of_some hm).mp ht
        rw [valuesFrom_written hm hv, bind_eq_ok]
        simp only [ih, Except.ok.injEq]
        constructor
        · rintro ⟨rest, hrest, rfl⟩
          exact ⟨v, hv, rest, hrest, rfl⟩
        · rintro ⟨w, hw, rest, hrest, rfl⟩
          obtain rfl := signed_unique (Text.isTrimmed_trim t) hv hw
          exact ⟨rest, hrest, rfl⟩
      · rw [valuesFrom_refused hm ht]
        constructor
        · intro h
          cases h
        · rintro ⟨v, hv, -⟩
          exact absurd ((EnumMember.hasLiteral_of_some hm).mpr ⟨v, hv⟩) ht

theorem valuesFrom_eq_error_iff {p : Problem} :
    valuesFrom enum next ms = .error p ↔ Refused accepted enum ms p := by
  induction ms generalizing next with
  | nil =>
    constructor
    · intro h
      cases h
    · intro h
      cases h
  | cons m ms ih =>
    by_cases hm : m.HasLiteral accepted
    · obtain ⟨v, hv⟩ := @exists_valuesFrom_bind enum next m ms hm
      rw [hv, bind_eq_error]
      constructor
      · rintro (h | ⟨vs, -, h⟩)
        · exact .behind hm (ih.mp h)
        · cases h
      · intro h
        cases h with
        | here _ ht => exact absurd hm ht
        | behind _ h => exact .inl (ih.mpr h)
    · cases hvalue : m.value with
      | none => exact absurd (EnumMember.hasLiteral_of_none hvalue) hm
      | some t =>
        rw [valuesFrom_refused hvalue hm]
        constructor
        · intro h
          obtain rfl := Except.error.inj h
          exact .here hvalue hm
        · intro h
          cases h with
          | here hsome _ =>
            rw [hvalue] at hsome
            obtain rfl := Option.some.inj hsome
            rfl
          | behind hliteral _ => exact absurd hliteral hm

end

/-- **The values of an enumeration.**  Values are given exactly when every written value is a
    literal of the reader, and are then the written ones, each member without one following the
    member in front of it; else the first value that is no literal is reported.  The documented
    literals give the same values, to those enumerations whose written values are plain. -/
theorem values_grammar (e : EnumDef) :
    (∀ vs, e.values = .ok vs ↔ Assigned accepted 0 e.members vs) ∧
    ((∃ vs, e.values = .ok vs) ↔ ∀ m ∈ e.members, m.HasLiteral accepted) ∧
    (∀ p, e.values = .error p ↔
      Refused accepted e.name e.members p ∧ p.code = "TYP-0010".toList) ∧
    (∀ vs, Assigned documented 0 e.members vs ↔
      e.values = .ok vs ∧ ∀ m ∈ e.members, m.HasPlainValue) := by
  have hok : ∀ vs, e.values = .ok vs ↔ Assigned accepted 0 e.members vs :=
    fun vs => valuesFrom_eq_ok_iff
  refine ⟨hok, ?_, ?_, ?_⟩
  · simp only [hok]
    exact exists_assigned_iff
  · intro p
    rw [values, valuesFrom_eq_error_iff]
    constructor
    · intro h
      exact ⟨h, h.code⟩
    · rintro ⟨h, -⟩
      exact h
  · intro vs
    rw [hok]
    exact assigned_documented_iff

/-- A number with an underscore is no documented literal, and is read. -/
theorem values_underscore :
    ∃ e : EnumDef, e = ⟨"E".toList, [⟨"A".toList, some "1_000".toList⟩], [], none⟩ ∧
      ¬ (∀ m ∈ e.members, m.HasLiteral documented) ∧ e.values = .ok [("A".toList, 1000)] := by
  refine ⟨_, rfl, ?_, by decide +kernel⟩
  intro h
  obtain ⟨v, hv⟩ := h _ List.mem_cons_self "1_000".toList rfl
  obtain ⟨-, hplain⟩ := documented_signed_iff.mp hv
  exact hplain.unspaced (by decide +kernel)

end EnumDef
end ScriptModule
