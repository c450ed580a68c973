/-
  ScriptModule/Proofs/CanonicalEnum.lean
  ======================================
  **Canonical texts of enumerations.**  The canonical text is a row of lines: the
  attributes, the head, and each member with its value.  The enumeration with these values
  written out has the same values and the same canonical text.
-/
import ScriptModule.Merge.EnumText
import ScriptModule.Outcome
import ScriptModule.Proofs.PrintedNumber

namespace ScriptModule.EnumDef

/-! ### Values written out -/

/-- A member with its value written out. -/
def explicitMember (m : Text × Int) : EnumMember := ⟨m.1, some (Text.ofInt m.2)⟩

/-- The enumeration whose members have these values, all written out. -/
def explicit (e : EnumDef) (vs : List (Text × Int)) : EnumDef :=
  { e with members := vs.map explicitMember }

/-- Whether all values are short enough to be printed. -/
def Printable (vs : List (Text × Int)) : Prop := ∀ m ∈ vs, m.2.natAbs < Nat.pow 10 maxDigits

theorem valuesFrom_cons {enum : Text} {next : Int} {m : EnumMember} {ms : List EnumMember}
    {vs : List (Text × Int)} (h : valuesFrom enum next (m :: ms) = .ok vs) :
    ∃ v rest, valuesFrom enum (v + 1) ms = .ok rest ∧ vs = (m.name, v) :: rest := by
  have hbehind : ∀ v, (valuesFrom enum (v + 1) ms >>= fun rest => pure ((m.name, v) :: rest)) =
      .ok vs → ∃ v rest, valuesFrom enum (v + 1) ms = .ok rest ∧ vs = (m.name, v) :: rest := by
    intro v hv
    obtain ⟨rest, hrest, hv⟩ := bind_eq_ok.mp hv
    exact ⟨v, rest, hrest, (Except.ok.inj hv).symm⟩
  rw [valuesFrom] at h
  split at h
  · exact hbehind _ h
  · split at h
    · exact hbehind _ h
    · cases h

theorem valuesFrom_names {enum : Text} {next : Int} {ms : List EnumMember}
    {vs : List (Text × Int)} (h : valuesFrom enum next ms = .ok vs) :
    vs.map Prod.fst = ms.map EnumMember.name := by
  induction ms generalizing next vs with
  | nil =>
    cases h
    rfl
  | cons m ms ih =>
    obtain ⟨v, rest, hrest, rfl⟩ := valuesFrom_cons h
    rw [List.map_cons, List.map_cons, ih hrest]

theorem valuesFrom_explicit (enum : Text) (next : Int) {vs : List (Text × Int)}
    (h : Printable vs) : valuesFrom enum next (vs.map explicitMember) = .ok vs := by
  induction vs generalizing next with
  | nil => rfl
  | cons m vs ih =>
    have hm := h m List.mem_cons_self
    have hread : Numeral.readLiteral (Text.trim (Text.ofInt m.2)) = some m.2 := by
      rw [Text.trim_of_not_blank (Numeral.isBlank_of_mem_ofInt hm),
        Numeral.readLiteral_ofInt hm]
    have hrest := ih (m.2 + 1) fun u hu => h u (List.mem_cons_of_mem m hu)
    simp only [List.map_cons, valuesFrom, explicitMember, hread, bind, Except.bind, pure,
      Except.pure, hrest]

/-! ### The text -/

/-- The line of a member, as text. -/
def memberText (width : Nat) (m : Text × Int) : Text :=
  "    ".toList ++ Text.padEnd width m.1 ++ " = ".toList ++ Text.ofInt m.2

theorem memberLine_iff {width : Nat} {m : Text × Int} {l : Text} :
    memberLine width m = .ok l ↔
      m.2.natAbs < Nat.pow 10 maxDigits ∧ l = memberText width m := by
  unfold memberLine Numeral.print
  split
  · next h =>
    constructor
    · intro hl
      exact ⟨h, (Except.ok.inj hl).symm⟩
    · rintro ⟨-, rfl⟩
      rfl
  · next h =>
    constructor
    · intro hl
      cases hl
    · rintro ⟨hm, -⟩
      exact absurd hm h

theorem mapM_memberLine_iff {width : Nat} {vs : List (Text × Int)} {ls : List Text} :
    vs.mapM (memberLine width) = .ok ls ↔ Printable vs ∧ ls = vs.map (memberText width) := by
  induction vs generalizing ls with
  | nil =>
    simp only [List.mapM_nil, pure, Except.pure, Except.ok.injEq, List.map_nil]
    constructor
    · rintro rfl
      exact ⟨List.forall_mem_nil _, rfl⟩
    · rintro ⟨-, rfl⟩
      rfl
  | cons m vs ih =>
    rw [List.mapM_cons, bind_eq_ok]
    constructor
    · rintro ⟨l, hl, h⟩
      obtain ⟨ls', hls, h⟩ := bind_eq_ok.mp h
      cases h
      obtain ⟨hm, rfl⟩ := memberLine_iff.mp hl
      obtain ⟨hvs, rfl⟩ := ih.mp hls
      exact ⟨List.forall_mem_cons.mpr ⟨hm, hvs⟩, rfl⟩
    · rintro ⟨hall, rfl⟩
      obtain ⟨hm, hvs⟩ := List.forall_mem_cons.mp hall
      refine ⟨_, memberLine_iff.mpr ⟨hm, rfl⟩, ?_⟩
      exact bind_eq_ok.mpr ⟨_, ih.mpr ⟨hvs, rfl⟩, rfl⟩

/-- Texts with a line end behind each. -/
def lines (ts : List Text) : Text := ts.flatMap (· ++ ['\n'])

theorem join_concat (ts : List Text) (last : Text) :
    Text.join "\n".toList (ts ++ [last]) = lines ts ++ last := by
  induction ts with
  | nil => exact List.intercalate_singleton
  | cons t ts ih =>
    have hne : ts ++ [last] ≠ [] := by simp
    rw [Text.join] at ih ⊢
    rw [List.cons_append, List.intercalate_cons_of_ne_nil hne, ih]
    simp [lines]

/-- The canonical text of an enumeration with these values. -/
def layout (e : EnumDef) (vs : List (Text × Int)) : Text :=
  lines e.attributes ++ (e.header ++ ['\n']) ++ lines (vs.map (memberText (nameWidth vs))) ++
    ['\x7d']

theorem canonicalText_iff {e : EnumDef} {text : Text} :
    e.canonicalText = .ok text ↔
      ∃ vs, e.values = .ok vs ∧ Printable vs ∧ text = e.layout vs := by
  have hlayout : ∀ vs, Text.join "\n".toList (e.attributes ++ e.header ::
      vs.map (memberText (nameWidth vs)) ++ ["\x7d".toList]) = e.layout vs := by
    intro vs
    rw [join_concat]
    simp [layout, lines]
  unfold canonicalText
  rcases hvalues : e.values with p | vs
  · simp
  · simp only [Except.ok.injEq, exists_eq_left']
    rcases hlines : vs.mapM (memberLine (nameWidth vs)) with p | ls
    · constructor
      · intro h
        cases h
      · rintro ⟨hprintable, -⟩
        cases hlines.symm.trans (mapM_memberLine_iff.mpr ⟨hprintable, rfl⟩)
    · obtain ⟨hprintable, rfl⟩ := mapM_memberLine_iff.mp hlines
      simp only [Except.ok.injEq, hlayout, hprintable, true_and]
      exact eq_comm

theorem values_explicit {e : EnumDef} {vs : List (Text × Int)} (h : Printable vs) :
    (e.explicit vs).values = .ok vs := valuesFrom_explicit e.name 0 h

theorem explicit_inj {d e : EnumDef} {ws vs : List (Text × Int)} (hws : Printable ws)
    (hvs : Printable vs) (h : d.explicit ws = e.explicit vs) :
    d.name = e.name ∧ d.attributes = e.attributes ∧ d.underlyingType = e.underlyingType ∧
      ws = vs := by
  have hvalues := @values_explicit d ws hws
  rw [h, values_explicit hvs] at hvalues
  injection h with hname _ hattributes hunder
  exact ⟨hname, hattributes, hunder, (Except.ok.inj hvalues).symm⟩

theorem canonicalText_explicit {e : EnumDef} {vs : List (Text × Int)} (h : Printable vs) :
    (e.explicit vs).canonicalText = .ok (e.layout vs) :=
  canonicalText_iff.mpr ⟨vs, values_explicit h, h, rfl⟩

/-- Nothing but name, attributes, underlying type and values shows in the text. -/
theorem canonicalText_congr {e d : EnumDef} (hname : e.name = d.name)
    (hattributes : e.attributes = d.attributes) (hunder : e.underlyingType = d.underlyingType)
    (hvalues : e.values = d.values) : e.canonicalText = d.canonicalText := by
  have hheader : e.header = d.header := by
    unfold header
    rw [hname, hunder]
  unfold canonicalText
  rw [hvalues, hattributes, hheader]

end ScriptModule.EnumDef
