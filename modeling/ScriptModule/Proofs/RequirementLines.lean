/-
  ScriptModule/Proofs/RequirementLines.lean
  =========================================
  **Requirements are read back.**  What is merged is printed one requirement a line.  Names
  without bounds and editions are printed bare, everything that is said in a table stands in
  single quotes; where a bare name is one value and nothing quoted holds a quote, the lines
  are merged into the same requirement.
-/
import Mathlib
import ScriptModule.Proofs.MergedRequirement
import ScriptModule.Proofs.OptionPieces

namespace ScriptModule

open Lexeme Script

/-! ### Constraints -/

namespace ModuleSpec

/-- What is said of a module besides its name, in the order in which it is printed. -/
def details (m : ModuleSpec) : List (ModuleKey × Text) :=
  m.guid.toList.map (ModuleKey.guid, ·) ++ m.minVersion.toList.map (ModuleKey.minimum, ·) ++
    m.maxVersion.toList.map (ModuleKey.maximum, ·) ++ m.exactVersion.toList.map (ModuleKey.exact_, ·)

theorem addEntries_details (m : ModuleSpec) :
    addEntries ((.name, m.name) :: m.details) (none, ⟨[], none, none, none, none⟩) =
      (some m.name, { m with name := [] }) := by
  obtain ⟨name, guid, low, high, exact⟩ := m
  cases guid <;> cases low <;> cases high <;> cases exact <;> rfl

theorem details_eq_nil {m : ModuleSpec} (h : m.details = []) : m = { name := m.name } := by
  obtain ⟨name, guid, low, high, exact⟩ := m
  simp only [details, List.append_eq_nil_iff, List.map_eq_nil_iff, Option.toList_eq_nil_iff] at h
  obtain ⟨⟨⟨rfl, rfl⟩, rfl⟩, rfl⟩ := h
  rfl

theorem mem_details {m : ModuleSpec} {e : ModuleKey × Text} (h : e ∈ m.details) :
    (e.2 ∈ m.guid ∨ e.2 ∈ m.bounds) ∧ e.2 ∈ m.texts := by
  simp only [details, List.mem_append, List.mem_map, Option.mem_toList] at h
  simp only [bounds, texts, List.mem_append, List.mem_cons, Option.mem_toList]
  rcases h with ((⟨v, hv, rfl⟩ | ⟨v, hv, rfl⟩) | ⟨v, hv, rfl⟩) | ⟨v, hv, rfl⟩ <;> tauto

theorem entry_eq (key : ModuleKey) {t : Option Text} (h : t ≠ some []) :
    entry (ModuleKey.word key) t = (t.toList.map (key, ·)).map entryText := by
  rcases t with _ | _ | ⟨c, v⟩
  · rfl
  · exact absurd rfl h
  · rfl

/-- A merged constraint is printed as its name, or as a table with all that is said. -/
theorem IsKept.render_eq {m : ModuleSpec} (h : m.IsKept) :
    m.render = match m.details with
      | [] => m.name
      | e :: es => textOf (tablePieces (.name, m.name) (e :: es)) := by
  have hbound : ∀ {b : Option Text}, b ∈ [m.minVersion, m.maxVersion, m.exactVersion] →
      b ≠ some [] := by
    rintro b hb rfl
    have hin : [] ∈ m.bounds := by
      simp only [List.mem_cons, List.not_mem_nil, or_false] at hb
      rcases hb with hb | hb | hb <;> simp [bounds, ← hb]
    obtain ⟨v, hv⟩ := h.readable [] hin
    cases hv
  have hdetails : entry "GUID" m.guid ++ entry "ModuleVersion" m.minVersion ++
      entry "MaximumVersion" m.maxVersion ++ entry "RequiredVersion" m.exactVersion =
        m.details.map entryText := by
    have hguid := entry_eq .guid h.identity
    have hlow := entry_eq .minimum (hbound (b := m.minVersion) (by simp))
    have hhigh := entry_eq .maximum (hbound (b := m.maxVersion) (by simp))
    have hexact := entry_eq .exact_ (hbound (b := m.exactVersion) (by simp))
    rw [details, List.map_append, List.map_append, List.map_append, ← hguid, ← hlow, ← hhigh,
      ← hexact]
    rfl
  rw [render, hdetails]
  rcases m.details with _ | ⟨e, es⟩
  · rfl
  · change _ = textOf (tablePieces (.name, m.name) (e :: es))
    rw [textOf_tablePieces]
    rfl

/-- Whether a constraint is printed so that it can be read: a name alone is one value, and
    neither name nor identity of a table holds a quote. -/
def standsPrinted (m : ModuleSpec) : Bool :=
  if m = { name := m.name } then isPlain m.name
  else !m.name.contains '\'' && !(m.guid.getD []).contains '\''

theorem IsKept.exists_options {m : ModuleSpec} (h : m.IsKept)
    (hline : m.Within (inLine ·)) (hprinted : m.standsPrinted = true) :
    ∃ ps, "#Requires".toList ++ textOf ps = "#Requires -Modules ".toList ++ m.render ∧
      IsOptions ps { modules := [m] } := by
  rw [h.render_eq]
  unfold standsPrinted at hprinted
  rcases hdetails : m.details with _ | ⟨e, es⟩
  · have hname := details_eq_nil hdetails
    rw [if_pos hname] at hprinted
    obtain ⟨qs, htext, hqs⟩ := exists_isBareRow hprinted
    have hoptions := isOptions_plainModule hqs
    rw [htext, ← hname] at hoptions
    refine ⟨_, ?_, hoptions⟩
    rw [textOf_optionPieces (by decide), textOf_cons, htext]
    rfl
  · have hname : m ≠ { name := m.name } := by
      intro hname
      rw [hname] at hdetails
      cases hdetails
    rw [if_neg hname, Bool.and_eq_true, Bool.not_eq_true', Bool.not_eq_true',
      List.contains_eq_mem, List.contains_eq_mem, decide_eq_false_iff_not,
      decide_eq_false_iff_not] at hprinted
    have hentries := addEntries_details m
    rw [hdetails] at hentries
    refine ⟨_, ?_, @isOptions_moduleTable (.name, m.name) (e :: es) _ _ ?_ ?_
      (congrArg Prod.fst hentries) ?_⟩
    · rw [textOf_optionPieces (by decide), textOf_cons]
      rfl
    · rw [← hdetails, List.forall_mem_cons]
      refine ⟨hprinted.1, ?_⟩
      intro d hd
      rcases (mem_details hd).1 with hguid | hbound
      · have hquote := hprinted.2
        rw [Option.mem_def.mp hguid] at hquote
        exact hquote
      · obtain ⟨v, hv⟩ := h.readable d.2 hbound
        exact Version.no_quote_of_read? hv
    · rw [← hdetails, List.forall_mem_cons]
      refine ⟨List.all_eq_true.mpr (hline m.name List.mem_cons_self), ?_⟩
      intro d hd
      exact List.all_eq_true.mpr (hline d.2 (mem_details hd).2)
    · rw [hentries]

end ModuleSpec

/-! ### Lines -/

namespace Requirement

/-- The lines of what is merged, with what each of them asks for. -/
def lines (r : Requirement) : List (Text × Requires) :=
  (r.version.map fun v => ("#Requires -Version ".toList ++ Version.print v,
    { version := some (Version.print v) })).toList ++
  (r.editions.map fun es => ("#Requires -PSEdition ".toList ++ Text.join ", " es,
    { editions := es })).toList ++
  r.modules.values.map (fun m => ("#Requires -Modules ".toList ++ m.render, { modules := [m] })) ++
  (if r.elevation then [("#Requires -RunAsAdministrator".toList, { runAsAdmin := true })] else [])

theorem map_snd_lines (r : Requirement) : r.lines.map Prod.snd = r.comments := by
  simp only [lines, comments, List.map_append, List.map_map]
  rcases r with ⟨_ | v, _ | es, modules, _ | _⟩ <;> rfl

theorem IsKept.map_fst_lines {q : Char → Prop} {r : Requirement} (h : r.IsKept q) :
    r.lines.map Prod.fst = r.render := by
  have heditions : r.editions ≠ some [] := by
    intro hnil
    obtain ⟨names, hne, heq⟩ := h.editions [] hnil
    exact editionSet_ne_nil hne heq.symm
  simp only [lines, render, List.map_append, List.map_map]
  rcases r with ⟨_ | v, _ | _ | ⟨e, es⟩, modules, _ | _⟩ <;> first | rfl | exact absurd rfl heditions

theorem IsKept.exists_editions {r : Requirement} (h : r.IsKept (inLine ·)) {es : List Text}
    (hes : es ∈ r.editions) (hplain : ∀ e ∈ es, isPlain e = true) :
    ∃ ps, "#Requires".toList ++ textOf ps = "#Requires -PSEdition ".toList ++ Text.join ", " es ∧
      IsOptions ps { editions := es } := by
  obtain ⟨names, hne, heq⟩ := h.editions es hes
  obtain ⟨e, es, rfl⟩ := List.exists_cons_of_ne_nil (heq ▸ editionSet_ne_nil hne)
  rw [List.forall_mem_cons] at hplain
  obtain ⟨qs, rfl, hqs⟩ := exists_isBareRow hplain.1
  have hrows : ∃ rows : List (List Piece), rows.map textOf = es ∧ ∀ row ∈ rows, IsBareRow row := by
    have hmore := hplain.2
    clear heq hes hplain
    induction es with
    | nil => exact ⟨[], rfl, List.forall_mem_nil _⟩
    | cons e es ih =>
      rw [List.forall_mem_cons] at hmore
      obtain ⟨row, rfl, hrow⟩ := exists_isBareRow hmore.1
      obtain ⟨rows, rfl, hrows⟩ := ih hmore.2
      exact ⟨row :: rows, rfl, List.forall_mem_cons.mpr ⟨hrow, hrows⟩⟩
  obtain ⟨rows, rfl, hrows⟩ := hrows
  refine ⟨_, ?_, isOptions_editions hqs hrows⟩
  rw [textOf_optionPieces (by decide), textOf_cons, textOf_append, textOf_valuesBehind,
    Text.join_cons]
  rfl

/-- Each line is a comment that asks for one requirement. -/
theorem IsKept.exists_options {r : Requirement} (h : r.IsKept (inLine ·))
    (heditions : ∀ e ∈ r.editions.getD [], isPlain e = true)
    (hmodules : ∀ m ∈ r.modules.values, m.standsPrinted = true) :
    ∀ l ∈ r.lines, ∃ ps, "#Requires".toList ++ textOf ps = l.1 ∧ IsOptions ps l.2 := by
  intro l hl
  simp only [lines, List.mem_append, Option.mem_toList, List.mem_map] at hl
  rcases hl with ((hl | hl) | ⟨m, hm, rfl⟩) | hl
  · obtain ⟨v, hv, rfl⟩ := Option.map_eq_some_iff.mp hl
    obtain ⟨qs, htext, hqs⟩ := Version.isBareRow_print (h.version v hv)
    have hoptions := isOptions_version hqs
    rw [htext] at hoptions
    refine ⟨_, ?_, hoptions⟩
    rw [textOf_optionPieces (by decide), textOf_cons, htext]
    rfl
  · obtain ⟨es, hes, rfl⟩ := Option.map_eq_some_iff.mp hl
    rw [hes] at heditions
    exact h.exists_editions hes heditions
  · obtain ⟨row, hrow, rfl⟩ := List.mem_map.mp hm
    obtain ⟨-, hkept, hline⟩ := h.modules row hrow
    exact hkept.exists_options hline (hmodules _ hm)
  · rcases helevation : r.elevation with _ | _
    · simp [helevation] at hl
    · rw [helevation, if_pos rfl, List.mem_singleton] at hl
      subst hl
      exact ⟨_, rfl, isOptions_elevation⟩

/-- **Requirements are read back.**  If requirement comments of any sources are merged, every
    merged edition is one bare value, and every merged module is printed so that it can be
    read, then the rendered lines are one requirement comment each, and these are merged
    into the same requirement: version, editions, elevation and constraints in their order. -/
theorem classify_requirementLines (file : Option Text) {reqs : List Requires} {r : Requirement}
    (hreqs : ∀ req ∈ reqs, req.IsWritten) (h : ({} : Requirement).addAll reqs = (r, none))
    (heditions : ∀ e ∈ r.editions.getD [], isPlain e = true)
    (hmodules : ∀ m ∈ r.modules.values, m.standsPrinted = true) :
    ∃ sts again, classify file (Text.join "\n" r.render) = .ok sts ∧
      sts.map Statement.content = again.map Content.requirement ∧
      ({} : Requirement).addAll again = (r, none) := by
  have hkept : r.IsKept (inLine ·) := isKept_of_addAll (fun req hreq => (hreqs req hreq).within) h
  have hls : ∀ l ∈ r.lines.map (fun l => (l.1, Content.requirement l.2)),
      ∃ ps, textOf ps = l.1 ∧ IsLine ps l.2 := by
    intro l hl
    obtain ⟨k, hk, rfl⟩ := List.mem_map.mp hl
    obtain ⟨ps, htext, hoptions⟩ := hkept.exists_options heditions hmodules k hk
    refine ⟨[requirementPiece ps], ?_, isLine_requirement hoptions⟩
    rw [textOf_cons, textOf_nil, List.append_nil]
    exact htext
  obtain ⟨sts, hsts, hcontents⟩ := classify_lines file hls
  rw [List.map_map] at hsts hcontents
  refine ⟨sts, r.comments, ?_, ?_, hkept.addAll_comments⟩
  · rw [← hkept.map_fst_lines]
    exact hsts
  · rw [hcontents, ← map_snd_lines, List.map_map]
    rfl

theorem isWritten_of_toOption (file : Option Text) (source : Text) {req : Requires}
    (h : ((Script.ofSource file source).toOption.any fun sc => sc.tokens.any fun t =>
      t.isRequirement && (sc.requirement t).toOption.any fun st =>
        decide (st.content = .requirement req)) = true) : req.IsWritten := by
  obtain ⟨sc, hsc, h⟩ := toOption_any.mp h
  obtain ⟨t, ht, h⟩ := List.any_eq_true.mp h
  obtain ⟨hmark, h⟩ := (Bool.and_eq_true _ _).mp h
  obtain ⟨st, hst, hcontent⟩ := toOption_any.mp h
  exact ⟨file, source, sc, t, st, hsc, ht, hmark, hst, of_decide_eq_true hcontent⟩

/-- A table whose lower bound is raised by a second comment under another casing, a module
    without bounds, and two editions. -/
theorem classify_requirementLines_casings :
    let first : Requires := {
      editions := ["desktop".toList, "core".toList]
      modules := [{ name := "Az.Core".toList, guid := some "\x7b1-2\x7d".toList,
                    minVersion := some " 1.2 ".toList }] }
    let second : Requires := {
      version := some "5.1".toList
      modules := [{ name := "AZ.core".toList, minVersion := some "1.10".toList },
                  { name := "Pester".toList }]
      runAsAdmin := true }
    ∃ r, (∀ req ∈ [first, second], req.IsWritten) ∧
      ({} : Requirement).addAll [first, second] = (r, none) ∧
      (∀ e ∈ r.editions.getD [], isPlain e = true) ∧
      (∀ m ∈ r.modules.values, m.standsPrinted = true) ∧
      r.render = ["#Requires -Version 5.1".toList, "#Requires -PSEdition Core, Desktop".toList,
        ("#Requires -Modules @\x7b ModuleName = 'Az.Core'; GUID = '\x7b1-2\x7d'; " ++
          "ModuleVersion = '1.10' \x7d").toList,
        "#Requires -Modules Pester".toList, "#Requires -RunAsAdministrator".toList] ∧
      ∃ sts again, classify none (Text.join "\n" r.render) = .ok sts ∧
        sts.map Statement.content = again.map Content.requirement ∧
        ({} : Requirement).addAll again = (r, none) := by
  intro first second
  have hwritten : ∀ req ∈ [first, second], req.IsWritten := by
    rw [List.forall_mem_cons, List.forall_mem_singleton]
    constructor
    · exact isWritten_of_toOption none ("#Requires -PSEdition desktop,core " ++
        "-Modules @\x7bModuleName='Az.Core'; GUID = \"\x7b1-2\x7d\"; " ++
        "ModuleVersion=' 1.2 '\x7d").toList (by decide +kernel)
    · exact isWritten_of_toOption none ("#requires -version 5.1 -modules " ++
        "@\x7bModuleName='AZ.core';ModuleVersion='1.10'\x7d, 'Pester' " ++
        "-RunAsAdministrator").toList (by decide +kernel)
  -- the sorted editions apart, what is merged can be computed
  let opened : Requirement := { editions := some ["Core".toList, "Desktop".toList] }
  let others : List Fact := first.modules.map Fact.module ++ second.facts
  have hset : editionSet first.editions = ["Core".toList, "Desktop".toList] := by cbv
  have hopened : ({} : Requirement).addAll [first, second] = opened.requireAll others := by
    have hfacts : [first, second].flatMap Requires.facts = .editions first.editions :: others :=
      rfl
    have hstep : ({} : Requirement).require (.editions first.editions) = .ok opened :=
      congrArg (fun es => Except.ok ({ editions := some es } : Requirement)) hset
    rw [addAll_eq_requireAll, hfacts, requireAll, hstep]
  have hnone : (opened.requireAll others).2 = none := by decide +kernel
  obtain ⟨r, hr⟩ : ∃ r, r = (opened.requireAll others).1 := ⟨_, rfl⟩
  have hmerged : ({} : Requirement).addAll [first, second] = (r, none) := by
    rw [hopened, hr, ← hnone]
  have hversion : r.version = some (5, 1) := by
    rw [hr]
    decide +kernel
  have heditions : r.editions = some ["Core".toList, "Desktop".toList] := by
    rw [hr]
    decide +kernel
  have hmodules : r.modules.values = [
      { name := "Az.Core".toList, guid := some "\x7b1-2\x7d".toList,
        minVersion := some "1.10".toList },
      { name := "Pester".toList }] := by
    rw [hr]
    decide +kernel
  have helevation : r.elevation = true := by
    rw [hr]
    decide +kernel
  have hplain : ∀ e ∈ r.editions.getD [], isPlain e = true := by
    rw [heditions]
    decide +kernel
  have hprinted : ∀ m ∈ r.modules.values, m.standsPrinted = true := by
    rw [hmodules]
    decide +kernel
  refine ⟨r, hwritten, hmerged, hplain, hprinted, ?_,
    classify_requirementLines none hwritten hmerged hplain hprinted⟩
  rw [render, hversion, heditions, hmodules, helevation]
  decide +kernel

/-- Whether a comment is taken in alone, and the line that is then rendered cannot be read. -/
structure IsLost (req : Requires) : Prop where
  written : req.IsWritten
  accepted : (({} : Requirement).addAll [req]).2 = none
  refused : ¬ ∃ sts, classify none
    (Text.join "\n" (({} : Requirement).addAll [req]).1.render) = .ok sts

theorem not_exists_of_toOption {t : Text} (h : (classify none t).toOption.isSome = false) :
    ¬ ∃ sts, classify none t = .ok sts := by
  rintro ⟨sts, hsts⟩
  rw [hsts] at h
  cases h

/-- A quoted module name or edition with a blank is printed without its quotes, and a quote
    in a table is printed as it is; none of the lines can be read. -/
theorem classify_requirementLines_loses :
    IsLost { modules := [{ name := "My Module".toList }] } ∧
      IsLost { editions := ["My Edition".toList] } ∧
      IsLost { modules := [{ name := "It's".toList, minVersion := some "1".toList }] } := by
  refine ⟨⟨?_, by decide +kernel, ?_⟩, ⟨?_, rfl, ?_⟩, ⟨?_, by decide +kernel, ?_⟩⟩
  · exact isWritten_of_toOption none "#Requires -Modules 'My Module'".toList
      (by decide +kernel)
  · exact not_exists_of_toOption (by decide +kernel)
  · exact isWritten_of_toOption none "#Requires -PSEdition 'My Edition'".toList
      (by decide +kernel)
  · have hset : editionSet ["My Edition".toList] = ["My Edition".toList] := by
      have hname : edition "My Edition".toList = "My Edition".toList := by decide +kernel
      rw [editionSet, List.map_singleton, List.mergeSort_singleton, hname]
      rfl
    have hrender : (({} : Requirement).addAll [{ editions := ["My Edition".toList] }]).1.render =
        ({ editions := some (editionSet ["My Edition".toList]) } : Requirement).render := rfl
    rw [hrender, hset]
    exact not_exists_of_toOption (by decide +kernel)
  · exact isWritten_of_toOption none
      "#Requires -Modules @\x7bModuleName='It''s'; ModuleVersion=1\x7d".toList (by decide +kernel)
  · exact not_exists_of_toOption (by decide +kernel)

end Requirement
end ScriptModule
