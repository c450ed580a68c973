/-
  ScriptModule/Proofs/EntrySpan.lean
  ==================================
  **The span of an entry point.**  It goes from the parameter keyword to the end of the last
  token.  That end is counted on the line where the token starts: it is the end of the token
  exactly if the token stays on its line, as a string or a comment of several lines does not.
-/
import ScriptModule.Proofs.Routing

namespace ScriptModule

/-! ### The end of a token -/

theorem take_stretch (source : Text) {a b : Nat} (hab : a ≤ b) :
    source.take b = source.take a ++ source.extract a b := by
  rw [List.extract_eq_take_drop, ← List.take_add, Nat.add_sub_cancel' hab]

theorem placeAt_eq {source : Text} {o : Nat} (ho : o ≤ source.length) :
    placeAt source o = Position.start.advance (source.take o) := by
  have hsplit := placeAt_append (source.take o) (source.drop o)
  rwa [List.take_append_drop, List.length_take_of_le ho] at hsplit

theorem Token.StandsIn.length_extract {source : Text} {t : Token} (h : t.StandsIn source) :
    (source.extract t.start.offset t.stop.offset).length = t.stop.offset - t.start.offset := by
  have hinside := h.inside
  rw [List.extract_eq_take_drop, List.length_take, List.length_drop]
  omega

/-- A token that stays on its line ends as many columns behind its start as it is long, and
    any other one ends further down. -/
theorem Token.StandsIn.stop_eq_iff {source : Text} {t : Token} (h : t.StandsIn source) :
    (lineAt source t.start.offset = lineAt source t.stop.offset ∧
      columnAt source t.start.offset + (t.stop.offset - t.start.offset) =
        columnAt source t.stop.offset) ↔
      '\n' ∉ source.extract t.start.offset t.stop.offset := by
  have hle : t.start.offset ≤ t.stop.offset := h.proper.le
  have htake := take_stretch source hle
  constructor
  · rintro ⟨hline, -⟩ hmem
    have hpos := List.count_pos_iff.mpr hmem
    simp only [lineAt, htake, List.count_append] at hline
    omega
  · intro hmem
    have hplace : placeAt source t.stop.offset =
        (placeAt source t.start.offset).advance
          (source.extract t.start.offset t.stop.offset) := by
      rw [placeAt_eq h.inside, htake, advance_append, ← placeAt_eq (hle.trans h.inside)]
    rw [advance_of_newline_not_mem hmem, h.length_extract] at hplace
    exact ⟨(congrArg Position.line hplace).symm, (congrArg Position.column hplace).symm⟩

namespace Script

/-! ### The first and the last token -/

/-- The parameter keyword that is found is the first one outside all groups. -/
theorem find?_bareTokens {groups : List TokenKind} {ts : List Token} {i : Nat}
    (h : paramIndexFrom groups ts = some i) :
    ∃ p, ts[i]? = some p ∧
      (bareTokens groups ts).find? (fun t => t.kind == .paramWord) = some p := by
  induction ts generalizing groups i with
  | nil => cases h
  | cons t ts ih =>
    rw [paramIndexFrom] at h
    split at h
    · next hparam =>
      cases h
      rw [Bool.and_eq_true] at hparam
      refine ⟨t, rfl, ?_⟩
      rw [bareTokens, if_pos hparam.2, List.singleton_append]
      exact List.find?_cons_of_pos hparam.1
    · next hparam =>
      obtain ⟨j, hj, rfl⟩ := Option.map_eq_some_iff.mp h
      obtain ⟨p, hp, hfind⟩ := ih hj
      refine ⟨p, hp, ?_⟩
      rw [bareTokens]
      split
      · next hbare =>
        have hkind : ¬ (t.kind == .paramWord) = true := by
          intro hkind
          exact hparam (by rw [hkind, hbare]; rfl)
        rw [List.singleton_append, ← hfind]
        exact List.find?_cons_of_neg hkind
      · exact hfind

/-- Whether a token is the last one, line ends aside. -/
def IsLast (ts : List Token) (last : Token) : Prop :=
  ∃ front lineEnds, ts = front ++ last :: lineEnds ∧ last.kind ≠ .newline ∧
    ∀ t ∈ lineEnds, t.kind = .newline

theorem IsLast.mem {ts : List Token} {last : Token} (h : IsLast ts last) : last ∈ ts := by
  obtain ⟨front, lineEnds, rfl, -⟩ := h
  simp

theorem isLast_iff {sc : Script} {last : Token} :
    IsLast sc.tokens last ↔ sc.lastToken? = some last := by
  rw [lastToken?, List.find?_eq_some_iff_append]
  constructor
  · rintro ⟨front, lineEnds, hsplit, hkind, hends⟩
    refine ⟨by simpa using hkind, lineEnds.reverse, front.reverse, by simp [hsplit], ?_⟩
    intro t ht
    simpa using hends t (List.mem_reverse.mp ht)
  · rintro ⟨hkind, ends, back, hsplit, hends⟩
    refine ⟨back.reverse, ends.reverse, ?_, by simpa using hkind, ?_⟩
    · rw [← List.reverse_reverse sc.tokens, hsplit]
      simp
    · intro t ht
      simpa using hends t (List.mem_reverse.mp ht)

theorem exists_isLast {sc : Script} {t : Token} (ht : t ∈ sc.tokens) (hkind : t.kind ≠ .newline) :
    ∃ last, IsLast sc.tokens last := by
  have hsome : sc.lastToken?.isSome = true := by
    rw [lastToken?, List.find?_isSome]
    exact ⟨t, List.mem_reverse.mpr ht, by simpa using hkind⟩
  obtain ⟨last, hlast⟩ := Option.isSome_iff_exists.mp hsome
  exact ⟨last, isLast_iff.mpr hlast⟩

/-! ### The span -/

theorem span_of_extract {known : KnownAliases} {name : Text} {sc : Script} {e : EntryPoint}
    {ws : List Report} (h : sc.extract known name = .ok (e, ws)) :
    ∃ i, paramIndex? sc.tokens = some i ∧ e.span = sc.tokens[i]?.map sc.entrySpan := by
  obtain ⟨i, ds, as, hi, -, -, rfl, rfl⟩ := extract_iff.mp h
  exact ⟨i, hi, rfl⟩

/-- **From the keyword to the last token.**  The span starts at the first parameter keyword
    outside all groups.  It ends on the line on which the last token starts, as many columns
    behind its start as the token is long.  This is the place behind the token, and the span
    is that of a statement on the same stretch, if and only if the token has no line feed. -/
theorem extract_span {known : KnownAliases} {filename : Option Text} {name source : Text}
    {sc : Script} {e : EntryPoint} {ws : List Report}
    (hsource : ofSource filename source = .ok sc) (hcr : '\r' ∉ source)
    (hextract : sc.extract known name = .ok (e, ws)) :
    ∃ param last, (bareTokens [] sc.tokens).find? (fun t => t.kind == .paramWord) = some param ∧
      IsLast sc.tokens last ∧
      e.span = some ⟨lineAt source param.start.offset, columnAt source param.start.offset,
        lineAt source last.start.offset,
        columnAt source last.start.offset + (last.stop.offset - last.start.offset : Nat)⟩ ∧
      (e.span = some (spanAt source (param.start.offset, last.stop.offset)) ↔
        '\n' ∉ source.extract last.start.offset last.stop.offset) := by
  have hstands : ∀ t ∈ sc.tokens, t.StandsIn source := by
    obtain ⟨s, hscan, rfl⟩ := ofSource_eq_ok hsource
    exact standsIn_of_scan hscan
  obtain ⟨i, hi, hspan⟩ := span_of_extract hextract
  obtain ⟨param, hparam, hfirst⟩ := find?_bareTokens hi
  have hmem : param ∈ sc.tokens := List.mem_of_getElem? hparam
  have hkind : param.kind = .paramWord := by simpa using List.find?_some hfirst
  obtain ⟨last, hlast⟩ := exists_isLast hmem (by rw [hkind]; decide)
  have hin := hstands last hlast.mem
  have hlength : last.text.length = last.stop.offset - last.start.offset := by
    rw [hin.text, shown_eq_self, hin.length_extract]
    exact fun hr => hcr (List.mem_of_mem_drop (List.mem_of_mem_take hr))
  have hstart := (hstands param hmem).start
  have hlaststart := hin.start
  simp only [placeAt] at hstart hlaststart
  have hvalue : e.span = some ⟨lineAt source param.start.offset,
      columnAt source param.start.offset, lineAt source last.start.offset,
      columnAt source last.start.offset + (last.stop.offset - last.start.offset : Nat)⟩ := by
    rw [hspan, hparam, Option.map_some, entrySpan, isLast_iff.mp hlast, Option.getD_some, hlength,
      hstart, hlaststart]
  refine ⟨param, last, hfirst, hlast, hvalue, ?_⟩
  rw [hvalue, ← hin.stop_eq_iff]
  simp only [spanAt, Option.some.injEq, Span.mk.injEq, true_and]
  omega

/-- A comment of two lines in front of the block, a here-string in it, and blank lines at the
    end: the last token is the comment behind the here-string. -/
theorem extract_span_here_string :
    ∃ source : Text, source = "[Alias('a')] <# b\nc #>\nparam($x)\n@'\nd\n'@ + $x # e\n\n".toList ∧
      '\r' ∉ source ∧ ∃ sc e ws, ofSource none source = .ok sc ∧
      sc.extract Table.empty "Get-Foo".toList = .ok (e, ws) ∧ ∃ param last : Token,
        e.span = some (spanAt source (param.start.offset, last.stop.offset)) ∧
        e.span = some ⟨3, 1, 6, 12⟩ := by
  refine ⟨_, rfl, by decide +kernel, ?_⟩
  have hrun : ((ofSource none
      "[Alias('a')] <# b\nc #>\nparam($x)\n@'\nd\n'@ + $x # e\n\n".toList).toOption.any fun sc =>
      (sc.extract Table.empty "Get-Foo".toList).toOption.any fun p =>
        p.1.span = some ⟨3, 1, 6, 12⟩ ∧ sc.lastToken?.any fun last =>
          !(sc.source.extract last.start.offset last.stop.offset).contains '\n') = true := by
    decide +kernel
  have hcr : '\r' ∉
      "[Alias('a')] <# b\nc #>\nparam($x)\n@'\nd\n'@ + $x # e\n\n".toList := by
    decide +kernel
  generalize "[Alias('a')] <# b\nc #>\nparam($x)\n@'\nd\n'@ + $x # e\n\n".toList = source at hrun hcr ⊢
  obtain ⟨sc, hsource, hrun⟩ := toOption_any.mp hrun
  obtain ⟨⟨e, ws⟩, hextract, hrun⟩ := toOption_any.mp hrun
  obtain ⟨hspan, hend⟩ := of_decide_eq_true hrun
  obtain ⟨param, last, -, hlast, -, hexact⟩ := extract_span hsource hcr hextract
  obtain ⟨s, -, rfl⟩ := ofSource_eq_ok hsource
  rw [isLast_iff.mp hlast, Option.any_some, Bool.not_eq_true', List.contains_eq_mem,
    decide_eq_false_iff_not] at hend
  exact ⟨_, e, ws, hsource, hextract, param, last, hexact.mpr hend, hspan⟩

/-- Behind a string of two lines the span ends on the line on which the string starts, in a
    column that this line does not have. -/
theorem extract_span_two_lines :
    ∃ source : Text, source = "param()\n'a\nb'".toList ∧ '\r' ∉ source ∧
      ∃ sc e ws last, ofSource none source = .ok sc ∧
      sc.extract Table.empty "Get-Foo".toList = .ok (e, ws) ∧ IsLast sc.tokens last ∧
      spanAt source (0, last.stop.offset) = ⟨1, 1, 3, 3⟩ ∧ e.span = some ⟨1, 1, 2, 6⟩ := by
  refine ⟨_, rfl, by decide +kernel, ?_⟩
  have hrun : ((ofSource none "param()\n'a\nb'".toList).toOption.any fun sc =>
      (sc.extract Table.empty "Get-Foo".toList).toOption.any fun p =>
        p.1.span = some ⟨1, 1, 2, 6⟩ ∧ sc.lastToken?.any fun last =>
          spanAt "param()\n'a\nb'".toList (0, last.stop.offset) = ⟨1, 1, 3, 3⟩) = true := by
    decide +kernel
  obtain ⟨sc, hsource, hrun⟩ := toOption_any.mp hrun
  obtain ⟨⟨e, ws⟩, hextract, hrun⟩ := toOption_any.mp hrun
  obtain ⟨hspan, hend⟩ := of_decide_eq_true hrun
  rcases hlast : sc.lastToken? with _ | last
  · rw [hlast] at hend
    cases hend
  · rw [hlast, Option.any_some] at hend
    exact ⟨sc, e, ws, last, hsource, hextract, isLast_iff.mpr hlast, of_decide_eq_true hend, hspan⟩

end Script
end ScriptModule
