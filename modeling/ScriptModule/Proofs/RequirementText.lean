/-
  ScriptModule/Proofs/RequirementText.lean
  ========================================
  **Texts of requirements.**  The content of a string is made of characters of the string,
  and every parser of a requirement comment hands on texts of its tokens.  So what a
  comment says of a module is made of characters of the comment, which ends with its line.
-/
import ScriptModule.Proofs.Coverage
import ScriptModule.Proofs.TextLaws

namespace ScriptModule

/-! ### Strings -/

namespace Lexeme

theorem singleQuoted?_subset {t v : Text} {n : Nat} (h : singleQuoted? t = some (n, v)) :
    v ⊆ t := by
  fun_induction singleQuoted? t generalizing n v with
  | case1 => cases h
  | case3 r =>
    cases h
    exact List.nil_subset _
  | _ =>
    rename_i ih
    obtain ⟨⟨m, u⟩, hm, heq⟩ := Option.map_eq_some_iff.mp h
    cases heq
    have hmore := ih hm
    intro c hc
    simp only [List.mem_cons] at hc ⊢
    have hin := @hmore c
    tauto

theorem doubleQuoted?_subset {nest : List Nest} {t v : Text} {n : Nat}
    (h : doubleQuoted? nest t = some (n, v)) : v ⊆ t := by
  fun_induction doubleQuoted? nest t generalizing n v with
  | case1 => cases h
  | case4 r =>
    cases h
    exact List.nil_subset _
  | _ =>
    rename_i ih
    obtain ⟨⟨m, u⟩, hm, heq⟩ := Option.map_eq_some_iff.mp h
    cases heq
    have hmore := ih hm
    intro c hc
    simp only [List.mem_cons] at hc ⊢
    have hin := @hmore c
    tauto

theorem hereBody?_subset {quote : Char} {atLineStart : Bool} {t v : Text} {n : Nat}
    (h : hereBody? quote atLineStart t = some (n, v)) : v ⊆ t := by
  induction t generalizing atLineStart n v with
  | nil => cases h
  | cons c t ih =>
    rw [hereBody?] at h
    split at h
    · cases h
      exact List.nil_subset _
    · obtain ⟨⟨m, u⟩, hm, heq⟩ := Option.map_eq_some_iff.mp h
      cases heq
      exact List.cons_subset_cons c (ih hm)

theorem withoutLineEnd_subset (body : Text) : withoutLineEnd body ⊆ body := by
  have hcut : (if body.getLast? = some '\n' then body.dropLast else body) ⊆ body := by
    split
    · exact List.dropLast_subset body
    · exact List.Subset.refl body
  exact List.Subset.trans (Text.prefix_dropEndWhile _ _).subset hcut

theorem hereString?_subset {t v : Text} {n : Nat} (h : hereString? t = some (n, v)) :
    v ⊆ t := by
  unfold hereString? at h
  split at h
  · cases h
  · next quote r =>
    split at h
    · cases h
    · next d body hbody =>
      obtain ⟨⟨m, u⟩, hm, heq⟩ := Option.map_eq_some_iff.mp h
      cases heq
      have hsuffix : d :: body <:+ r := by
        rw [← hbody]
        exact List.dropWhile_suffix _
      have hbehind : body ⊆ quote :: r := fun c hc =>
        List.mem_cons_of_mem quote (hsuffix.subset (List.mem_cons_of_mem d hc))
      have hin := List.Subset.trans (withoutLineEnd_subset u) (hereBody?_subset hm)
      exact List.Subset.trans hin hbehind

theorem value_dollar {r : Text} {l : Lexeme} (h : dollar r = .ok l) : l.value = none := by
  unfold dollar at h
  repeat' split at h
  all_goals cases h <;> rfl

theorem value_dash (sign : Bool) (r : Text) : (dash sign r).value = none := by
  unfold dash
  repeat' split
  all_goals rfl

theorem value_plain (c : Char) (r : Text) : (plain c r).value = none := by
  unfold plain
  repeat' split
  all_goals rfl

theorem value_subset_of_atSign {r : Text} {l : Lexeme} (h : atSign r = .ok l) :
    ∀ v ∈ l.value, v ⊆ r := by
  unfold atSign at h
  split at h
  · cases h
    nofun
  · cases h
    nofun
  · split at h
    · split at h
      · next n v hstring =>
        cases h
        rintro u ⟨⟩
        exact hereString?_subset hstring
      · cases h
    · split at h <;> cases h <;> nofun

/-- The content of a lexeme is made of characters behind its first one. -/
theorem value_subset_of_read {sign : Bool} {c : Char} {r : Text} {l : Lexeme}
    (h : read sign c r = .ok l) : ∀ v ∈ l.value, v ⊆ r := by
  cases reads_of_read h with
  | atSign h => exact value_subset_of_atSign h
  | singleQuoted hs =>
    rintro v ⟨⟩
    exact singleQuoted?_subset hs
  | doubleQuoted hs =>
    rintro v ⟨⟩
    exact doubleQuoted?_subset hs
  | dollar h =>
    rw [value_dollar h]
    nofun
  | dash =>
    rw [value_dash]
    nofun
  | plain =>
    rw [value_plain]
    nofun
  | punctuation | lineComment | blockComment | doubleColon | colon => nofun

end Lexeme

/-! ### Tokens -/

/-- Whether all that a token says is made of the given characters. -/
structure Token.Within (q : Char → Prop) (t : Token) : Prop where
  text : ∀ c ∈ t.text, q c
  value : ∀ v ∈ t.value, ∀ c ∈ v, q c

def AllWithin (q : Char → Prop) (ts : List Token) : Prop := ∀ t ∈ ts, t.Within q

theorem scan_within {source : Text} {s : Scan} (h : scan source = .ok s) :
    AllWithin (· ∈ source) s.tokens := by
  obtain ⟨ps, rfl, hspells, htokens⟩ := exists_pieces h
  intro t ht
  rw [htokens] at ht
  obtain ⟨i, hi⟩ := List.mem_iff_getElem?.mp ht
  obtain ⟨front, c, w, l, back, rfl, -, rfl⟩ := exists_lexeme hi
  obtain ⟨-, hread, hlen⟩ := (spells_append.mp hspells).2.1
  have hin : ∀ d ∈ c :: (w ++ (textOf back ++ [])), d ∈ textOf (front ++ .lexeme c w l :: back) := by
    intro d hd
    rw [textOf_append, textOf_cons]
    simp only [List.append_nil] at hd
    exact List.mem_append_right _ hd
  constructor
  · intro d hd
    change d ∈ l.text c w at hd
    have hshown : l.text c w ⊆ c :: w := by
      rw [text_eq_shown hlen, shown]
      split
      · exact (Text.prefix_dropEndWhile _ _).subset
      · exact List.Subset.refl _
    have htext : d ∈ c :: w := hshown hd
    exact hin d (List.mem_append_left _ htext)
  · intro v hv d hd
    exact hin d (List.mem_cons_of_mem c (Lexeme.value_subset_of_read hread v hv hd))

/-! ### Parsers -/

/-- What is said of a module, text by text. -/
def ModuleSpec.texts (m : ModuleSpec) : List Text :=
  m.name :: (m.guid.toList ++ m.minVersion.toList ++ m.maxVersion.toList ++ m.exactVersion.toList)

/-- Whether all that is said of a module is made of the given characters. -/
def ModuleSpec.Within (q : Char → Prop) (m : ModuleSpec) : Prop := ∀ t ∈ m.texts, ∀ c ∈ t, q c

namespace Script

variable {q : Char → Prop} {ts rest : List Token} {v : Text} {m : ModuleSpec}

theorem bareRun_within (h : AllWithin q ts) (offset : Nat) :
    (∀ c ∈ (bareRun offset ts).1, q c) ∧ AllWithin q (bareRun offset ts).2 := by
  induction ts generalizing offset with
  | nil => exact ⟨List.forall_mem_nil _, List.forall_mem_nil _⟩
  | cons t ts ih =>
    obtain ⟨ht, hts⟩ := List.forall_mem_cons.mp h
    rw [bareRun]
    split
    · obtain ⟨hrun, hrest⟩ := ih hts t.stop.offset
      exact ⟨List.forall_mem_append.mpr ⟨ht.text, hrun⟩, hrest⟩
    · exact ⟨List.forall_mem_nil _, h⟩

theorem value?_within (h : AllWithin q ts) (hv : value? ts = some (v, rest)) :
    (∀ c ∈ v, q c) ∧ AllWithin q rest := by
  cases ts with
  | nil => cases hv
  | cons t ts =>
    obtain ⟨ht, hts⟩ := List.forall_mem_cons.mp h
    rw [value?] at hv
    split at hv
    · cases hv
      refine ⟨?_, hts⟩
      rcases hvalue : t.value with _ | u
      · exact List.forall_mem_nil _
      · exact ht.value u hvalue
    · split at hv
      · cases hv
        obtain ⟨hrun, hrest⟩ := bareRun_within hts t.stop.offset
        exact ⟨List.forall_mem_append.mpr ⟨ht.text, hrun⟩, hrest⟩
      · cases hv

theorem values_within (h : AllWithin q ts) : AllWithin q (values ts).2 := by
  fun_induction values ts with
  | case1 ts hnone => exact h
  | case2 ts v hv => exact List.forall_mem_nil _
  | case3 ts v c more hv hcomma ih =>
    exact ih (List.forall_mem_cons.mp (value?_within h hv).2).2
  | case4 ts v c more hv hcomma => exact (value?_within h hv).2

theorem moduleEntry_within {key : ModuleKey} (h : AllWithin q ts)
    (he : moduleEntry ts = .ok ((key, v), rest)) : (∀ c ∈ v, q c) ∧ AllWithin q rest := by
  unfold moduleEntry at he
  split at he
  · cases he
  · next word mid hword =>
    have hmid := (value?_within h hword).2
    split at he
    · cases he
    · split at he
      · cases he
      · next e more =>
        split at he
        · split at he
          · cases he
          · next u rest' hvalue =>
            cases he
            exact value?_within (List.forall_mem_cons.mp hmid).2 hvalue
        · cases he

theorem addEntry_within {s : Option Text × ModuleSpec} (key : ModuleKey)
    (hname : ∀ n ∈ s.1, ∀ c ∈ n, q c) (hs : s.2.Within q) (hv : ∀ c ∈ v, q c) :
    (∀ n ∈ (addEntry key v s).1, ∀ c ∈ n, q c) ∧ (addEntry key v s).2.Within q := by
  have hgiven : ∀ n ∈ some v, ∀ c ∈ n, q c := by
    rintro n ⟨⟩
    exact hv
  simp only [ModuleSpec.Within, ModuleSpec.texts, List.forall_mem_cons, List.forall_mem_append,
    Option.mem_toList] at hs ⊢
  obtain ⟨hfirst, ⟨⟨hguid, hlow⟩, hhigh⟩, hexact⟩ := hs
  cases key with
  | name => exact ⟨hgiven, hfirst, ⟨⟨hguid, hlow⟩, hhigh⟩, hexact⟩
  | guid => exact ⟨hname, hfirst, ⟨⟨hgiven, hlow⟩, hhigh⟩, hexact⟩
  | minimum => exact ⟨hname, hfirst, ⟨⟨hguid, hgiven⟩, hhigh⟩, hexact⟩
  | maximum => exact ⟨hname, hfirst, ⟨⟨hguid, hlow⟩, hgiven⟩, hexact⟩
  | exact_ => exact ⟨hname, hfirst, ⟨⟨hguid, hlow⟩, hhigh⟩, hgiven⟩

theorem moduleTable_within {s : Option Text × ModuleSpec} (h : AllWithin q ts)
    (hname : ∀ n ∈ s.1, ∀ c ∈ n, q c) (hs : s.2.Within q) (ht : moduleTable s ts = .ok (m, rest)) :
    m.Within q ∧ AllWithin q rest := by
  have hdrop : ∀ {us}, ts.dropWhile isEntryGap = us → AllWithin q us := by
    rintro us rfl t ht
    exact h t ((List.dropWhile_suffix _).subset ht)
  fun_induction moduleTable s ts with
  | case1 s ts hgap => cases ht
  | case2 s ts t more hgap hclose n hn =>
    cases ht
    have hmore := List.forall_mem_cons.mp (hdrop hgap)
    refine ⟨?_, hmore.2⟩
    rw [ModuleSpec.Within, ModuleSpec.texts, List.forall_mem_cons] at hs ⊢
    exact ⟨hname n hn, hs.2⟩
  | case3 s ts t more hgap hclose hnone => cases ht
  | case4 s ts t more hgap hclose e he => cases ht
  | case5 s ts t more hgap hclose key v mid he ih =>
    obtain ⟨hv, hmid⟩ := moduleEntry_within (hdrop hgap) he
    obtain ⟨hname', hs'⟩ := addEntry_within key hname hs hv
    refine ih hmid hname' hs' ht ?_
    rintro us rfl t ht
    exact hmid t ((List.dropWhile_suffix _).subset ht)

theorem plain_within {n : Text} (h : ∀ c ∈ n, q c) : ({ name := n } : ModuleSpec).Within q := by
  intro t ht
  obtain rfl := List.mem_singleton.mp ht
  exact h

theorem moduleSpec_within (h : AllWithin q ts) (hm : moduleSpec ts = .ok (m, rest)) :
    m.Within q ∧ AllWithin q rest := by
  unfold moduleSpec at hm
  split at hm
  · next t more =>
    split at hm
    · refine moduleTable_within (List.forall_mem_cons.mp h).2 ?_ ?_ hm
      · intro n hn
        cases hn
      · exact plain_within (List.forall_mem_nil _)
    · split at hm
      · next n rest' hv =>
        cases hm
        obtain ⟨hn, hrest⟩ := value?_within h hv
        exact ⟨plain_within hn, hrest⟩
      · cases hm
  · cases hm

theorem moduleSpecs_within {ms : List ModuleSpec} (h : AllWithin q ts)
    (hms : moduleSpecs ts = .ok (ms, rest)) : (∀ m ∈ ms, m.Within q) ∧ AllWithin q rest := by
  fun_induction moduleSpecs ts generalizing ms rest with
  | case1 ts e he => cases hms
  | case2 ts m hm =>
    cases hms
    exact ⟨List.forall_mem_singleton.mpr (moduleSpec_within h hm).1, List.forall_mem_nil _⟩
  | case3 ts m c more hm hcomma e he ih => cases hms
  | case4 ts m c more hm hcomma ms' rest' hmore ih =>
    cases hms
    obtain ⟨hfirst, hbehind⟩ := moduleSpec_within h hm
    obtain ⟨hms', hrest⟩ := ih (List.forall_mem_cons.mp hbehind).2 hmore
    exact ⟨List.forall_mem_cons.mpr ⟨hfirst, hms'⟩, hrest⟩
  | case5 ts m c more hm hcomma =>
    cases hms
    obtain ⟨hfirst, hbehind⟩ := moduleSpec_within h hm
    exact ⟨List.forall_mem_singleton.mpr hfirst, hbehind⟩

theorem requirementOption_within {req req' : Requires} {option : Token} (h : AllWithin q ts)
    (hreq : ∀ m ∈ req.modules, m.Within q)
    (ho : requirementOption req option ts = .ok (req', rest)) :
    (∀ m ∈ req'.modules, m.Within q) ∧ AllWithin q rest := by
  unfold requirementOption at ho
  simp only at ho
  split at ho
  · split at ho
    · next hv =>
      cases ho
      exact ⟨hreq, (value?_within h hv).2⟩
    · cases ho
  · split at ho
    · have hrest := values_within h
      split at ho
      · cases ho
      · next hvs =>
        cases ho
        rw [hvs] at hrest
        exact ⟨hreq, hrest⟩
    · split at ho
      · split at ho
        · cases ho
        · next ms rest' hms =>
          cases ho
          obtain ⟨hnew, hrest⟩ := moduleSpecs_within h hms
          exact ⟨List.forall_mem_append.mpr ⟨hreq, hnew⟩, hrest⟩
      · split at ho
        · cases ho
          exact ⟨hreq, values_within h⟩
        · split at ho
          · cases ho
            exact ⟨hreq, h⟩
          · cases ho

theorem requirementOptions_within {req req' : Requires} (h : AllWithin q ts)
    (hreq : ∀ m ∈ req.modules, m.Within q) (ho : requirementOptions req ts = .ok req') :
    ∀ m ∈ req'.modules, m.Within q := by
  fun_induction requirementOptions req ts with
  | case1 req =>
    cases ho
    exact hreq
  | case2 req t more hparameter e he => cases ho
  | case3 req t more hparameter mid rest' hoption ih =>
    obtain ⟨hmid, hrest⟩ := requirementOption_within (List.forall_mem_cons.mp h).2 hreq hoption
    exact ih hrest hmid ho
  | case4 req t more hparameter => cases ho

end Script

/-! ### Comments -/

/-- Characters that a comment goes on with. -/
def inLine (c : Char) : Bool := c ≠ '\n' && c ≠ '\x00'

/-- A requirement comment ends with its line, and at a null character. -/
theorem text_of_isRequirement {source : Text} {s : Scan} (h : scan source = .ok s) {t : Token}
    (ht : t ∈ s.tokens) (hrequirement : t.isRequirement = true) :
    ∀ c ∈ t.text, inLine c = true := by
  obtain ⟨ps, rfl, hspells, htokens⟩ := exists_pieces h
  rw [htokens] at ht
  obtain ⟨i, hi⟩ := List.mem_iff_getElem?.mp ht
  obtain ⟨front, d, w, l, back, rfl, -, rfl⟩ := exists_lexeme hi
  obtain ⟨-, hread, hlen⟩ := (spells_append.mp hspells).2.1
  have hkind := Grammar.comment_of_isRequirement hrequirement
  have htext := text_eq_shown hlen d
  intro c hc
  change c ∈ l.text d w at hc
  rcases Lexeme.comment_of_read hread hkind with ⟨rfl, hextra⟩ | rfl
  · have hrun := (Lexeme.runLength_append_eq.mp (hextra.symm.trans hlen.symm)).1
    have hin : c ∈ '#' :: w := by
      rw [htext, shown] at hc
      split at hc
      · exact (Text.prefix_dropEndWhile _ _).subset hc
      · exact hc
    rcases List.mem_cons.mp hin with rfl | hin
    · decide
    · exact hrun c hin
  · have hangle : (l.token (Position.start.advance (textOf front)) '<' w).text.head? = some '<' := by
      change (l.text '<' w).head? = some '<'
      rw [htext, shown, if_neg (by simp)]
      rfl
    exact absurd hangle (head_of_isRequirement hrequirement)

/-- Whether a requirement was read from a comment of a source. -/
def Requires.IsWritten (req : Requires) : Prop :=
  ∃ file source sc t st, Script.ofSource file source = .ok sc ∧ t ∈ sc.tokens ∧
    t.isRequirement = true ∧ sc.requirement t = .ok st ∧ st.content = .requirement req

theorem Requires.IsWritten.within {req : Requires} (h : req.IsWritten) :
    ∀ m ∈ req.modules, m.Within (inLine ·) := by
  obtain ⟨file, source, sc, t, st, hsource, ht, hrequirement, hread, hcontent⟩ := h
  obtain ⟨s, hscan, rfl⟩ := Script.ofSource_eq_ok hsource
  have htext := text_of_isRequirement hscan ht hrequirement
  obtain ⟨args, req', hargs, hoptions, rfl⟩ := requirement_iff.mp hread
  obtain rfl : req' = req := Content.requirement.inj hcontent
  have hwithin : AllWithin (inLine ·) args.tokens := by
    intro u hu
    have hu := scan_within hargs u hu
    constructor
    · intro c hc
      exact htext c (List.mem_of_mem_drop (hu.text c hc))
    · intro v hv c hc
      exact htext c (List.mem_of_mem_drop (hu.value v hv c hc))
  exact Script.requirementOptions_within hwithin (List.forall_mem_nil _) hoptions

end ScriptModule
