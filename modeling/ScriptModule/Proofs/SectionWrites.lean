/-
  ScriptModule/Proofs/SectionWrites.lean
  ======================================
  **Sections that are written over.**  A definition is added to a section only if its name
  is new there, but an entry can also be written whatever there is.  The name then keeps its
  place among the others and gets all else from the entry that was written last, the
  spelling with it.  So a section shows first spellings as long as nothing is written over,
  and last ones in general (`changeAll_last_spelling`).
-/
import ScriptModule.Proofs.RegistryRuns

namespace ScriptModule

/-! ### Entries written one after another -/

theorem Text.sameName_eq (a b : Text) : sameName a b = decide (fold a = fold b) := by
  rw [Bool.eq_iff_iff, sameName, beq_iff_eq, decide_eq_true_eq]

/-- Whether two entries have one name. -/
def Entry.sameName (a b : Entry) : Bool := Text.sameName a.key b.key

namespace Section

/-- Writes entries, each over the one of its name if there is one. -/
def putAll (s : Section) (es : List Entry) : Section :=
  es.foldl (fun s e => s.put e.key e.value e.filename) s

theorem putAll_append (s : Section) (es fs : List Entry) :
    s.putAll (es ++ fs) = (s.putAll es).putAll fs :=
  List.foldl_append

/-- An entry of a new name is put behind the others. -/
theorem rows_put {s : Section} {e : Entry} (h : s.find? e.key = none) :
    (s.put e.key e.value e.filename).rows = s.rows ++ [(Text.fold e.key, e)] :=
  Table.rows_insert (Table.not_mem_keys_of_get? h) e

variable (es : List Entry)

/-- Each name stands once, where it was first written. -/
theorem keys_putAll :
    Table.keys (putAll Table.empty es) =
      (es.eraseDupsBy Entry.sameName).map fun e => Text.fold e.key := by
  have hsame : Entry.sameName = fun a b => decide (Text.fold a.key = Text.fold b.key) :=
    funext fun a => funext fun b => Text.sameName_eq a.key b.key
  rw [hsame]
  exact Table.keys_foldl_insert (fun e : Entry => Text.fold e.key) id es

/-- A name in any spelling is found as it was last written. -/
theorem find?_putAll (name : Text) :
    find? (putAll Table.empty es) name =
      es.reverse.find? fun e => Text.sameName e.key name := by
  have hfound := Table.get?_foldl_insert (fun e : Entry => Text.fold e.key) id es Table.empty
    (Text.fold name)
  rw [Option.map_id, Table.get?_empty, Option.or_none] at hfound
  simp only [Text.sameName_eq]
  exact hfound

/-- The entries in the order of the first writes, each as it was last written. -/
theorem entries_putAll :
    (entries (putAll Table.empty es)).map some =
      (es.eraseDupsBy Entry.sameName).map fun e => es.reverse.find? (Entry.sameName · e) := by
  rw [entries, ← Table.map_get?_keys, keys_putAll, List.map_map]
  apply List.map_congr_left
  intro e _
  exact find?_putAll es e.key

end Section

namespace Registry

/-! ### Calls on a registry -/

/-- A call that may change a section. -/
inductive Change where
  | add (x : Registration)                  -- only a new name is inserted
  | put (kind : SectionKind) (e : Entry)    -- inserted in a section in use, whatever is there
deriving DecidableEq, Repr

def change (r : Registry) : Change → Registry
  | .add x => (r.register x).1
  | .put kind e => (r.put kind e.key e.value e.filename).1

/-- The entry that a call inserts in the section of a kind, if it does. -/
def insertion? (kind : SectionKind) (r : Registry) : Change → Option Entry
  | .add x => if x.kind = kind ∧ (r.register x).2 = none then some x.entry else none
  | .put k e => if k = kind ∧ r.has k = true then some e else none

def changeAll (r : Registry) (cs : List Change) : Registry := cs.foldl change r

/-- The entries that calls insert in the section of a kind, in order. -/
def insertions (kind : SectionKind) (r : Registry) : List Change → List Entry
  | [] => []
  | c :: cs => (r.insertion? kind c).toList ++ (r.change c).insertions kind cs

variable {r : Registry} {kind : SectionKind}

/-! ### One call -/

/-- What is added has a new name. -/
theorem find?_of_insertion? {x : Registration} {e : Entry}
    (h : r.insertion? kind (.add x) = some e) : (r.sectionOf kind).find? e.key = none := by
  rw [insertion?, Option.ite_none_right_eq_some, Option.some.injEq] at h
  obtain ⟨⟨rfl, haccepted⟩, rfl⟩ := h
  exact ((outcome_register r x).accepted_iff.mp haccepted).2

theorem sectionOf_register (r : Registry) (x : Registration) (kind : SectionKind) :
    (r.register x).1.sectionOf kind =
      (r.sectionOf kind).putAll (r.insertion? kind (.add x)).toList := by
  have hstep := outcome_register r x
  cases houtcome : (r.register x).2 with
  | some p =>
    rw [houtcome] at hstep
    simp [insertion?, houtcome, hstep.unchanged (Option.some_ne_none p), Section.putAll]
  | none =>
    rw [houtcome] at hstep
    by_cases hkind : x.kind = kind
    · subst hkind
      have hmade : r.insertion? x.kind (.add x) = some x.entry := if_pos ⟨rfl, houtcome⟩
      rw [hmade]
      apply Table.ext_rows
      exact hstep.accepts.rows.trans (Section.rows_put (find?_of_insertion? hmade)).symm
    · simp [insertion?, hkind, hstep.accepts.others kind (Ne.symm hkind), Section.putAll]

theorem sectionOf_put (r : Registry) (k : SectionKind) (e : Entry) (kind : SectionKind) :
    (r.put k e.key e.value e.filename).1.sectionOf kind =
      (r.sectionOf kind).putAll (r.insertion? kind (.put k e)).toList := by
  rw [insertion?, put]
  by_cases hused : r.has k = true
  · by_cases hkind : k = kind
    · subst hkind
      simp [hused, sectionOf_insert, Section.putAll]
    · simp [hused, hkind, sectionOf_insert, Ne.symm hkind, Section.putAll]
  · simp [hused, Section.putAll]

/-- What a call inserts in a section is written there, and nothing else is. -/
theorem sectionOf_change (r : Registry) (c : Change) (kind : SectionKind) :
    (r.change c).sectionOf kind = (r.sectionOf kind).putAll (r.insertion? kind c).toList := by
  cases c with
  | add x => exact sectionOf_register r x kind
  | put k e => exact sectionOf_put r k e kind

/-! ### Many calls -/

/-- A section is what was inserted in it, written one after the other. -/
theorem sectionOf_changeAll (r : Registry) (cs : List Change) (kind : SectionKind) :
    (r.changeAll cs).sectionOf kind = (r.sectionOf kind).putAll (r.insertions kind cs) := by
  induction cs generalizing r with
  | nil => rfl
  | cons c cs ih =>
    change ((r.change c).changeAll cs).sectionOf kind = _
    rw [ih, sectionOf_change, ← Section.putAll_append]
    rfl

/-- As long as definitions are only added, every entry stays as it was inserted. -/
theorem rows_changeAll_add {cs : List Change} (h : ∀ c ∈ cs, ∃ x, c = .add x) :
    ((r.changeAll cs).sectionOf kind).rows =
      (r.sectionOf kind).rows ++ (r.insertions kind cs).map fun e => (Text.fold e.key, e) := by
  induction cs generalizing r with
  | nil => exact (List.append_nil _).symm
  | cons c cs ih =>
    rw [List.forall_mem_cons] at h
    obtain ⟨⟨x, rfl⟩, hcs⟩ := h
    change (((r.change (.add x)).changeAll cs).sectionOf kind).rows = _
    rw [ih hcs, sectionOf_change, insertions, List.map_append, ← List.append_assoc]
    cases hmade : r.insertion? kind (.add x) with
    | none => simp [Section.putAll]
    | some e =>
      have hrows := Section.rows_put (find?_of_insertion? hmade)
      simp only [Option.toList_some, Section.putAll, List.foldl_cons, List.foldl_nil, hrows]
      rfl

/-- **A section shows the spelling of the last insertion.**  Behind any calls, added and
    written entries mixed, a section has one entry for each name, in the order in which the
    names were first inserted.  An entry, and what is found under its name in any spelling,
    is all that was inserted last under that name, its spelling included; so it is shown as
    it was first spelled only if it was inserted last in that spelling.  If definitions are
    only added, the section lists what was inserted, as it was inserted. -/
theorem changeAll_last_spelling (cs : List Change) (kind : SectionKind) :
    let s := (({} : Registry).changeAll cs).sectionOf kind
    let made := ({} : Registry).insertions kind cs
    let first := made.eraseDupsBy Entry.sameName
    s.keys = first.map (fun e => Text.fold e.key) ∧
    (∀ name, s.find? name = made.reverse.find? fun e => Text.sameName e.key name) ∧
    s.entries.map some = first.map (fun e => made.reverse.find? (Entry.sameName · e)) ∧
    ((∀ c ∈ cs, ∃ x, c = .add x) → s.rows = made.map fun e => (Text.fold e.key, e)) := by
  intro s made first
  have hs : s = Section.putAll Table.empty made := sectionOf_changeAll {} cs kind
  refine ⟨?_, ?_, ?_, ?_⟩
  · rw [hs]
    exact Section.keys_putAll made
  · intro name
    rw [hs]
    exact Section.find?_putAll made name
  · rw [hs]
    exact Section.entries_putAll made
  · exact rows_changeAll_add

/-- A name that is added in three spellings, of which the first is accepted, and then
    written in a fourth one; what is written to a section before its first use is lost. -/
theorem changeAll_last_spelling_mixed :
    let add (key value : String) : Change := .add ⟨.function, key, value, none, []⟩
    let foo : Entry := ⟨"Get-Foo", "a", none⟩
    let bar : Entry := ⟨"Set-Bar", "b", none⟩
    let later : Entry := ⟨"GET-foo", "d", some "x.ps1"⟩
    let adds := [add "Get-Foo" "a", add "GET-FOO" "a", add "get-foo" "c", add "Set-Bar" "b"]
    let cs := .put .function ⟨"Get-Old", "o", none⟩ :: adds ++ [.put .function later]
    (∀ c ∈ adds, ∃ x, c = .add x) ∧
      ((({} : Registry).changeAll adds).sectionOf .function).rows =
        [("get-foo".toList, foo), ("set-bar".toList, bar)] ∧
      ((({} : Registry).changeAll cs).sectionOf .function).entries.map some =
        [some later, some bar] := by
  intro add foo bar later adds cs
  have hadds : ∀ c ∈ adds, ∃ x, c = .add x := by simp [adds, add]
  refine ⟨hadds, ?_, ?_⟩
  · obtain ⟨-, -, -, hrows⟩ := changeAll_last_spelling adds .function
    exact (hrows hadds).trans (by decide +kernel)
  · obtain ⟨-, -, hentries, -⟩ := changeAll_last_spelling cs .function
    exact hentries.trans (by decide +kernel)

/-- A function that is added as `Get-Foo` and written as `GET-FOO` is not listed in the
    spelling in which its name was first inserted. -/
theorem not_changeAll_first_spelling :
    ¬ ∀ (cs : List Change) (kind : SectionKind),
      ((({} : Registry).changeAll cs).sectionOf kind).names =
        ((({} : Registry).insertions kind cs).eraseDupsBy Entry.sameName).map Entry.key := by
  intro hfirst
  have hspelled := hfirst
    [.add ⟨.function, "Get-Foo", "a", none, []⟩, .put .function ⟨"GET-FOO", "b", none⟩] .function
  revert hspelled
  decide +kernel

end Registry
end ScriptModule
