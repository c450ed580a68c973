/-
  ScriptModule/Proofs/AssemblyOrder.lean
  ======================================
  **One form for each assembly reference.**  The normal form of a reference has its name and
  its clauses that are not blank, without white space around them and around their first
  equals signs, in the order of their keys.  So it is its own normal form, and if no two
  keys are equal it is the same for all orders of the clauses and all white space.
-/
import Mathlib
import ScriptModule.Proofs.ImportNames

namespace ScriptModule

open Unicode

namespace Assembly

open Text

/-! ### References and their clauses -/

/-- The text of a name and clauses with commas between them. -/
def reference (head : Text) (clauses : List Text) : Text := join ",".toList (head :: clauses)

/-- The key of a clause: what stands in front of its first equals sign. -/
def key (clause : Text) : Text := trim (clause.takeWhile (· ≠ '='))

/-- The clauses of a normal form, in the order in which they were given. -/
def kept (clauses : List Text) : List Text :=
  ((clauses.map trim).filter (!·.isEmpty)).map tidy

/-- A clause, and how it may be written with white space around it and around its first
    equals sign. -/
inductive Written : Text → Text → Prop where
  | word {c w : Text} : '=' ∉ c → Padded c w → Written c w
  | pair {k v k' v' : Text} : '=' ∉ k → Padded k k' → Padded v v' →
      Written (k ++ '=' :: v) (k' ++ '=' :: v')

/-- The normal form of a name and clauses. -/
theorem normalize_reference {head : Text} {clauses : List Text} (hhead : ',' ∉ head)
    (hclauses : ∀ c ∈ clauses, ',' ∉ c) :
    normalize (reference head clauses) =
      join ", ".toList (trim head :: sorted (kept clauses)) := by
  have hfields : fields ',' (reference head clauses) = head :: clauses :=
    fields_join_plain (List.forall_mem_cons.mpr ⟨hhead, hclauses⟩)
  rw [normalize, hfields]
  rfl

/-! ### White space in clauses -/

theorem takeWhile_key {k : Text} (hk : '=' ∉ k) (v : Text) :
    (k ++ '=' :: v).takeWhile (· ≠ '=') = k := by
  have hplain : ∀ c ∈ k, decide (c ≠ '=') = true := by
    intro c hc
    rw [decide_eq_true_eq]
    rintro rfl
    exact hk hc
  rw [List.takeWhile_append_of_pos hplain, List.takeWhile_cons_of_neg (by simp), List.append_nil]

theorem takeWhile_word {c : Text} (hc : '=' ∉ c) : c.takeWhile (· ≠ '=') = c := by
  rw [List.takeWhile_eq_self_iff]
  intro d hd
  rw [decide_eq_true_eq]
  rintro rfl
  exact hc hd

theorem tidy_word {c : Text} (hc : '=' ∉ c) : tidy c = c := by
  have hcut : cut? '=' c = none := by
    rcases hcut : cut? '=' c with _ | ⟨k, v⟩
    · rfl
    · rw [(cut?_eq_some hcut).1] at hc
      exact absurd (List.mem_append_right k List.mem_cons_self) hc
  rw [tidy, hcut]

theorem tidy_trim_pair {k : Text} (hk : '=' ∉ k) (v : Text) :
    tidy (trim (k ++ '=' :: v)) = trim k ++ '=' :: trim v := by
  have hk' : '=' ∉ k.dropWhile isBlank := fun h => hk ((List.dropWhile_suffix _).subset h)
  rw [trim_append_cons (by decide), tidy, cut?_append hk']
  simp [trim_dropWhile, trim_trimEnd]

theorem trim_pair_ne_nil (k v : Text) : trim (k ++ '=' :: v) ≠ [] :=
  List.ne_nil_of_mem (mem_trim (c := '=') (by simp) (by decide))

/-- How a clause is written makes no difference to the clause that is kept. -/
theorem Written.kept_eq {c w : Text} (h : Written c w) : kept [w] = kept [c] := by
  cases h with
  | word hc hpadded => simp only [kept, List.map_cons, List.map_nil, hpadded.trim_eq]
  | @pair k v k' v' hk hkey hvalue =>
    have hk' : '=' ∉ k' := hkey.not_mem (by decide) hk
    have hne := trim_pair_ne_nil k v
    have hne' := trim_pair_ne_nil k' v'
    simp [kept, hne, hne', tidy_trim_pair hk, tidy_trim_pair hk', hkey.trim_eq, hvalue.trim_eq]

theorem kept_cons (c : Text) (clauses : List Text) :
    kept (c :: clauses) = kept [c] ++ kept clauses := by
  rw [kept, List.map_cons, List.filter_cons]
  split <;> simp_all [kept]

theorem kept_written {clauses ws : List Text} (h : List.Forall₂ Written clauses ws) :
    kept ws = kept clauses := by
  induction h with
  | nil => rfl
  | cons hc _ ih => rw [kept_cons, ih, hc.kept_eq, ← kept_cons]

theorem Written.not_mem_comma {c w : Text} (h : Written c w) (hc : ',' ∉ c) : ',' ∉ w := by
  cases h with
  | word _ hpadded => exact hpadded.not_mem (by decide) hc
  | @pair k v k' v' _ hkey hvalue =>
    simp only [List.mem_append, List.mem_cons, not_or] at hc ⊢
    exact ⟨hkey.not_mem (by decide) hc.1, hc.2.1, hvalue.not_mem (by decide) hc.2.2⟩

theorem not_mem_comma_of_written {clauses ws : List Text} (h : List.Forall₂ Written clauses ws)
    (hclauses : ∀ c ∈ clauses, ',' ∉ c) : ∀ w ∈ ws, ',' ∉ w := by
  induction h with
  | nil => exact hclauses
  | cons hc _ ih =>
    rw [List.forall_mem_cons] at hclauses ⊢
    exact ⟨hc.not_mem_comma hclauses.1, ih hclauses.2⟩

/-! ### The order of clauses -/

/-- Clauses keep their keys. -/
theorem key_tidy_trim (c : Text) : key (tidy (trim c)) = key c := by
  rcases hcut : cut? '=' c with _ | ⟨k, v⟩
  · have hc := not_mem_of_cut?_eq_none hcut
    have htrim : '=' ∉ trim c := fun h => hc (mem_of_mem_trim h)
    rw [tidy_word htrim, key, key, takeWhile_word htrim, takeWhile_word hc, trim_trim]
  · obtain ⟨rfl, hk⟩ := cut?_eq_some hcut
    have htrim : '=' ∉ trim k := fun h => hk (mem_of_mem_trim h)
    rw [tidy_trim_pair hk, key, key, takeWhile_key htrim, takeWhile_key hk, trim_trim]

theorem sortKeys_kept (clauses : List Text) :
    ((kept clauses).map sortKey).Sublist (clauses.map sortKey) := by
  have hkeys : (kept clauses).map sortKey =
      ((clauses.filter fun c => !(trim c).isEmpty)).map sortKey := by
    rw [kept, List.filter_map, List.map_map, List.map_map]
    exact List.map_congr_left fun c _ => congrArg fold (key_tidy_trim c)
  rw [hkeys]
  exact List.filter_sublist.map sortKey

theorem pairwise_sorted (clauses : List Text) :
    (sorted clauses).Pairwise fun a b => le (sortKey a) (sortKey b) = true :=
  pairwise_mergeSort_key sortKey (fun _ _ => le_iff _ _) clauses

/-- Clauses with different keys have one order. -/
theorem sorted_perm {clauses clauses' : List Text} (h : clauses.Perm clauses')
    (hkeys : (clauses.map sortKey).Nodup) : sorted clauses = sorted clauses' :=
  mergeSort_eq_of_perm sortKey (fun _ _ => le_iff _ _) hkeys h

/-! ### The normal form -/

theorem exists_reference (n : Text) :
    ∃ head clauses, n = reference head clauses ∧ ',' ∉ head ∧ ∀ c ∈ clauses, ',' ∉ c := by
  obtain ⟨head, clauses, hfields⟩ := exists_cons_fields ',' n
  have hplain : ∀ f ∈ fields ',' n, ',' ∉ f := fun f => not_mem_fields
  rw [hfields, List.forall_mem_cons] at hplain
  refine ⟨head, clauses, ?_, hplain⟩
  rw [reference, ← hfields]
  exact (join_fields ',' n).symm

/-- Every text is a name and clauses with commas between them.  Its normal form is its own
    normal form: the name and the clauses that are not blank, tidied up and in the order of
    their keys.  Where no two keys are the same name, it does not depend on the order of the
    clauses or on white space around commas and around their first equals signs. -/
theorem normalize_normal_form :
    (∀ n, normalize (normalize n) = normalize n) ∧
    (∀ n, ∃ head clauses, n = reference head clauses ∧ ',' ∉ head ∧ ∀ c ∈ clauses, ',' ∉ c) ∧
    ∀ (head : Text) (clauses : List Text), ',' ∉ head → (∀ c ∈ clauses, ',' ∉ c) →
      (∃ cs, cs.Perm (kept clauses) ∧
        cs.Pairwise (fun a b => le (fold (key a)) (fold (key b)) = true) ∧
        normalize (reference head clauses) = join ", ".toList (trim head :: cs)) ∧
      (clauses.Pairwise (fun a b => sameName (key a) (key b) = false) →
        ∀ (head' : Text) (others ws : List Text), clauses.Perm others → Padded head head' →
          List.Forall₂ Written others ws →
          normalize (reference head' ws) = normalize (reference head clauses)) := by
  refine ⟨fun n => (isNormal_normalize n).normalize_eq, exists_reference, ?_⟩
  intro head clauses hhead hclauses
  constructor
  · exact ⟨sorted (kept clauses), List.mergeSort_perm _ _, pairwise_sorted _,
      normalize_reference hhead hclauses⟩
  · intro hkeys head' others ws hperm hpadded hwritten
    have hothers : ∀ c ∈ others, ',' ∉ c := fun c hc => hclauses c (hperm.symm.subset hc)
    have hnodup : (clauses.map sortKey).Nodup := by
      refine List.pairwise_map.mpr (hkeys.imp fun hother hsame => ?_)
      have hname : sameName (key _) (key _) = true := beq_iff_eq.mpr hsame
      rw [hother] at hname
      cases hname
    have hkept : (kept clauses).Perm (kept others) := ((hperm.map trim).filter _).map tidy
    rw [normalize_reference (hpadded.not_mem (by decide) hhead)
        (not_mem_comma_of_written hwritten hothers),
      normalize_reference hhead hclauses, hpadded.trim_eq, kept_written hwritten,
      sorted_perm hkept (hnodup.sublist (sortKeys_kept clauses))]

/-- Three clauses, one of them without an equals sign and one with two, in another order and
    with white space of several kinds. -/
theorem normalize_normal_form_respaced :
    let clauses : List Text := ["Version=1.0".toList, "culture=a=b".toList, "Public".toList]
    let respaced : List Text := ["\tPublic".toList, "culture\n= a=b".toList, "Version =1.0 ".toList]
    ',' ∉ "Foo".toList ∧ (∀ c ∈ clauses, ',' ∉ c) ∧
      clauses.Pairwise (fun a b => sameName (key a) (key b) = false) ∧
      normalize (reference " Foo".toList respaced) = normalize (reference "Foo".toList clauses) ∧
      normalize (reference "Foo".toList clauses) =
        "Foo, culture=a=b, Public, Version=1.0".toList := by
  intro clauses respaced
  have hhead : ',' ∉ "Foo".toList := by decide
  have hclauses : ∀ c ∈ clauses, ',' ∉ c := by decide
  have hkeys : clauses.Pairwise (fun a b => sameName (key a) (key b) = false) := by
    decide +kernel
  have hperm : clauses.Perm clauses.reverse := clauses.reverse_perm.symm
  have hspace : ∀ c ∈ " ".toList, isBlank c = true := List.all_eq_true.mp (by decide)
  have htab : ∀ c ∈ "\t".toList, isBlank c = true := List.all_eq_true.mp (by decide)
  have hfeed : ∀ c ∈ "\n".toList, isBlank c = true := List.all_eq_true.mp (by decide)
  have hpadded : Padded "Foo".toList " Foo".toList :=
    @Padded.intro "Foo".toList " ".toList [] hspace nofun
  have hpublic : Written "Public".toList "\tPublic".toList :=
    .word (by decide) (@Padded.intro "Public".toList "\t".toList [] htab nofun)
  have hculture : Written "culture=a=b".toList "culture\n= a=b".toList :=
    @Written.pair "culture".toList "a=b".toList _ _ (by decide)
      (@Padded.intro _ [] "\n".toList nofun hfeed) (@Padded.intro _ " ".toList [] hspace nofun)
  have hversion : Written "Version=1.0".toList "Version =1.0 ".toList :=
    @Written.pair "Version".toList "1.0".toList _ _ (by decide)
      (@Padded.intro _ [] " ".toList nofun hspace) (@Padded.intro _ [] " ".toList nofun hspace)
  have hwritten : List.Forall₂ Written clauses.reverse respaced :=
    .cons hpublic (.cons hculture (.cons hversion .nil))
  exact ⟨hhead, hclauses, hkeys,
    (normalize_normal_form.2.2 _ _ hhead hclauses).2 hkeys _ _ _ hperm hpadded hwritten, by cbv⟩

end Assembly
end ScriptModule
