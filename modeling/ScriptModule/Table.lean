/-
  ScriptModule/Table.lean
  =======================
  **Tables in order of insertion.**  A table has at most one row per key.  Writing
  to a key that is present keeps the row's place; writing to a new key adds a row
  at the end.  The laws below give keys and look-ups after each operation.
-/

namespace ScriptModule

variable {κ α : Type} [DecidableEq κ]

/-! ### Rows -/

/-- Rows with the row of a key replaced, or added at the end. -/
def setRow (k : κ) (v : α) : List (κ × α) → List (κ × α)
  | [] => [(k, v)]
  | (k', v') :: rows => if k' = k then (k, v) :: rows else (k', v') :: setRow k v rows

theorem setRow_of_not_mem {k : κ} {v : α} {rows : List (κ × α)}
    (h : k ∉ rows.map Prod.fst) : setRow k v rows = rows ++ [(k, v)] := by
  induction rows with
  | nil => rfl
  | cons r rows ih =>
    obtain ⟨k', v'⟩ := r
    simp only [List.map_cons, List.mem_cons, not_or] at h
    simp [setRow, Ne.symm h.1, ih h.2]

theorem keys_setRow_of_mem {k : κ} {v : α} {rows : List (κ × α)}
    (h : k ∈ rows.map Prod.fst) : (setRow k v rows).map Prod.fst = rows.map Prod.fst := by
  induction rows with
  | nil => simp at h
  | cons r rows ih =>
    obtain ⟨k', v'⟩ := r
    by_cases hk : k' = k
    · simp [setRow, hk]
    · have : k ∈ rows.map Prod.fst := by simpa [Ne.symm hk] using h
      simp [setRow, hk, ih this]

theorem nodup_setRow {k : κ} {v : α} {rows : List (κ × α)}
    (h : (rows.map Prod.fst).Nodup) : ((setRow k v rows).map Prod.fst).Nodup := by
  by_cases hk : k ∈ rows.map Prod.fst
  · rw [keys_setRow_of_mem hk]; exact h
  · rw [setRow_of_not_mem hk, List.map_append, List.nodup_append]
    refine ⟨h, by simp, fun a ha b hb => ?_⟩
    simp only [List.map_cons, List.map_nil, List.mem_singleton] at hb
    intro hab
    exact hk (hb ▸ hab ▸ ha)

theorem lookup_row (j k : κ) (v : α) (rows : List (κ × α)) :
    ((k, v) :: rows).lookup j = if j = k then some v else rows.lookup j := by
  by_cases h : j = k
  · simp [h]
  · have hb : (j == k) = false := by simpa using h
    simp [List.lookup_cons, hb, h]

theorem lookup_setRow (k j : κ) (v : α) (rows : List (κ × α)) :
    (setRow k v rows).lookup j = if j = k then some v else rows.lookup j := by
  induction rows with
  | nil => rw [setRow, lookup_row]
  | cons r rows ih =>
    obtain ⟨k', v'⟩ := r
    rw [setRow, lookup_row]
    split
    · next hk =>
      rw [lookup_row]
      subst hk
      split <;> rfl
    · next hk =>
      rw [lookup_row, ih]
      by_cases hj : j = k
      · have hjk : ¬ j = k' := fun h => hk (h.symm.trans hj)
        rw [if_neg hjk, if_pos hj]
        simp [hj]
      · simp only [if_neg hj]

/-! ### Tables -/

omit [DecidableEq κ] in
/-- Rows in order of insertion, one per key. -/
structure Table (κ α : Type) where
  rows : List (κ × α)
  nodup : (rows.map Prod.fst).Nodup

namespace Table

def empty : Table κ α := ⟨[], by simp⟩

instance : Inhabited (Table κ α) := ⟨empty⟩

def keys (t : Table κ α) : List κ := t.rows.map Prod.fst

def values (t : Table κ α) : List α := t.rows.map Prod.snd

def size (t : Table κ α) : Nat := t.rows.length

/-- Whether there is no row. -/
def isEmpty (t : Table κ α) : Bool := t.rows.isEmpty

def get? (t : Table κ α) (k : κ) : Option α := t.rows.lookup k

def contains (t : Table κ α) (k : κ) : Bool := (t.get? k).isSome

def insert (t : Table κ α) (k : κ) (v : α) : Table κ α :=
  ⟨setRow k v t.rows, nodup_setRow t.nodup⟩

/-- Writes a value to a key unless the key is present. -/
def insertNew (t : Table κ α) (k : κ) (v : α) : Table κ α :=
  if t.contains k then t else t.insert k v

/-! ### Laws -/

@[simp] theorem get?_empty (k : κ) : (empty : Table κ α).get? k = none := rfl

@[simp] theorem get?_insert (t : Table κ α) (k j : κ) (v : α) :
    (t.insert k v).get? j = if j = k then some v else t.get? j :=
  lookup_setRow k j v t.rows

theorem mem_keys_iff (t : Table κ α) (k : κ) : k ∈ t.keys ↔ t.contains k = true := by
  obtain ⟨rows, hn⟩ := t
  simp only [keys, contains, get?]
  clear hn
  induction rows with
  | nil => simp
  | cons r rows ih =>
    obtain ⟨k', v'⟩ := r
    rw [lookup_row, List.map_cons, List.mem_cons, ih]
    by_cases h : k = k' <;> simp [h]

theorem keys_insert (t : Table κ α) (k : κ) (v : α) :
    (t.insert k v).keys = if t.contains k then t.keys else t.keys ++ [k] := by
  by_cases h : k ∈ t.keys
  · rw [if_pos ((mem_keys_iff t k).mp h)]
    exact keys_setRow_of_mem h
  · rw [if_neg (fun hc => h ((mem_keys_iff t k).mpr hc))]
    simp only [keys, insert, setRow_of_not_mem h, List.map_append, List.map_cons, List.map_nil]

end Table
end ScriptModule
