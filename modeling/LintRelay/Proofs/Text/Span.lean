import LintRelay.Text.Blank
set_option autoImplicit false

/-!
# Text: spans of characters of one kind

A span of characters of one kind ends where the first character of another kind stands.  So the
ways to cut a text at its blanks are few: there is one way to take its leading blanks off
(`dropBlanks_eq_iff`), and one to part it into a word, the gap behind the word and a rest
(`Spaced.unique`).
-/

namespace LintRelay.Text

/-- Characters of one kind are dropped up to the first one of another kind. -/
theorem dropWhile_append_of_head? {p : Char → Bool} {cs rest : List Char}
    (hcs : ∀ c ∈ cs, p c = true) (hrest : ∀ c ∈ rest.head?, p c = false) :
    (cs ++ rest).dropWhile p = rest := by
  rw [List.dropWhile_append_of_pos hcs]
  cases rest with
  | nil => rfl
  | cons c rest => rw [List.dropWhile_cons_of_neg (by simp [hrest c rfl])]

/-- What is left without leading blanks is what stands behind nothing but blanks and does not
start with one. -/
theorem dropBlanks_eq_iff {cs rest : List Char} :
    dropBlanks cs = rest ↔ ∃ gap, cs = gap ++ rest ∧ (∀ c ∈ gap, isBlank c = true) ∧
      ∀ c ∈ rest.head?, isBlank c = false := by
  constructor
  · rintro rfl
    refine ⟨cs.takeWhile isBlank, List.takeWhile_append_dropWhile.symm, ?_, ?_⟩
    · exact List.all_eq_true.mp List.all_takeWhile
    · intro c hc
      have hhead := List.head?_dropWhile_not isBlank cs
      rw [← dropBlanks, Option.mem_def.mp hc] at hhead
      exact hhead
  · rintro ⟨gap, rfl, hgap, hrest⟩
    exact dropWhile_append_of_head? hgap hrest

/-! ## A word and the rest -/

/-- The characters are a word, a gap of one or more blanks, and a rest that does not start with a
blank. -/
def Spaced (word rest cs : List Char) : Prop :=
  ∃ gap, cs = word ++ (gap ++ rest) ∧ gap ≠ [] ∧ (∀ c ∈ gap, isBlank c = true) ∧
    ∀ c ∈ rest.head?, isBlank c = false

theorem Spaced.mem_of_mem_rest {word rest cs : List Char} (h : Spaced word rest cs) {c : Char}
    (hc : c ∈ rest) : c ∈ cs := by
  obtain ⟨gap, rfl, -⟩ := h
  exact List.mem_append_right word (List.mem_append_right gap hc)

/-- Behind the word stand blanks and the rest.  The gap is not empty, so the rest is shorter. -/
theorem spaced_append_iff {word rest cs : List Char} :
    Spaced word rest (word ++ cs) ↔ dropBlanks cs = rest ∧ rest.length < cs.length := by
  rw [dropBlanks_eq_iff]
  constructor
  · rintro ⟨gap, hcs, hgap, hblank, hrest⟩
    obtain rfl := List.append_cancel_left hcs
    have hlength : 0 < gap.length := List.length_pos_iff.mpr hgap
    exact ⟨⟨gap, rfl, hblank, hrest⟩, by rw [List.length_append]; omega⟩
  · rintro ⟨⟨gap, rfl, hblank, hrest⟩, hlength⟩
    exact ⟨gap, rfl, by rintro rfl; simp at hlength, hblank, hrest⟩

/-- A word without blanks ends at the first blank. -/
theorem Spaced.dropWhile_eq {word rest cs : List Char} (h : Spaced word rest cs)
    (hword : ∀ c ∈ word, isBlank c = false) :
    ∃ gap, cs.dropWhile (fun c => !isBlank c) = gap ++ rest ∧ cs = word ++ (gap ++ rest) ∧
      dropBlanks (gap ++ rest) = rest := by
  obtain ⟨gap, rfl, hgap, hblank, hrest⟩ := h
  refine ⟨gap, dropWhile_append_of_head? (by simpa using hword) ?_, rfl,
    dropBlanks_eq_iff.mpr ⟨gap, rfl, hblank, hrest⟩⟩
  intro c hc
  cases gap with
  | nil => exact absurd rfl hgap
  | cons b gap =>
    obtain rfl : b = c := Option.some.inj hc
    simp [hblank b List.mem_cons_self]

/-- If the word has no blanks in it, the characters can be parted in one way only. -/
theorem Spaced.unique {word₁ word₂ rest₁ rest₂ cs : List Char} (h₁ : Spaced word₁ rest₁ cs)
    (h₂ : Spaced word₂ rest₂ cs) (hword₁ : ∀ c ∈ word₁, isBlank c = false)
    (hword₂ : ∀ c ∈ word₂, isBlank c = false) : word₁ = word₂ ∧ rest₁ = rest₂ := by
  obtain ⟨gap₁, hdrop₁, hcs₁, hrest₁⟩ := h₁.dropWhile_eq hword₁
  obtain ⟨gap₂, hdrop₂, hcs₂, hrest₂⟩ := h₂.dropWhile_eq hword₂
  have hbehind : gap₁ ++ rest₁ = gap₂ ++ rest₂ := hdrop₁.symm.trans hdrop₂
  constructor
  · rw [hcs₁, hbehind] at hcs₂
    exact List.append_cancel_right hcs₂
  · rw [← hrest₁, ← hrest₂, hbehind]

end LintRelay.Text
