import LintRelay.Json.Decoder
import LintRelay.Proofs.Json.Lexeme
set_option autoImplicit false

/-!
# JSON: texts read back

`Reads step text a` says that a step reader gets `a` out of a text wherever it stands:
behind blanks, and in front of anything that cannot continue it.  In this form it composes,
so what is read from a container follows from what is read from its parts.

The compact and the indented form of a container differ in blanks only (`Layout`).
-/

namespace LintRelay.Json

/-! ## Reading a text where it stands -/

/-- A step reader gets a value out of a text, behind blanks and in front of a delimiter. -/
structure Reads {α : Type} (step : Step α) (text : List Char) (a : α) : Prop where
  /-- The text starts with a lexeme, and not with the end of a list. -/
  starts : ∃ c cs, text = c :: cs ∧ isSpace c = false ∧ c ≠ ']'
  read : ∀ blanks rest, Blank blanks → Delimited rest →
    step (blanks ++ (text ++ rest)) = .ok (a, rest)

theorem Reads.of_cons {α : Type} {step : Step α} {c : Char} {cs : List Char} {a : α}
    (hspace : isSpace c = false) (hend : c ≠ ']')
    (hstep : ∀ blanks rest, Blank blanks → Delimited rest →
      skipSpace (blanks ++ (c :: cs ++ rest)) = c :: (cs ++ rest) →
      step (blanks ++ (c :: cs ++ rest)) = .ok (a, rest)) :
    Reads step (c :: cs) a where
  starts := ⟨c, cs, rfl, hspace, hend⟩
  read blanks rest hblanks hrest := by
    exact hstep blanks rest hblanks hrest (skipSpace_append_cons hblanks hspace _)

/-- A text that is read alone decodes to what is read. -/
theorem Reads.decodeChars {α : Type} {d : Decoder α} {text : List Char} {a : α}
    (h : Reads (d maxDepth) text a) : decodeChars d text = .ok a := by
  have hread := h.read [] [] (by simp [Blank]) delimited_nil
  rw [List.nil_append, List.append_nil] at hread
  simp [Json.decodeChars, hread, skipSpace]

theorem of_digit? {c : Char} {d : Nat} (h : digit? c = some d) :
    isSpace c = false ∧ c ≠ ']' ∧ c ≠ '-' := by
  have hother : ∀ c ∈ [' ', '\n', '\t', '\r', ']', '-'], digit? c = none := by simp [digit?_eq]
  have hc : c ∉ [' ', '\n', '\t', '\r', ']', '-'] := by
    intro hmem
    rw [hother c hmem] at h
    cases h
  simp only [List.mem_cons, List.not_mem_nil, or_false, not_or] at hc
  simp [isSpace, hc]

/-! ## Layouts -/

/-- The blanks in a container. -/
structure Layout where
  /-- In front of an item. -/
  gap : List Char
  /-- Behind the colon of a member. -/
  colonGap : List Char
  /-- In front of the closing bracket. -/
  close : List Char
  gap_blank : Blank gap
  colonGap_blank : Blank colonGap
  close_blank : Blank close

namespace Layout

/-- No blanks at all. -/
def compact : Layout where
  gap := []
  colonGap := []
  close := []
  gap_blank := by simp [Blank]
  colonGap_blank := by simp [Blank]
  close_blank := by simp [Blank]

theorem blank_lineStart (depth : Nat) : Blank (lineStart depth) := by
  intro c hc
  rcases List.mem_cons.mp hc with rfl | hmem
  · decide
  · rw [List.eq_of_mem_replicate hmem]
    decide

/-- A line for every item of a container at a depth. -/
def indented (depth : Nat) : Layout where
  gap := lineStart (depth + 1)
  colonGap := [' ']
  close := lineStart depth
  gap_blank := blank_lineStart (depth + 1)
  colonGap_blank := by simp [Blank, isSpace]
  close_blank := blank_lineStart depth

/-- Further items and the closing bracket. -/
def tail (l : Layout) (closing : Char) (texts : List (List Char)) : List Char :=
  texts.flatMap (fun t => ',' :: (l.gap ++ t)) ++ (l.close ++ [closing])

/-- The items of a container and the closing bracket. -/
def enclosed (l : Layout) (closing : Char) : List (List Char) → List Char
  | [] => [closing]
  | t :: texts => l.gap ++ (t ++ l.tail closing texts)

/-- A member of an object. -/
def member (l : Layout) (m : String × List Char) : List Char :=
  stringChars m.1 ++ ':' :: (l.colonGap ++ m.2)

theorem tail_cons (l : Layout) (closing : Char) (t : List Char) (texts : List (List Char)) :
    l.tail closing (t :: texts) = ',' :: (l.gap ++ (t ++ l.tail closing texts)) := by
  simp [tail]

end Layout

/-! ## Written containers have a layout -/

/-- A form with commas between its items, and with the blanks of a layout. -/
theorem Layout.eq_enclosed {ι : Type} (l : Layout) {closing : Char} {text : ι → List Char}
    {form : List ι → List Char} (hnil : form [] = [closing])
    (hlast : ∀ i, form [i] = l.gap ++ (text i ++ (l.close ++ [closing])))
    (hmore : ∀ i j is, form (i :: j :: is) = l.gap ++ (text i ++ ',' :: form (j :: is)))
    (is : List ι) : form is = l.enclosed closing (is.map text) := by
  induction is with
  | nil => exact hnil
  | cons i is ih =>
    cases is with
    | nil => simp [hlast, enclosed, tail]
    | cons j is =>
      rw [hmore, ih]
      simp [enclosed, tail_cons]

theorem membersChars_eq_enclosed (ms : List (String × Value)) :
    membersChars ms =
      Layout.compact.enclosed '\x7d' (ms.map fun m => Layout.compact.member (m.1, m.2.chars)) := by
  apply Layout.compact.eq_enclosed <;> intros <;>
    simp [membersChars, Layout.compact, Layout.member]

theorem itemsChars_eq_enclosed (vs : List Value) :
    itemsChars vs = Layout.compact.enclosed ']' (vs.map Value.chars) := by
  apply Layout.compact.eq_enclosed <;> intros <;> simp [itemsChars, Layout.compact]

theorem indentedItems_eq_enclosed (depth : Nat) (vs : List Value) :
    indentedItems depth vs =
      (Layout.indented depth).enclosed ']' (vs.map (Value.indentedChars (depth + 1))) := by
  apply (Layout.indented depth).eq_enclosed <;> intros <;> simp [indentedItems, Layout.indented]

theorem indentedMembers_eq_enclosed (depth : Nat) (ms : List (String × Value)) :
    indentedMembers depth ms =
      (Layout.indented depth).enclosed '\x7d'
        (ms.map fun m => (Layout.indented depth).member (m.1, m.2.indentedChars (depth + 1))) := by
  apply (Layout.indented depth).eq_enclosed <;> intros <;>
    simp [indentedMembers, Layout.indented, Layout.member]

theorem indentedChars_array (depth : Nat) (vs : List Value) :
    (Value.array vs).indentedChars depth =
      '[' :: (Layout.indented depth).enclosed ']' (vs.map (Value.indentedChars (depth + 1))) := by
  cases vs with
  | nil => simp [Value.indentedChars, Layout.enclosed]
  | cons v vs => simp [Value.indentedChars, indentedItems_eq_enclosed]

theorem indentedChars_object (depth : Nat) (ms : List (String × Value)) :
    (Value.object ms).indentedChars depth =
      '\x7b' :: (Layout.indented depth).enclosed '\x7d'
        ((ms.map fun m => (m.1, m.2.indentedChars (depth + 1))).map
          (Layout.indented depth).member) := by
  rw [List.map_map]
  cases ms with
  | nil => simp [Value.indentedChars, Layout.enclosed]
  | cons m ms =>
    simp [Value.indentedChars, indentedMembers_eq_enclosed, Function.comp_def]

/-- What follows the opening quote of a member. -/
def Layout.unquoted (l : Layout) (m : String × List Char) : List Char :=
  m.1.toList.flatMap escapeChar ++ '"' :: ':' :: (l.colonGap ++ m.2)

theorem Layout.member_eq_cons (l : Layout) (m : String × List Char) :
    l.member m = '"' :: l.unquoted m := by
  simp [Layout.member, stringChars, unquoted]

end LintRelay.Json
