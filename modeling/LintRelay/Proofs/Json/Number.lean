import LintRelay.Proofs.Json.Reading
set_option autoImplicit false

/-!
# JSON: numbers in a text

A number that is read to the end of some characters is read the same way in front of
anything that cannot continue it (`Local`).  So whether some characters are the text of a
number (`NumberText`) is a question about these characters alone.

Integers of 64 bits are read from their digits.  Reading a float rounds twice, so not every
float is read from its shortest form; `ReadsBack` says that one is.
-/

namespace LintRelay.Json

/-! ## Reading does not look behind the number -/

/-- What a step reader does with some characters it also does in front of a delimiter. -/
def Local {α : Type} (step : Step α) : Prop :=
  ∀ ⦃cs a r⦄, step cs = .ok (a, r) → ∀ ⦃rest⦄, Delimited rest →
    step (cs ++ rest) = .ok (a, r ++ rest)

theorem startsWithDigit_of_delimited {rest : List Char} (hrest : Delimited rest) :
    startsWithDigit rest = false := by
  cases rest with
  | nil => rfl
  | cons c cs => simp [startsWithDigit, (digit?_of_delimited hrest).1]

theorem dropDigits_cons_digit {c : Char} {d : Nat} (hc : digit? c = some d) (cs : List Char) :
    dropDigits (c :: cs) = dropDigits cs := by
  simp [dropDigits, hc]

theorem dropDigits_cons_other {c : Char} (hc : digit? c = none) (cs : List Char) :
    dropDigits (c :: cs) = c :: cs := by
  simp [dropDigits, hc]

theorem dropDigits_append {rest : List Char} (hrest : Delimited rest) (cs : List Char) :
    dropDigits (cs ++ rest) = dropDigits cs ++ rest := by
  induction cs with
  | nil =>
    cases rest with
    | nil => rfl
    | cons c cs => exact dropDigits_cons_other (digit?_of_delimited hrest).1 cs
  | cons c cs ih =>
    cases hc : digit? c with
    | none => rw [List.cons_append, dropDigits_cons_other hc, dropDigits_cons_other hc,
        List.cons_append]
    | some d => rw [List.cons_append, dropDigits_cons_digit hc, dropDigits_cons_digit hc, ih]

theorem dropDigits_suffix (cs : List Char) : dropDigits cs <:+ cs := List.dropWhile_suffix _

theorem wholeDigits_append {rest : List Char} (hrest : Delimited rest) (n : Nat)
    (cs : List Char) :
    wholeDigits n (cs ++ rest) =
      ((wholeDigits n cs).1, (wholeDigits n cs).2.1, (wholeDigits n cs).2.2 ++ rest) := by
  induction cs generalizing n with
  | nil => exact wholeDigits_of_delimited hrest n
  | cons c cs ih =>
    rw [List.cons_append, wholeDigits, wholeDigits]
    cases hc : digit? c with
    | none => rfl
    | some d =>
      by_cases hfits : n * 10 + d ≤ maxSignificand
      · simp only [hfits, if_true, ih]
      · have hlength := (dropDigits_suffix (c :: cs)).length_le
        simp only [hfits, if_false]
        rw [← List.cons_append, dropDigits_append hrest, List.length_append, List.length_append,
          Nat.add_sub_add_right]

theorem fractionDigits_append {rest : List Char} (hrest : Delimited rest) (n taken : Nat)
    (cs : List Char) :
    fractionDigits n taken (cs ++ rest) =
      ((fractionDigits n taken cs).1, (fractionDigits n taken cs).2.1,
        (fractionDigits n taken cs).2.2 ++ rest) := by
  induction cs generalizing n taken with
  | nil =>
    cases rest with
    | nil => rfl
    | cons c cs => simp [fractionDigits, (digit?_of_delimited hrest).1]
  | cons c cs ih =>
    rw [List.cons_append, fractionDigits, fractionDigits]
    cases hc : digit? c with
    | none => rfl
    | some d =>
      by_cases hfits : n * 10 + d ≤ maxSignificand
      · simp only [hfits, if_true, ih]
      · simp only [hfits, if_false]
        rw [← List.cons_append, dropDigits_append hrest]

theorem exponentDigits_append {rest : List Char} (hrest : Delimited rest) (e : Nat)
    (cs : List Char) :
    exponentDigits e (cs ++ rest) =
      ((exponentDigits e cs).1, (exponentDigits e cs).2 ++ rest) := by
  induction cs generalizing e with
  | nil =>
    cases rest with
    | nil => rfl
    | cons c cs => simp [exponentDigits, (digit?_of_delimited hrest).1]
  | cons c cs ih =>
    rw [List.cons_append, exponentDigits, exponentDigits]
    cases hc : digit? c with
    | none => rfl
    | some d =>
      by_cases hfits : e * 10 + d ≤ maxExponent
      · simp only [hfits, if_true, ih]
      · simp only [hfits, if_false, dropDigits_append hrest]

/-- The digits of an exponent behind its sign. -/
def exponentTail (negative : Bool) (significand : Nat) (start : Int) (down : Bool) :
    Step Number
  | [] => .error .unfinished
  | c :: rest =>
    match digit? c with
    | none => .error .malformed
    | some d =>
      match exponentDigits d rest with
      | (some e, rest) =>
        match floatOf negative significand
            (clampExponent (if down then start - e else start + e)) with
        | .ok x => .ok (x, rest)
        | .error f => .error f
      | (none, rest) =>
        if significand ≠ 0 && !down then .error .malformed
        else .ok (.float (signed negative 0.0), rest)

/-- A sign, if there is one, and the characters behind it. -/
def exponentSign : List Char → Bool × List Char
  | '+' :: cs => (false, cs)
  | '-' :: cs => (true, cs)
  | cs => (false, cs)

theorem exponentPart_eq (negative : Bool) (significand : Nat) (start : Int) (cs : List Char) :
    exponentPart negative significand start cs =
      exponentTail negative significand start (exponentSign cs).1 (exponentSign cs).2 :=
  rfl

theorem exponentSign_append {cs : List Char} (hcs : cs ≠ []) (rest : List Char) :
    exponentSign (cs ++ rest) = ((exponentSign cs).1, (exponentSign cs).2 ++ rest) := by
  cases cs with
  | nil => exact absurd rfl hcs
  | cons c cs =>
    rw [List.cons_append]
    unfold exponentSign
    split <;> simp_all

theorem exponentTail_local (negative : Bool) (significand : Nat) (start : Int) (down : Bool) :
    Local (exponentTail negative significand start down) := by
  intro cs a r h rest hrest
  cases cs with
  | nil => cases h
  | cons c cs =>
    rw [List.cons_append]
    simp only [exponentTail] at h ⊢
    cases hc : digit? c with
    | none => simp [hc] at h
    | some d =>
      simp only [hc, exponentDigits_append hrest] at h ⊢
      generalize exponentDigits d cs = read at h ⊢
      obtain ⟨e, more⟩ := read
      cases e with
      | none =>
        simp only at h ⊢
        split at h
        · cases h
        · simp_all
      | some e =>
        simp only at h ⊢
        split at h
        · simp_all
        · cases h

theorem exponentPart_local (negative : Bool) (significand : Nat) (start : Int) :
    Local (exponentPart negative significand start) := by
  intro cs a r h rest hrest
  have hcs : cs ≠ [] := by
    rintro rfl
    cases h
  rw [exponentPart_eq] at h ⊢
  rw [exponentSign_append hcs]
  exact exponentTail_local negative significand start _ h hrest

/-- The characters do not go on with an exponent. -/
def NoExponent (cs : List Char) : Prop := ∀ c ∈ cs.head?, c ≠ 'e' ∧ c ≠ 'E'

theorem noExponent_of_delimited {rest : List Char} (hrest : Delimited rest) : NoExponent rest := by
  intro c hc
  obtain ⟨cs, rfl⟩ := List.head?_eq_some_iff.mp hc
  exact (digit?_of_delimited hrest).2.2

theorem NoExponent.append {cs rest : List Char} (hcs : NoExponent cs) (hrest : Delimited rest) :
    NoExponent (cs ++ rest) := by
  cases cs with
  | nil => exact noExponent_of_delimited hrest
  | cons c cs => simpa [NoExponent] using hcs

theorem exponent_or (cs : List Char) :
    (∃ rest, cs = 'e' :: rest ∨ cs = 'E' :: rest) ∨ NoExponent cs := by
  cases cs with
  | nil => exact .inr (by simp [NoExponent])
  | cons c cs =>
    by_cases he : c = 'e'
    · exact .inl ⟨cs, .inl (by rw [he])⟩
    · by_cases hE : c = 'E'
      · exact .inl ⟨cs, .inr (by rw [hE])⟩
      · exact .inr (by simp [NoExponent, he, hE])

theorem floatTail_of_noExponent {cs : List Char} (hcs : NoExponent cs) (negative : Bool)
    (significand : Nat) (e : Int) :
    floatTail negative significand e cs =
      (floatOf negative significand e).map fun x => (x, cs) := by
  unfold floatTail
  split
  · exact absurd rfl (hcs 'e' rfl).1
  · exact absurd rfl (hcs 'E' rfl).2
  · cases floatOf negative significand e <;> rfl

theorem floatTail_local (negative : Bool) (significand : Nat) (e : Int) :
    Local (floatTail negative significand e) := by
  intro cs a r h rest hrest
  rcases exponent_or cs with ⟨more, rfl | rfl⟩ | hcs
  · exact exponentPart_local negative significand e h hrest
  · exact exponentPart_local negative significand e h hrest
  · rw [floatTail_of_noExponent hcs] at h
    rw [floatTail_of_noExponent (hcs.append hrest)]
    cases hfloat : floatOf negative significand e with
    | error f => simp [hfloat, Except.map] at h
    | ok x =>
      simp only [hfloat, Except.map, Except.ok.injEq, Prod.mk.injEq] at h ⊢
      simp [h]

theorem fractionPart_local (negative : Bool) (significand dropped : Nat) :
    Local (fractionPart negative significand dropped) := by
  intro cs a r h rest hrest
  cases cs with
  | nil => cases h
  | cons c cs =>
    cases hdigit : startsWithDigit (c :: cs) with
    | false => simp [fractionPart, hdigit] at h
    | true =>
      have hdigit' : startsWithDigit (c :: cs ++ rest) = true := hdigit
      have happend := fractionDigits_append hrest significand 0 (c :: cs)
      rw [List.cons_append] at hdigit' happend ⊢
      simp only [fractionPart, hdigit, hdigit', if_true, happend] at h ⊢
      exact floatTail_local _ _ _ h hrest

theorem numberTail_of_noExponent {cs : List Char} (hcs : NoExponent cs)
    (hpoint : cs.head? ≠ some '.') (negative : Bool) (significand dropped : Nat) :
    numberTail negative significand dropped cs =
      if dropped = 0 then .ok (integer negative significand, cs)
      else floatTail negative significand dropped cs := by
  unfold numberTail
  split
  · exact absurd rfl hpoint
  · split
    · exact absurd rfl (hcs 'e' rfl).1
    · exact absurd rfl (hcs 'E' rfl).2
    · rfl

theorem head?_append_ne_point {cs rest : List Char} (hcs : cs.head? ≠ some '.')
    (hrest : Delimited rest) : (cs ++ rest).head? ≠ some '.' := by
  cases cs with
  | cons c cs => simpa using hcs
  | nil =>
    intro hpoint
    obtain ⟨more, rfl⟩ := List.head?_eq_some_iff.mp hpoint
    exact (digit?_of_delimited hrest).2.1 rfl

theorem numberTail_local (negative : Bool) (significand dropped : Nat) :
    Local (numberTail negative significand dropped) := by
  intro cs a r h rest hrest
  by_cases hpoint : cs.head? = some '.'
  · obtain ⟨more, rfl⟩ := List.head?_eq_some_iff.mp hpoint
    exact fractionPart_local negative significand dropped h hrest
  · rcases exponent_or cs with ⟨more, rfl | rfl⟩ | hcs
    · exact exponentPart_local negative significand dropped h hrest
    · exact exponentPart_local negative significand dropped h hrest
    · rw [numberTail_of_noExponent hcs hpoint] at h
      rw [numberTail_of_noExponent (hcs.append hrest) (head?_append_ne_point hpoint hrest)]
      split at h
      · simp_all
      · simp only [*, if_false]
        exact floatTail_local negative significand dropped h hrest

theorem number_local (negative : Bool) : Local (number negative) := by
  intro cs a r h rest hrest
  cases cs with
  | nil => cases h
  | cons c cs =>
    by_cases hzero : c = '0'
    · subst hzero
      cases hdigit : startsWithDigit cs with
      | true => simp [number, hdigit] at h
      | false =>
        have hdigit' : startsWithDigit (cs ++ rest) = false := by
          cases cs with
          | nil => exact startsWithDigit_of_delimited hrest
          | cons c cs => exact hdigit
        rw [List.cons_append]
        simp only [number, hdigit, hdigit', Bool.false_eq_true, if_false] at h ⊢
        exact numberTail_local _ _ _ h hrest
    · cases hc : digit? c with
      | none => simp [number, hc] at h
      | some d =>
        rw [List.cons_append]
        simp only [number, hc, wholeDigits_append hrest] at h ⊢
        exact numberTail_local _ _ _ h hrest

/-! ## Texts of numbers -/

/-- A digit starts a number, and no value of another kind. -/
theorem ne_of_digit? {c : Char} {d : Nat} (h : digit? c = some d) :
    c ≠ 'n' ∧ c ≠ 't' ∧ c ≠ 'f' ∧ c ≠ '"' ∧ c ≠ '[' ∧ c ≠ '\x7b' := by
  refine ⟨?_, ?_, ?_, ?_, ?_, ?_⟩ <;> rintro rfl <;> simp [digit?_eq] at h

/-- The characters are the text of a number, which is read to its end. -/
inductive NumberText : List Char → Number → Prop
  | unsigned {cs : List Char} {n : Number} (h : number false cs = .ok (n, [])) : NumberText cs n
  | negative {cs : List Char} {n : Number} (h : number true cs = .ok (n, [])) :
    NumberText ('-' :: cs) n

/-- A number without a sign starts with a digit. -/
theorem exists_digit_of_number {negative : Bool} {cs r : List Char} {n : Number}
    (h : number negative cs = .ok (n, r)) : ∃ c more d, cs = c :: more ∧ digit? c = some d := by
  cases cs with
  | nil => cases h
  | cons c cs =>
    refine ⟨c, cs, ?_⟩
    by_cases hzero : c = '0'
    · subst hzero
      exact ⟨0, rfl, by decide⟩
    · cases hc : digit? c with
      | none => simp [number, hc] at h
      | some d => exact ⟨d, rfl, rfl⟩

theorem NumberText.starts {text : List Char} {n : Number} (h : NumberText text n) :
    ∃ c cs, text = c :: cs ∧ (c = '-' ∨ ∃ d, digit? c = some d) := by
  cases h with
  | unsigned h =>
    obtain ⟨c, cs, d, rfl, hd⟩ := exists_digit_of_number h
    exact ⟨c, cs, rfl, .inr ⟨d, hd⟩⟩
  | @negative cs _ h => exact ⟨'-', cs, rfl, .inl rfl⟩

/-- A number is read from its text, wherever it stands. -/
theorem NumberText.anyNumber {text : List Char} {n : Number} (h : NumberText text n)
    {blanks rest : List Char} (hblanks : Blank blanks) (hrest : Delimited rest) :
    anyNumber (blanks ++ (text ++ rest)) = .ok (n, rest) := by
  cases h with
  | unsigned h =>
    have hread := number_local false h hrest
    obtain ⟨c, cs, d, rfl, hd⟩ := exists_digit_of_number h
    obtain ⟨hspace, -, hminus⟩ := of_digit? hd
    unfold Json.anyNumber
    rw [List.cons_append, skipSpace_append_cons hblanks hspace]
    simpa [hd, hminus] using hread
  | @negative cs _ h =>
    have hread := number_local true h hrest
    unfold Json.anyNumber
    rw [List.cons_append, skipSpace_append_cons hblanks (by decide)]
    simpa using hread

/-- The integers that a number of 64 bits holds, with a sign or without one. -/
def Whole64 (i : Int) : Prop := -9223372036854775808 ≤ i ∧ i ≤ maxSignificand

theorem numberText_natChars {n : Nat} (hn : n ≤ maxSignificand) :
    NumberText (Decimal.natChars n) (.int n) := by
  have hread := number_natChars hn false delimited_nil
  rw [List.append_nil] at hread
  exact .unsigned hread

theorem numberText_intChars {i : Int} (hi : Whole64 i) :
    NumberText (Decimal.intChars i) (.int i) := by
  obtain ⟨hlow, hhigh⟩ := hi
  cases i with
  | ofNat n => exact numberText_natChars (Int.ofNat_le.mp hhigh)
  | negSucc n =>
    have hn : n + 1 ≤ 9223372036854775808 := by omega
    have hread := number_natChars (n := n + 1) (by simp only [maxSignificand]; omega) true
      delimited_nil
    have hvalue : integer true (n + 1) = .int (.negSucc n) := by
      have hbound : ¬ 9223372036854775808 < n + 1 := by omega
      simp only [integer, hbound]
      rfl
    rw [List.append_nil, hvalue] at hread
    exact .negative hread

/-- The written form of a float is the text of this float. -/
def ReadsBack (x : Float) : Prop := NumberText (numberChars x) (.float x)

end LintRelay.Json
