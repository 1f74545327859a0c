import LintRelay.Json.Lexeme
import LintRelay.Json.Writer
import Mathlib.Tactic.SplitIfs
set_option autoImplicit false

/-!
# JSON: lexemes read back

A step reader consumes as much as it can, so what it does with a lexeme depends on what
comes behind it.  The readers are given a lexeme followed by a rest that cannot continue it
(`Delimited`), and return the lexeme's value and that rest.

Only characters from `U+0020` on are written, whatever the value is.
-/

namespace LintRelay.Json

/-! ## Blanks and delimiters -/

/-- The characters may stand between lexemes. -/
def Blank (cs : List Char) : Prop := ∀ c ∈ cs, isSpace c = true

/-- No lexeme goes on with these characters. -/
def Delimited (cs : List Char) : Prop :=
  ∀ c ∈ cs.head?, isSpace c = true ∨ c = ',' ∨ c = ']' ∨ c = '\x7d'

theorem skipSpace_append {blanks : List Char} (hblanks : Blank blanks) (cs : List Char) :
    skipSpace (blanks ++ cs) = skipSpace cs :=
  List.dropWhile_append_of_pos hblanks

theorem skipSpace_cons {c : Char} (hc : isSpace c = false) (cs : List Char) :
    skipSpace (c :: cs) = c :: cs := by
  simp [skipSpace, hc]

/-- Blanks in front of a lexeme are skipped, and no more. -/
theorem skipSpace_append_cons {blanks : List Char} (hblanks : Blank blanks) {c : Char}
    (hc : isSpace c = false) (cs : List Char) : skipSpace (blanks ++ c :: cs) = c :: cs := by
  rw [skipSpace_append hblanks, skipSpace_cons hc]

theorem delimited_nil : Delimited [] := by
  simp [Delimited]

theorem delimited_cons {c : Char} (h : isSpace c = true ∨ c = ',' ∨ c = ']' ∨ c = '\x7d')
    (cs : List Char) : Delimited (c :: cs) := by
  simpa [Delimited] using h

theorem delimited_append {blanks cs : List Char} (hblanks : Blank blanks)
    (hcs : Delimited cs) : Delimited (blanks ++ cs) := by
  cases blanks with
  | nil => exact hcs
  | cons b blanks => exact delimited_cons (.inl (hblanks b List.mem_cons_self)) _

/-! ## Natural numbers -/

theorem digit?_eq (c : Char) :
    digit? c = if '0' ≤ c && c ≤ '9' then some (c.toNat - 48) else none := by
  simp only [digit?, Text.digit?, Bool.and_eq_true, decide_eq_true_eq, Char.le_def,
    UInt32.le_iff_toNat_le, Char.toNat_val, Char.reduceToNat]
  split_ifs with hdigit hlower hupper
  · have hsmall : c.toNat - 48 < 10 := by omega
    simp [hsmall]
  · have hlarge : 10 ≤ c.toNat - 87 := by omega
    simp [hlarge]
  · have hlarge : 10 ≤ c.toNat - 55 := by omega
    simp [hlarge]
  · rfl

theorem digit?_digitChar : ∀ d < 10, digit? (Nat.digitChar d) = some d := by
  decide

theorem digitChar_ne_zero : ∀ d < 10, d ≠ 0 → Nat.digitChar d ≠ '0' := by
  decide

/-- The digits of a number start with a digit, and not with a zero unless the number is
zero. -/
theorem natChars_eq_cons (n : Nat) :
    ∃ c cs d, Decimal.natChars n = c :: cs ∧ digit? c = some d ∧ d < 10 ∧ (n ≠ 0 → c ≠ '0') := by
  unfold Decimal.natChars
  induction n using Nat.strongRecOn with
  | ind n ih =>
    by_cases hsmall : n < 10
    · rw [Nat.toDigits_of_lt_base hsmall]
      exact ⟨_, [], n, rfl, digit?_digitChar n hsmall, hsmall, digitChar_ne_zero n hsmall⟩
    · -- The first digit is that of the number without its last digit.
      obtain ⟨c, cs, d, hdigits, hd, hlt, hzero⟩ := ih (n / 10) (by omega)
      rw [Nat.toDigits_of_base_le (by decide) (by omega), hdigits]
      exact ⟨c, _, d, rfl, hd, hlt, fun _ => hzero (by omega)⟩

theorem wholeDigits_cons {c : Char} {d significand : Nat} (hc : digit? c = some d)
    (hfits : significand * 10 + d ≤ maxSignificand) (cs : List Char) :
    wholeDigits significand (c :: cs) = wholeDigits (significand * 10 + d) cs := by
  rw [wholeDigits]
  simp only [hc, hfits, if_true]

/-- The digits of a number that fits are gathered to this number. -/
theorem wholeDigits_natChars {n : Nat} (hn : n ≤ maxSignificand) (rest : List Char) :
    wholeDigits 0 (Decimal.natChars n ++ rest) = wholeDigits n rest := by
  unfold Decimal.natChars
  induction n using Nat.strongRecOn generalizing rest with
  | ind n ih =>
    by_cases hsmall : n < 10
    · rw [Nat.toDigits_of_lt_base hsmall, List.singleton_append,
        wholeDigits_cons (digit?_digitChar n hsmall) (by omega)]
      simp
    · have hlast : n % 10 < 10 := Nat.mod_lt n (by decide)
      rw [Nat.toDigits_of_base_le (by decide) (by omega), List.append_assoc,
        ih (n / 10) (by omega) (by omega), List.singleton_append,
        wholeDigits_cons (digit?_digitChar _ hlast) (by omega)]
      congr 1
      omega

theorem digit?_of_delimited {c : Char} {cs : List Char} (h : Delimited (c :: cs)) :
    digit? c = none ∧ c ≠ '.' ∧ c ≠ 'e' ∧ c ≠ 'E' := by
  have hc := h c rfl
  simp only [isSpace, Bool.or_eq_true, decide_eq_true_eq] at hc
  rcases hc with (((rfl | rfl) | rfl) | rfl) | rfl | rfl | rfl <;> decide

theorem wholeDigits_of_delimited {rest : List Char} (hrest : Delimited rest) (n : Nat) :
    wholeDigits n rest = (n, 0, rest) := by
  cases rest with
  | nil => rfl
  | cons c cs =>
    rw [wholeDigits]
    simp only [(digit?_of_delimited hrest).1]

theorem numberTail_of_delimited {rest : List Char} (hrest : Delimited rest) (negative : Bool)
    (n : Nat) : numberTail negative n 0 rest = .ok (integer negative n, rest) := by
  cases rest with
  | nil => rfl
  | cons c cs =>
    obtain ⟨-, hpoint, he, hE⟩ := digit?_of_delimited hrest
    unfold numberTail
    simp [hpoint, he, hE]

/-- A number of 64 bits is read from its digits. -/
theorem number_natChars {n : Nat} (hn : n ≤ maxSignificand) (negative : Bool) {rest : List Char}
    (hrest : Delimited rest) :
    number negative (Decimal.natChars n ++ rest) = .ok (integer negative n, rest) := by
  by_cases hzero : n = 0
  · subst hzero
    have hdigit : startsWithDigit rest = false := by
      cases rest with
      | nil => rfl
      | cons c cs => simp [startsWithDigit, (digit?_of_delimited hrest).1]
    have hchars : Decimal.natChars 0 = ['0'] := by decide
    rw [hchars, List.singleton_append, number]
    simp only [hdigit, Bool.false_eq_true, if_false]
    exact numberTail_of_delimited hrest negative 0
  · obtain ⟨c, cs, d, hdigits, hd, hlt, hfirst⟩ := natChars_eq_cons n
    have hwhole : wholeDigits d (cs ++ rest) = (n, 0, rest) := by
      calc wholeDigits d (cs ++ rest)
          = wholeDigits 0 (c :: (cs ++ rest)) := by
            rw [wholeDigits_cons hd (by simp only [maxSignificand]; omega)]
            simp
        _ = wholeDigits n rest := by rw [← List.cons_append, ← hdigits, wholeDigits_natChars hn]
        _ = (n, 0, rest) := wholeDigits_of_delimited hrest n
    have hc : c ≠ '0' := hfirst hzero
    rw [hdigits, List.cons_append]
    simp only [number, hd, hwhole]
    exact numberTail_of_delimited hrest negative n

/-! ## Strings -/

theorem digit?_hexDigit : ∀ n < 32,
    Text.digit? 16 (hexDigit (n / 16)) = some (n / 16) ∧
      Text.digit? 16 (hexDigit n) = some (n % 16) := by
  decide

/-! ## Which characters are written -/

/-- The characters are no control characters. -/
def Printable (cs : List Char) : Prop := ∀ c ∈ cs, 0x20 ≤ c.toNat

@[simp] theorem printable_nil : Printable [] := by
  simp [Printable]

@[simp] theorem printable_cons {c : Char} {cs : List Char} :
    Printable (c :: cs) ↔ 0x20 ≤ c.toNat ∧ Printable cs := by
  simp [Printable]

@[simp] theorem printable_append {cs ds : List Char} :
    Printable (cs ++ ds) ↔ Printable cs ∧ Printable ds := by
  simp only [Printable, List.mem_append, or_imp, forall_and]

theorem Printable.of_subset {cs ds : List Char} (h : Printable ds) (hsubset : cs ⊆ ds) :
    Printable cs := fun c hc => h c (hsubset hc)

theorem printable_natChars (n : Nat) : Printable (Decimal.natChars n) := by
  intro c hc
  have hdigit : c.isDigit = true := Nat.isDigit_of_mem_toDigits (by decide) (by decide) hc
  have hrange : 48 ≤ c.toNat ∧ c.toNat ≤ 57 := by
    simpa [Char.isDigit, Char.le_def, UInt32.le_iff_toNat_le] using hdigit
  omega

theorem printable_intChars (i : Int) : Printable (Decimal.intChars i) := by
  cases i with
  | ofNat n => exact printable_natChars n
  | negSucc n => simp [Decimal.intChars, printable_natChars]

theorem printable_positional {digits : List Char} (h : Printable digits) (first : Int) :
    Printable (Decimal.positional digits first) := by
  have hzeros (n : Nat) : Printable (List.replicate n '0') := by
    intro c hc
    rw [List.eq_of_mem_replicate hc]
    decide
  unfold Decimal.positional
  split
  · simp [hzeros, h]
  · have hpadded (n : Nat) : Printable (digits ++ List.replicate n '0') := by simp [hzeros, h]
    simp only [printable_append, printable_cons]
    refine ⟨(hpadded _).of_subset (List.take_subset _ _), by decide, ?_⟩
    split
    · simp
    · exact (hpadded _).of_subset (List.drop_subset _ _)

theorem printable_scientific {digits : List Char} (h : Printable digits) (first : Int) :
    Printable (Decimal.scientific digits first) := by
  unfold Decimal.scientific
  rcases digits with _ | ⟨d, _ | ⟨d', more⟩⟩ <;> split <;> simp_all [printable_natChars]

theorem printable_numberChars (x : Float) : Printable (numberChars x) := by
  unfold numberChars
  split
  · unfold Decimal.floatChars Decimal.Digits.chars
    simp only [printable_append]
    constructor
    · split <;> simp
    · split
      · simp
      · split
        · exact printable_positional (printable_natChars _) _
        · exact printable_scientific (printable_natChars _) _
  · simp

theorem printable_escapeChar (c : Char) : Printable (escapeChar c) := by
  have hhex : ∀ n < 16, 0x20 ≤ ((Nat.toDigits 16 n).headD '0').toNat := by decide
  have hdigit (n : Nat) : 0x20 ≤ (hexDigit n).toNat := hhex _ (Nat.mod_lt n (by decide))
  unfold escapeChar
  split_ifs <;> simp_all

theorem printable_stringChars (s : String) : Printable (stringChars s) := by
  have hchars : Printable (s.toList.flatMap escapeChar) := by
    intro d hd
    obtain ⟨c, -, hdc⟩ := List.mem_flatMap.mp hd
    exact printable_escapeChar c d hdc
  simp [stringChars, hchars]

mutual

/-- The compact form of a value is written without control characters; in particular, it is
one line. -/
theorem Value.printable : (v : Value) → Printable v.chars
  | .null => by simp [Value.chars]
  | .bool b => by cases b <;> simp [Value.chars]
  | .int i => by simpa [Value.chars] using printable_intChars i
  | .float x => by simpa [Value.chars] using printable_numberChars x
  | .string s => by simpa [Value.chars] using printable_stringChars s
  | .array items => by simpa [Value.chars] using printable_itemsChars items
  | .object members => by simpa [Value.chars] using printable_membersChars members

theorem printable_itemsChars : (items : List Value) → Printable (itemsChars items)
  | [] => by simp [itemsChars]
  | [v] => by simpa [itemsChars] using v.printable
  | v :: w :: rest => by
    have hv := v.printable
    have hrest := printable_itemsChars (w :: rest)
    simp [itemsChars, hv, hrest]

theorem printable_membersChars : (members : List (String × Value)) →
    Printable (membersChars members)
  | [] => by simp [membersChars]
  | [(n, v)] => by simpa [membersChars, printable_stringChars] using v.printable
  | (n, v) :: m :: rest => by
    have hv := v.printable
    have hrest := printable_membersChars (m :: rest)
    simp [membersChars, printable_stringChars, hv, hrest]

end

end LintRelay.Json
