import LintRelay.Proofs.Json.Number
set_option autoImplicit false

/-!
# JSON: the grammar

Which texts are JSON, said without the readers: strings in any spelling, numerals of any
size, and containers with blanks wherever they may stand.  The members of an object are
listed by their names and the texts of their values, in text order.

A value that nobody asked for is skipped, whatever it is and however deep it is nested.
-/

namespace LintRelay.Json

/-! ## Strings -/

/-- The letters behind a backslash, and the characters that they stand for. -/
def escapes : List (Char × Char) :=
  [('"', '"'), ('\\', '\\'), ('/', '/'), ('b', '\x08'), ('f', '\x0c'), ('n', '\n'),
   ('r', '\r'), ('t', '\t')]

/-- Four hexadecimal digits and their value. -/
inductive CodeUnit : List Char → Nat → Prop
  | mk {a b c d : Char} {w x y z : Nat} (ha : Text.digit? 16 a = some w)
      (hb : Text.digit? 16 b = some x) (hc : Text.digit? 16 c = some y)
      (hd : Text.digit? 16 d = some z) :
    CodeUnit [a, b, c, d] (((w * 16 + x) * 16 + y) * 16 + z)

/-- What stands between the quotes of a string, and the characters that it spells. -/
inductive Spells : List Char → List Char → Prop
  | nil : Spells [] []
  | plain {c : Char} {body cs : List Char} (hquote : c ≠ '"') (hbackslash : c ≠ '\\')
      (hcontrol : 0x20 ≤ c.toNat) (h : Spells body cs) : Spells (c :: body) (c :: cs)
  | escape {letter c : Char} {body cs : List Char} (hletter : (letter, c) ∈ escapes)
      (h : Spells body cs) : Spells ('\\' :: letter :: body) (c :: cs)
  | unit {code body cs : List Char} {value : Nat} (hcode : CodeUnit code value)
      (hvalue : value < 0xD800 ∨ 0xDFFF < value) (h : Spells body cs) :
    Spells ('\\' :: 'u' :: (code ++ body)) (Char.ofNat value :: cs)
  | pair {lead trail body cs : List Char} {high low : Nat} (hlead : CodeUnit lead high)
      (hhigh : 0xD800 ≤ high ∧ high ≤ 0xDBFF) (htrail : CodeUnit trail low)
      (hlow : 0xDC00 ≤ low ∧ low ≤ 0xDFFF) (h : Spells body cs) :
    Spells ('\\' :: 'u' :: (lead ++ '\\' :: 'u' :: (trail ++ body)))
      (Char.ofNat (0x10000 + (high - 0xD800) * 0x400 + (low - 0xDC00)) :: cs)

theorem escaped?_of_mem {letter c : Char} (h : (letter, c) ∈ escapes) :
    escaped? letter = some c ∧ letter ≠ 'u' := by
  simp only [escapes, List.mem_cons, Prod.mk.injEq, List.not_mem_nil, or_false] at h
  rcases h with ⟨rfl, rfl⟩ | ⟨rfl, rfl⟩ | ⟨rfl, rfl⟩ | ⟨rfl, rfl⟩ | ⟨rfl, rfl⟩ | ⟨rfl, rfl⟩ |
    ⟨rfl, rfl⟩ | ⟨rfl, rfl⟩ <;> exact ⟨rfl, by decide⟩

section Units

variable {strict : Bool} {code : List Char} {value : Nat} {half : Option Nat} {mode : Within}

/-- A code unit that stands for a character. -/
theorem stringLoop_character (hcode : CodeUnit code value) {c : Char}
    (hcomplete : completeUnit strict value half = .ok (some c, mode)) (read more : List Char) :
    stringLoop strict (.unit 4 0 half) read (code ++ more) =
      stringLoop strict mode (c :: read) more := by
  obtain ⟨ha, hb, hc, hd⟩ := hcode
  simp [stringLoop, ha, hb, hc, hd, hcomplete]

/-- A code unit that stands for no character of its own. -/
theorem stringLoop_silent (hcode : CodeUnit code value)
    (hcomplete : completeUnit strict value half = .ok (none, mode)) (read more : List Char) :
    stringLoop strict (.unit 4 0 half) read (code ++ more) = stringLoop strict mode read more := by
  obtain ⟨ha, hb, hc, hd⟩ := hcode
  simp [stringLoop, ha, hb, hc, hd, hcomplete]

end Units

theorem stringLoop_spells {body cs : List Char} (h : Spells body cs) (read rest : List Char) :
    stringLoop true .plain read (body ++ '"' :: rest) = .ok (read.reverse ++ cs, rest) := by
  induction h generalizing read with
  | nil => simp [stringLoop]
  | @plain c body cs hquote hbackslash hcontrol _ ih =>
    have hplain : ¬ c.toNat < 0x20 := by omega
    simp [stringLoop, hquote, hbackslash, hplain, ih]
  | escape hletter _ ih =>
    obtain ⟨hescaped, hu⟩ := escaped?_of_mem hletter
    simp [stringLoop, hu, hescaped, ih]
  | @unit code body cs value hcode hvalue _ ih =>
    have hcomplete : completeUnit true value none = .ok (some (Char.ofNat value), .plain) := by
      have htrail : ¬ (0xDC00 ≤ value ∧ value ≤ 0xDFFF) := by omega
      have hlead : ¬ (0xD800 ≤ value ∧ value ≤ 0xDBFF) := by omega
      simp [completeUnit, htrail, hlead]
    simp only [List.cons_append, List.append_assoc, stringLoop]
    simp [stringLoop_character hcode hcomplete, ih]
  | @pair lead trail body cs high low hlead hhigh htrail hlow _ ih =>
    have hfirst : completeUnit true high none = .ok (none, .pairEscape high) := by
      have hnot : ¬ (0xDC00 ≤ high ∧ high ≤ 0xDFFF) := by omega
      simp [completeUnit, hnot, hhigh]
    have hsecond : completeUnit true low (some high) = .ok (some (Char.ofNat
        (0x10000 + (high - 0xD800) * 0x400 + (low - 0xDC00))), .plain) := by
      simp [completeUnit, hlow]
    simp only [List.cons_append, List.append_assoc, stringLoop]
    simp [stringLoop_silent hlead hfirst, stringLoop, stringLoop_character htrail hsecond, ih]

/-- A string is read from any of its spellings. -/
theorem stringTail_spells {body : List Char} {s : String} (h : Spells body s.toList)
    (rest : List Char) : stringTail (body ++ '"' :: rest) = .ok (s, rest) := by
  simp [stringTail, stringLoop_spells h]

/-- A string is skipped in any of its spellings. -/
theorem skipString_spells {body cs : List Char} (h : Spells body cs) (rest : List Char) :
    skipString (body ++ '"' :: rest) = .ok ((), rest) := by
  have hloose : ∀ value, completeUnit false value none = .ok (none, .plain) := fun _ => rfl
  have hloop : ∀ read, ∃ read', stringLoop false .plain read (body ++ '"' :: rest) =
      .ok (read', rest) := by
    induction h with
    | nil => exact fun read => ⟨read.reverse, by simp [stringLoop]⟩
    | @plain c body cs hquote hbackslash hcontrol _ ih =>
      intro read
      have hplain : ¬ c.toNat < 0x20 := by omega
      simpa [stringLoop, hquote, hbackslash, hplain] using ih (c :: read)
    | @escape letter c body cs hletter _ ih =>
      intro read
      obtain ⟨hescaped, hu⟩ := escaped?_of_mem hletter
      simpa [stringLoop, hu, hescaped] using ih (c :: read)
    | unit hcode _ _ ih =>
      intro read
      simpa [stringLoop, stringLoop_silent hcode (hloose _)] using ih read
    | pair hlead _ htrail _ _ ih =>
      intro read
      simpa [stringLoop, stringLoop_silent hlead (hloose _), stringLoop_silent htrail (hloose _)]
        using ih read
  obtain ⟨read', hread⟩ := hloop []
  simp [skipString, hread]

/-- A string between its quotes, in some spelling. -/
def StringText (s : String) (text : List Char) : Prop :=
  ∃ body, Spells body s.toList ∧ text = '"' :: (body ++ ['"'])

/-! ## Numerals -/

/-- One digit or more. -/
def Digits (cs : List Char) : Prop := cs ≠ [] ∧ ∀ c ∈ cs, c.isDigit = true

/-- What stands in front of the point: no zero comes before another digit. -/
inductive WholeText : List Char → Prop
  | zero : WholeText ['0']
  | digits {c : Char} {cs : List Char} (hc : c ≠ '0') (h : Digits (c :: cs)) : WholeText (c :: cs)

/-- The point and the digits behind it, if there are any. -/
inductive FractionText : List Char → Prop
  | absent : FractionText []
  | digits {cs : List Char} (h : Digits cs) : FractionText ('.' :: cs)

/-- The exponent, if there is one. -/
inductive ExponentText : List Char → Prop
  | absent : ExponentText []
  | digits {letter : Char} {sign cs : List Char} (hletter : letter = 'e' ∨ letter = 'E')
      (hsign : sign = [] ∨ sign = ['+'] ∨ sign = ['-']) (h : Digits cs) :
    ExponentText (letter :: (sign ++ cs))

/-- A number without its sign. -/
inductive Numeral : List Char → Prop
  | mk {whole fraction exponent : List Char} (hwhole : WholeText whole)
      (hfraction : FractionText fraction) (hexponent : ExponentText exponent) :
    Numeral (whole ++ (fraction ++ exponent))

theorem isSome_digit? (c : Char) : (digit? c).isSome = c.isDigit := by
  simp only [digit?_eq, Char.isDigit, Char.le_def]
  split <;> simp_all

theorem Digits.starts {cs : List Char} (h : Digits cs) (rest : List Char) :
    startsWithDigit (cs ++ rest) = true := by
  cases cs with
  | nil => exact absurd rfl h.1
  | cons c cs =>
    rw [List.cons_append, startsWithDigit, isSome_digit?]
    exact h.2 c List.mem_cons_self

/-- Digits are dropped up to what is no digit. -/
theorem dropDigits_digits {cs rest : List Char} (hcs : ∀ c ∈ cs, c.isDigit = true)
    (hrest : startsWithDigit rest = false) : dropDigits (cs ++ rest) = rest := by
  simp only [dropDigits, isSome_digit?]
  rw [List.dropWhile_append_of_pos hcs]
  cases rest with
  | nil => rfl
  | cons c rest =>
    rw [startsWithDigit, isSome_digit?] at hrest
    simp [hrest]

/-! ### Skipping a numeral -/

/-- The characters behind a sign, if there is one. -/
def skipSign : List Char → List Char
  | '+' :: cs => cs
  | '-' :: cs => cs
  | cs => cs

/-- Digits that are only checked for being there. -/
def skipDigits : Step Unit := fun cs =>
  if startsWithDigit cs then .ok ((), dropDigits cs) else .error .malformed

/-- An exponent that is only checked for its form, if there is one. -/
def skipExponent : Step Unit := fun cs =>
  match cs with
  | 'e' :: cs => skipDigits (skipSign cs)
  | 'E' :: cs => skipDigits (skipSign cs)
  | cs => .ok ((), cs)

/-- What follows the digits in front of the point, only checked for its form. -/
def skipFraction : Step Unit := fun cs =>
  match cs with
  | '.' :: cs => if startsWithDigit cs then skipExponent (dropDigits cs) else .error .malformed
  | cs => skipExponent cs

theorem skipNumber_zero {cs : List Char} (hcs : startsWithDigit cs = false) :
    skipNumber ('0' :: cs) = skipFraction cs := by
  unfold skipNumber
  simp only [hcs, Bool.false_eq_true, if_false]
  rfl

theorem skipNumber_digits {cs : List Char} (hcs : startsWithDigit cs = true)
    (hzero : cs.head? ≠ some '0') : skipNumber cs = skipFraction (dropDigits cs) := by
  unfold skipNumber
  split
  · exact absurd rfl hzero
  · rw [if_pos hcs]
    rfl

theorem skipExponent_of_delimited {rest : List Char} (hrest : Delimited rest) :
    skipExponent rest = .ok ((), rest) := by
  unfold skipExponent
  split
  · exact absurd rfl (digit?_of_delimited hrest).2.2.1
  · exact absurd rfl (digit?_of_delimited hrest).2.2.2
  · rfl

theorem skipDigits_append {cs rest : List Char} (hcs : Digits cs) (hrest : Delimited rest) :
    skipDigits (cs ++ rest) = .ok ((), rest) := by
  simp [skipDigits, hcs.starts rest, dropDigits_digits hcs.2 (startsWithDigit_of_delimited hrest)]

theorem skipSign_append {sign cs : List Char} (hsign : sign = [] ∨ sign = ['+'] ∨ sign = ['-'])
    (hcs : startsWithDigit cs = true) : skipSign (sign ++ cs) = cs := by
  rcases hsign with rfl | rfl | rfl
  · rw [List.nil_append]
    unfold skipSign
    split
    · simp [startsWithDigit, digit?_eq] at hcs
    · simp [startsWithDigit, digit?_eq] at hcs
    · rfl
  · rfl
  · rfl

theorem ExponentText.skip {text rest : List Char} (h : ExponentText text)
    (hrest : Delimited rest) : skipExponent (text ++ rest) = .ok ((), rest) := by
  cases h with
  | absent => exact skipExponent_of_delimited hrest
  | @digits letter sign cs hletter hsign hcs =>
    have hdigits : skipDigits (skipSign (sign ++ (cs ++ rest))) = .ok ((), rest) := by
      rw [skipSign_append hsign (hcs.starts rest)]
      exact skipDigits_append hcs hrest
    rw [List.cons_append, List.append_assoc]
    rcases hletter with rfl | rfl
    · exact hdigits
    · exact hdigits

theorem ExponentText.startsWithDigit {text rest : List Char} (h : ExponentText text)
    (hrest : Delimited rest) : startsWithDigit (text ++ rest) = false := by
  cases h with
  | absent => exact startsWithDigit_of_delimited hrest
  | digits hletter =>
    rcases hletter with rfl | rfl
    · rfl
    · rfl

theorem FractionText.startsWithDigit {text exponent rest : List Char} (h : FractionText text)
    (hexponent : ExponentText exponent) (hrest : Delimited rest) :
    startsWithDigit (text ++ (exponent ++ rest)) = false := by
  cases h with
  | absent => exact hexponent.startsWithDigit hrest
  | digits h => rfl

theorem FractionText.skip {text exponent rest : List Char} (h : FractionText text)
    (hexponent : ExponentText exponent) (hrest : Delimited rest) :
    skipFraction (text ++ (exponent ++ rest)) = .ok ((), rest) := by
  cases h with
  | absent =>
    have hpoint : (exponent ++ rest).head? ≠ some '.' := by
      cases hexponent with
      | absent =>
        exact head?_append_ne_point (by simp) hrest
      | digits hletter => rcases hletter with rfl | rfl <;> simp
    have hfraction : skipFraction (exponent ++ rest) = skipExponent (exponent ++ rest) := by
      unfold skipFraction
      split
      next hchars => exact absurd (by rw [hchars]; rfl) hpoint
      · rfl
    rw [List.nil_append, hfraction]
    exact hexponent.skip hrest
  | @digits cs hcs =>
    rw [List.cons_append]
    simp only [skipFraction, hcs.starts, if_true,
      dropDigits_digits hcs.2 (hexponent.startsWithDigit hrest)]
    exact hexponent.skip hrest

/-- A numeral is skipped, however large its number is. -/
theorem Numeral.skip {text rest : List Char} (h : Numeral text) (hrest : Delimited rest) :
    skipNumber (text ++ rest) = .ok ((), rest) := by
  obtain @⟨whole, fraction, exponent, hwhole, hfraction, hexponent⟩ := h
  have hend := hfraction.startsWithDigit hexponent hrest
  rw [List.append_assoc, List.append_assoc]
  cases hwhole with
  | zero =>
    rw [List.singleton_append, skipNumber_zero hend]
    exact hfraction.skip hexponent hrest
  | @digits c cs hc hcs =>
    rw [skipNumber_digits (hcs.starts _) (by simpa using hc), dropDigits_digits hcs.2 hend]
    exact hfraction.skip hexponent hrest

theorem Numeral.starts {text : List Char} (h : Numeral text) :
    ∃ c cs, text = c :: cs ∧ c.isDigit = true := by
  obtain ⟨hwhole, -, -⟩ := h
  cases hwhole with
  | zero => exact ⟨'0', _, rfl, by decide⟩
  | @digits c cs hc hcs => exact ⟨c, _, rfl, hcs.2 c List.mem_cons_self⟩

/-! ## Containers -/

/-- Further items of a container, and its closing bracket. -/
inductive Tail {ι : Type} (form : ι → List Char → Prop) (closing : Char) :
    List ι → List Char → Prop
  | close {blanks : List Char} (hblanks : Blank blanks) :
    Tail form closing [] (blanks ++ [closing])
  | next {i : ι} {is : List ι} {blanks gap text more : List Char} (hblanks : Blank blanks)
      (hgap : Blank gap) (hform : form i text) (hmore : Tail form closing is more) :
    Tail form closing (i :: is) (blanks ++ ',' :: (gap ++ (text ++ more)))

/-- The items of a container, and its closing bracket. -/
inductive Enclosed {ι : Type} (form : ι → List Char → Prop) (closing : Char) :
    List ι → List Char → Prop
  | empty {blanks : List Char} (hblanks : Blank blanks) :
    Enclosed form closing [] (blanks ++ [closing])
  | items {i : ι} {is : List ι} {gap text more : List Char} (hgap : Blank gap)
      (hform : form i text) (hmore : Tail form closing is more) :
    Enclosed form closing (i :: is) (gap ++ (text ++ more))

/-- A member of an object: the name in some spelling, and the text of the value. -/
inductive MemberText : String × List Char → List Char → Prop
  | mk {name : String} {body before after text : List Char} (hname : Spells body name.toList)
      (hbefore : Blank before) (hafter : Blank after) :
    MemberText (name, text) ('"' :: (body ++ '"' :: (before ++ ':' :: (after ++ text))))

/-- The text of an array with the texts of its items. -/
inductive ArrayText : List (List Char) → List Char → Prop
  | mk {texts : List (List Char)} {inner : List Char} (h : Enclosed Eq ']' texts inner) :
    ArrayText texts ('[' :: inner)

/-- The text of an object with its members, in text order. -/
inductive ObjectText : List (String × List Char) → List Char → Prop
  | mk {ms : List (String × List Char)} {inner : List Char}
      (h : Enclosed MemberText '\x7d' ms inner) : ObjectText ms ('\x7b' :: inner)

theorem Tail.delimited {ι : Type} {form : ι → List Char → Prop} {closing : Char}
    (hclosing : closing = ']' ∨ closing = '\x7d') {is : List ι} {text : List Char}
    (h : Tail form closing is text) (rest : List Char) : Delimited (text ++ rest) := by
  cases h with
  | close hblanks =>
    rw [List.append_assoc]
    exact delimited_append hblanks (delimited_cons (.inr (.inr hclosing)) _)
  | next hblanks =>
    rw [List.append_assoc]
    exact delimited_append hblanks (delimited_cons (.inr (.inl rfl)) _)

/-- The texts that are JSON. -/
inductive Valid : List Char → Prop
  | null : Valid "null".toList
  | true : Valid "true".toList
  | false : Valid "false".toList
  | number {text : List Char} (h : Numeral text) : Valid text
  | negative {text : List Char} (h : Numeral text) : Valid ('-' :: text)
  | string {text : List Char} {s : String} (h : StringText s text) : Valid text
  | array {texts : List (List Char)} {text : List Char} (h : ArrayText texts text)
      (hitems : ∀ t ∈ texts, Valid t) : Valid text
  | object {ms : List (String × List Char)} {text : List Char} (h : ObjectText ms text)
      (hmembers : ∀ m ∈ ms, Valid m.2) : Valid text

/-! ## Written texts -/

/-- A character is spelled by its form. -/
theorem spells_escapeChar (c : Char) {body cs : List Char} (h : Spells body cs) :
    Spells (escapeChar c ++ body) (c :: cs) := by
  have hcode : Char.ofNat c.toNat = c := Char.ofNat_toNat c
  have hletter {letter : Char} {n : Nat} (hn : c.toNat = n)
      (hmem : (letter, Char.ofNat n) ∈ escapes) : Spells (['\\', letter] ++ body) (c :: cs) := by
    rw [← hn, hcode] at hmem
    exact .escape hmem h
  unfold escapeChar
  split_ifs with hquote hbackslash hplain hb ht hn hf hr
  · subst hquote
    exact .escape (by decide) h
  · subst hbackslash
    exact .escape (by decide) h
  · exact .plain hquote hbackslash hplain h
  · exact hletter hb (by decide)
  · exact hletter ht (by decide)
  · exact hletter hn (by decide)
  · exact hletter hf (by decide)
  · exact hletter hr (by decide)
  · have hcontrol : c.toNat < 32 := by omega
    obtain ⟨hhigh, hlow⟩ := digit?_hexDigit c.toNat hcontrol
    have hzero : Text.digit? 16 '0' = some 0 := by decide
    have hspells := Spells.unit (.mk hzero hzero hhigh hlow) (.inl (by omega)) h
    have hvalue : ((0 * 16 + 0) * 16 + c.toNat / 16) * 16 + c.toNat % 16 = c.toNat := by omega
    rw [hvalue, hcode] at hspells
    exact hspells

theorem spells_flatMap (cs : List Char) : Spells (cs.flatMap escapeChar) cs := by
  induction cs with
  | nil => exact .nil
  | cons c cs ih =>
    rw [List.flatMap_cons]
    exact spells_escapeChar c ih

theorem blank_nil : Blank [] := by
  simp [Blank]

theorem stringText_chars (s : String) : StringText s (Value.string s).chars := by
  rw [Value.chars]
  exact ⟨_, spells_flatMap s.toList, rfl⟩

theorem Layout.memberText (l : Layout) (m : String × List Char) : MemberText m (l.member m) := by
  obtain ⟨name, value⟩ := m
  have hname : Spells (name.toList.flatMap escapeChar) name.toList := spells_flatMap name.toList
  rw [l.member_eq_cons]
  exact .mk hname blank_nil l.colonGap_blank

section Layouts

variable {ι : Type} {form : ι → List Char → Prop} {text : ι → List Char}
  (hform : ∀ i, form i (text i)) (l : Layout) (closing : Char)

include hform

theorem Layout.tail_text (is : List ι) : Tail form closing is (l.tail closing (is.map text)) := by
  induction is with
  | nil => exact .close l.close_blank
  | cons i is ih =>
    rw [List.map_cons, Layout.tail_cons]
    have hnext := Tail.next blank_nil l.gap_blank (hform i) ih
    exact hnext

/-- A container in a layout is a container. -/
theorem Layout.enclosed_text (is : List ι) :
    Enclosed form closing is (l.enclosed closing (is.map text)) := by
  cases is with
  | nil =>
    have hempty : Enclosed form closing [] _ := .empty blank_nil
    exact hempty
  | cons i is => exact .items l.gap_blank (hform i) (l.tail_text hform closing is)

end Layouts

/-- An array in a layout is an array. -/
theorem Layout.arrayText (l : Layout) (texts : List (List Char)) :
    ArrayText texts ('[' :: l.enclosed ']' texts) := by
  have hitems : Enclosed Eq ']' texts (l.enclosed ']' (texts.map id)) :=
    l.enclosed_text (fun _ => rfl) ']' texts
  rw [List.map_id] at hitems
  exact .mk hitems

/-- An object in a layout is an object. -/
theorem Layout.objectText (l : Layout) (ms : List (String × List Char)) :
    ObjectText ms ('\x7b' :: l.enclosed '\x7d' (ms.map l.member)) :=
  .mk (l.enclosed_text l.memberText '\x7d' ms)

theorem objectText_chars (ms : List (String × Value)) :
    ObjectText (ms.map fun m => (m.1, m.2.chars)) (Value.object ms).chars := by
  have hobject := Layout.compact.objectText (ms.map fun m => (m.1, m.2.chars))
  rw [List.map_map] at hobject
  rw [Value.chars, membersChars_eq_enclosed]
  exact hobject

theorem arrayText_chars (vs : List Value) :
    ArrayText (vs.map Value.chars) (Value.array vs).chars := by
  rw [Value.chars, itemsChars_eq_enclosed]
  exact Layout.compact.arrayText _

/-! ## Skipping -/

-- Every lemma of this section takes one round of the loop.
attribute [local simp] skipLoop

/-- A text is skipped wherever it stands, in at most as many rounds as it has characters:
the rounds that are left go on behind it. -/
structure Skips (text : List Char) : Prop where
  starts : ∃ c cs, text = c :: cs ∧ isSpace c = false ∧ c ≠ ']'
  skip : ∃ used ≤ text.length, ∀ fuel around blanks rest, Blank blanks → Delimited rest →
    skipLoop (fuel + 1 + used) true around (blanks ++ (text ++ rest)) =
      skipLoop (fuel + 1) false around rest

theorem Skips.of_leaf {c : Char} {cs : List Char} (hspace : isSpace c = false)
    (hend : c ≠ ']') (hleaf : ∀ fuel around blanks rest, Blank blanks → Delimited rest →
      skipSpace (blanks ++ (c :: cs ++ rest)) = c :: (cs ++ rest) →
      skipLoop (fuel + 2) true around (blanks ++ (c :: cs ++ rest)) =
        if around.isEmpty then .ok ((), rest) else skipLoop (fuel + 1) false around rest) :
    Skips (c :: cs) where
  starts := ⟨c, cs, rfl, hspace, hend⟩
  skip := by
    refine ⟨1, by simp, fun fuel around blanks rest hblanks hrest => ?_⟩
    have hround := hleaf fuel around blanks rest hblanks hrest
      (skipSpace_append_cons hblanks hspace _)
    rw [hround]
    cases around with
    | nil => rfl
    | cons inObject outer => rfl

theorem skips_null : Skips "null".toList := by
  refine .of_leaf (by decide) (by decide) fun fuel around blanks rest _ _ hskip => ?_
  simp only [skipLoop, hskip]
  rfl

theorem skips_true : Skips "true".toList := by
  refine .of_leaf (by decide) (by decide) fun fuel around blanks rest _ _ hskip => ?_
  simp only [skipLoop, hskip]
  rfl

theorem skips_false : Skips "false".toList := by
  refine .of_leaf (by decide) (by decide) fun fuel around blanks rest _ _ hskip => ?_
  simp only [skipLoop, hskip]
  rfl

theorem StringText.skips {text : List Char} {s : String} (h : StringText s text) : Skips text := by
  obtain ⟨body, hbody, rfl⟩ := h
  refine .of_leaf (by decide) (by decide) fun fuel around blanks rest _ _ hskip => ?_
  simp only [skipLoop, hskip]
  rw [List.append_assoc, List.singleton_append, skipString_spells hbody]

theorem Numeral.skips_negative {text : List Char} (h : Numeral text) : Skips ('-' :: text) := by
  refine .of_leaf (by decide) (by decide) fun fuel around blanks rest _ hrest hskip => ?_
  simp only [skipLoop, hskip, h.skip hrest]

theorem Numeral.skips {text : List Char} (h : Numeral text) : Skips text := by
  obtain ⟨c, cs, rfl, hc⟩ := h.starts
  obtain ⟨d, hd⟩ := Option.isSome_iff_exists.mp ((isSome_digit? c).trans hc)
  obtain ⟨hspace, hend, hminus⟩ := of_digit? hd
  refine .of_leaf hspace hend fun fuel around blanks rest _ hrest hskip => ?_
  have hnumber := h.skip hrest
  rw [List.cons_append] at hnumber
  obtain ⟨hn, ht, hf, hquote, hbracket, hbrace⟩ := ne_of_digit? hd
  rw [skipLoop]
  simp only [hskip]
  simp [hd, hnumber]

/-- A comma and what follows it are skipped in a container. -/
def SkipsNext (inObject : Bool) (text : List Char) : Prop :=
  ∃ used ≤ text.length + 1, ∀ fuel outer blanks gap rest, Blank blanks → Blank gap →
    Delimited rest →
    skipLoop (fuel + 1 + used) false (inObject :: outer)
        (blanks ++ ',' :: (gap ++ (text ++ rest))) =
      skipLoop (fuel + 1) false (inObject :: outer) rest

/-- What follows an item is skipped to the end of the container. -/
theorem Tail.skip {ι : Type} {form : ι → List Char → Prop} {closing : Char} {inObject : Bool}
    (hclosing : inObject = false ∧ closing = ']' ∨ inObject = true ∧ closing = '\x7d')
    {is : List ι} {text : List Char} (h : Tail form closing is text)
    (hnext : ∀ i ∈ is, ∀ t, form i t → SkipsNext inObject t) :
    ∃ used ≤ text.length, ∀ fuel outer rest,
      skipLoop (fuel + 1 + used) false (inObject :: outer) (text ++ rest) =
        skipLoop (fuel + 1) false outer rest := by
  induction h with
  | @close blanks hblanks =>
    refine ⟨1, by simp, fun fuel outer rest => ?_⟩
    have hend : isSpace closing = false := by
      rcases hclosing with ⟨-, rfl⟩ | ⟨-, rfl⟩ <;> rfl
    rw [List.append_assoc, List.singleton_append, skipLoop,
      skipSpace_append_cons hblanks hend]
    rcases hclosing with ⟨rfl, rfl⟩ | ⟨rfl, rfl⟩ <;> rfl
  | @next i is blanks gap t more hblanks hgap hform hmore ih =>
    obtain ⟨used, hused, hskip⟩ := hnext i List.mem_cons_self t hform
    obtain ⟨used', hused', hskip'⟩ := ih fun j hj => hnext j (List.mem_cons_of_mem i hj)
    refine ⟨used' + used, by simp; omega, fun fuel outer rest => ?_⟩
    have hrest : Delimited (more ++ rest) := hmore.delimited (hclosing.imp And.right And.right) rest
    have hfirst := hskip (fuel + used') outer blanks gap (more ++ rest) hblanks hgap hrest
    have hrounds : fuel + 1 + (used' + used) = fuel + used' + 1 + used := by omega
    have htext : blanks ++ ',' :: (gap ++ (t ++ more)) ++ rest =
        blanks ++ ',' :: (gap ++ (t ++ (more ++ rest))) := by simp
    rw [hrounds, htext, hfirst, Nat.add_right_comm]
    exact hskip' fuel outer rest

theorem Skips.next {text : List Char} (h : Skips text) : SkipsNext false text := by
  obtain ⟨used, hused, hskip⟩ := h.skip
  refine ⟨used + 1, by omega, fun fuel outer blanks gap rest hblanks hgap hrest => ?_⟩
  rw [← Nat.add_assoc, skipLoop, skipSpace_append_cons hblanks (by decide)]
  exact hskip fuel (false :: outer) gap rest hgap hrest

/-- The name and the colon of a member are skipped. -/
theorem MemberText.skip {m : String × List Char} {text : List Char} (h : MemberText m text) :
    ∃ more, text = '"' :: more ∧ m.2.length < more.length ∧ ∀ rest, ∃ afterName after,
      skipString (more ++ rest) = .ok ((), afterName) ∧
      colon afterName = .ok ((), after ++ (m.2 ++ rest)) ∧ Blank after := by
  obtain @⟨name, body, before, after, value, hname, hbefore, hafter⟩ := h
  refine ⟨_, rfl, by simp; omega, fun rest => ?_⟩
  refine ⟨before ++ ':' :: (after ++ (value ++ rest)), after, ?_, ?_, hafter⟩
  · have hskip := skipString_spells hname (before ++ ':' :: (after ++ (value ++ rest)))
    simpa using hskip
  · unfold colon
    rw [skipSpace_append_cons hbefore (by decide)]
    simp

theorem MemberText.next {m : String × List Char} {text : List Char} (h : MemberText m text)
    (hvalue : Skips m.2) : SkipsNext true text := by
  obtain ⟨more, rfl, hlength, hname⟩ := h.skip
  obtain ⟨used, hused, hskip⟩ := hvalue.skip
  refine ⟨used + 1, by simp; omega, fun fuel outer blanks gap rest hblanks hgap hrest => ?_⟩
  obtain ⟨afterName, after, hstring, hcolon, hafter⟩ := hname rest
  rw [← Nat.add_assoc, skipLoop, skipSpace_append_cons hblanks (by decide)]
  simp only [List.cons_append, skipSpace_append_cons hgap (c := '"') (by decide), if_true, hstring,
    hcolon]
  exact hskip fuel (true :: outer) after rest hafter hrest

/-- The first item of an array is skipped inside the array. -/
theorem skipLoop_array {blanks cs more : List Char} {c : Char} (hblanks : Blank blanks)
    (hcs : skipSpace cs = c :: more) (hend : c ≠ ']') (fuel : Nat) (around : List Bool) :
    skipLoop (fuel + 1) true around (blanks ++ '[' :: cs) =
      skipLoop fuel true (false :: around) (c :: more) := by
  rw [skipLoop, skipSpace_append_cons hblanks (by decide)]
  simp [hcs, hend]

/-- The value of the first member of an object is skipped inside the object. -/
theorem skipLoop_object {blanks cs more afterName value : List Char} (hblanks : Blank blanks)
    (hcs : skipSpace cs = '"' :: more) (hname : skipString more = .ok ((), afterName))
    (hcolon : colon afterName = .ok ((), value)) (fuel : Nat) (around : List Bool) :
    skipLoop (fuel + 1) true around (blanks ++ '\x7b' :: cs) =
      skipLoop fuel true (true :: around) value := by
  rw [skipLoop, skipSpace_append_cons hblanks (by decide)]
  simp [hcs, hname, hcolon]

theorem ArrayText.skips {texts : List (List Char)} {text : List Char} (h : ArrayText texts text)
    (hitems : ∀ t ∈ texts, Skips t) : Skips text := by
  obtain ⟨h⟩ := h
  cases h with
  | empty hblanks =>
    refine .of_leaf (by decide) (by decide) fun fuel around blanks rest _ _ hskip => ?_
    rw [skipLoop]
    simp only [hskip]
    rw [List.append_assoc, List.singleton_append, skipSpace_append_cons hblanks (by decide)]
    rfl
  | @items t texts gap _ more hgap hform hmore =>
    subst hform
    obtain ⟨c, cs, rfl, hspace, hend⟩ := (hitems t List.mem_cons_self).starts
    obtain ⟨used, hused, hskip⟩ := (hitems _ List.mem_cons_self).skip
    obtain ⟨used', hused', hskip'⟩ := hmore.skip (.inl ⟨rfl, rfl⟩)
      (by rintro i hi _ rfl; exact (hitems i (List.mem_cons_of_mem _ hi)).next)
    refine ⟨⟨'[', _, rfl, by decide, by decide⟩, used' + used + 1, ?_,
      fun fuel around blanks rest hblanks hrest => ?_⟩
    · simp only [List.length_cons, List.length_append] at hused ⊢
      omega
    · have hfirst := hskip (fuel + used') (false :: around) [] (more ++ rest) (by simp [Blank])
        (hmore.delimited (.inl rfl) rest)
      have hrounds : fuel + 1 + (used' + used + 1) = fuel + used' + 1 + used + 1 := by omega
      have hnext : skipSpace (gap ++ (c :: cs ++ more) ++ rest) = c :: (cs ++ (more ++ rest)) := by
        rw [List.append_assoc, List.append_assoc, List.cons_append]
        exact skipSpace_append_cons hgap hspace _
      calc skipLoop (fuel + 1 + (used' + used + 1)) true around
            (blanks ++ ('[' :: (gap ++ (c :: cs ++ more)) ++ rest))
          = skipLoop (fuel + used' + 1 + used) true (false :: around)
              (c :: (cs ++ (more ++ rest))) := by
            rw [hrounds, List.cons_append]
            exact skipLoop_array hblanks hnext hend _ around
        _ = skipLoop (fuel + used' + 1) false (false :: around) (more ++ rest) := hfirst
        _ = skipLoop (fuel + 1) false around rest := by
            rw [Nat.add_right_comm]
            exact hskip' fuel around rest

theorem ObjectText.skips {ms : List (String × List Char)} {text : List Char}
    (h : ObjectText ms text) (hmembers : ∀ m ∈ ms, Skips m.2) : Skips text := by
  obtain ⟨h⟩ := h
  cases h with
  | empty hblanks =>
    refine .of_leaf (by decide) (by decide) fun fuel around blanks rest _ _ hskip => ?_
    rw [skipLoop]
    simp only [hskip]
    rw [List.append_assoc, List.singleton_append, skipSpace_append_cons hblanks (by decide)]
    rfl
  | @items m ms gap _ more hgap hform hmore =>
    obtain ⟨name, rfl, hlength, hname⟩ := hform.skip
    obtain ⟨used, hused, hskip⟩ := (hmembers m List.mem_cons_self).skip
    obtain ⟨used', hused', hskip'⟩ := hmore.skip (.inr ⟨rfl, rfl⟩)
      (fun i hi _ hform => hform.next (hmembers i (List.mem_cons_of_mem _ hi)))
    refine ⟨⟨'\x7b', _, rfl, by decide, by decide⟩, used' + used + 1, ?_,
      fun fuel around blanks rest hblanks hrest => ?_⟩
    · simp only [List.length_cons, List.length_append] at hused ⊢
      omega
    · obtain ⟨afterName, after, hstring, hcolon, hafter⟩ := hname (more ++ rest)
      have hfirst := hskip (fuel + used') (true :: around) after (more ++ rest) hafter
        (hmore.delimited (.inr rfl) rest)
      have hrounds : fuel + 1 + (used' + used + 1) = fuel + used' + 1 + used + 1 := by omega
      have hquote : skipSpace (gap ++ ('"' :: name ++ more) ++ rest) =
          '"' :: (name ++ (more ++ rest)) := by
        rw [List.append_assoc, List.append_assoc, List.cons_append]
        exact skipSpace_append_cons hgap (by decide) _
      calc skipLoop (fuel + 1 + (used' + used + 1)) true around
            (blanks ++ ('\x7b' :: (gap ++ ('"' :: name ++ more)) ++ rest))
          = skipLoop (fuel + used' + 1 + used) true (true :: around)
              (after ++ (m.2 ++ (more ++ rest))) := by
            rw [hrounds, List.cons_append]
            exact skipLoop_object hblanks hquote hstring hcolon _ around
        _ = skipLoop (fuel + used' + 1) false (true :: around) (more ++ rest) := hfirst
        _ = skipLoop (fuel + 1) false around rest := by
            rw [Nat.add_right_comm]
            exact hskip' fuel around rest

theorem Valid.skips {text : List Char} (h : Valid text) : Skips text := by
  induction h with
  | null => exact skips_null
  | true => exact skips_true
  | false => exact skips_false
  | number h => exact h.skips
  | negative h => exact h.skips_negative
  | string h => exact h.skips
  | array h _ ih => exact h.skips ih
  | object h _ ih => exact h.skips ih

/-- A value is skipped up to its end, whatever it is. -/
theorem Valid.skip {text : List Char} (h : Valid text) {blanks rest : List Char}
    (hblanks : Blank blanks) (hrest : Delimited rest) :
    skip (blanks ++ (text ++ rest)) = .ok ((), rest) := by
  obtain ⟨used, hused, hskip⟩ := h.skips.skip
  have hlength : text.length ≤ (blanks ++ (text ++ rest)).length := by simp; omega
  obtain ⟨fuel, hfuel⟩ : ∃ fuel, 2 * (blanks ++ (text ++ rest)).length + 2 = fuel + 1 + used :=
    ⟨2 * (blanks ++ (text ++ rest)).length + 1 - used, by omega⟩
  unfold Json.skip
  rw [hfuel, hskip fuel [] blanks rest hblanks hrest]
  rfl

end LintRelay.Json
