import LintRelay.Text.Utf8
import Mathlib.Tactic.SplitIfs
set_option autoImplicit false

/-!
# Text: bytes read back

The bytes of a text are decoded to the text, and no other bytes are
(`decodeStrict?_eq_some_iff`).  A character is read from its bytes whatever follows it, and what
an ill-formed part would give plays no role.  So bytes can be compared in the place of texts,
also where one text only starts with the other one.
-/

namespace LintRelay.Text

/-! ## Leading bytes -/

theorem lead?_one : ∀ k < 256, k < 0x80 → lead? (UInt8.ofNat k) = some ⟨0, 0, 0, k⟩ := by
  decide +kernel

theorem lead?_two : ∀ k < 256, 0xC2 ≤ k → k < 0xE0 →
    lead? (UInt8.ofNat k) = some ⟨1, 0x80, 0xBF, k - 0xC0⟩ := by
  decide +kernel

/-- Overlong forms and surrogates are kept out by the range of the second byte. -/
theorem lead?_three : ∀ k < 256, 0xE0 ≤ k → k < 0xF0 →
    lead? (UInt8.ofNat k) =
      some ⟨2, if k = 0xE0 then 0xA0 else 0x80, if k = 0xED then 0x9F else 0xBF, k - 0xE0⟩ := by
  decide +kernel

theorem lead?_four : ∀ k < 256, 0xF0 ≤ k → k ≤ 0xF4 →
    lead? (UInt8.ofNat k) =
      some ⟨3, if k = 0xF0 then 0x90 else 0x80, if k = 0xF4 then 0x8F else 0xBF, k - 0xF0⟩ := by
  decide +kernel

/-! ## Scanning -/

section

variable (bad : List (Option Char))

theorem scanUtf8_lead {b : UInt8} {l : Lead} (h : lead? b = some l) (hmore : l.following ≠ 0)
    (rest : Bytes) :
    scanUtf8 bad none (b :: rest) =
      scanUtf8 bad (some ⟨l.following, l.low, l.high, l.bits⟩) rest := by
  rw [scanUtf8]
  simp only [h, hmore, if_false]

theorem inRange_ofNat {k : Nat} {low high : UInt8} (hk : k < 256) (hlow : low.toNat ≤ k)
    (hhigh : k ≤ high.toNat) : (low ≤ UInt8.ofNat k && UInt8.ofNat k ≤ high) = true := by
  have hnat : (UInt8.ofNat k).toNat = k := UInt8.toNat_ofNat_of_lt' hk
  simp [UInt8.le_iff_toNat_le, hnat, hlow, hhigh]

/-- A byte in its range continues a sequence. -/
theorem scanUtf8_more {missing value k : Nat} {low high : UInt8} (hk : k < 256)
    (hlow : low.toNat ≤ k) (hhigh : k ≤ high.toNat) (rest : Bytes) :
    scanUtf8 bad (some ⟨missing + 2, low, high, value⟩) (UInt8.ofNat k :: rest) =
      scanUtf8 bad (some ⟨missing + 1, 0x80, 0xBF, value * 64 + (k - 0x80)⟩) rest := by
  have hnat : (UInt8.ofNat k).toNat = k := UInt8.toNat_ofNat_of_lt' hk
  have hmissing : ¬ missing + 2 ≤ 1 := by omega
  rw [scanUtf8]
  simp only [inRange_ofNat hk hlow hhigh, hnat, hmissing, if_true, if_false]
  rfl

/-- The last byte of a sequence completes a character. -/
theorem scanUtf8_last {value k : Nat} {low high : UInt8} (hk : k < 256)
    (hlow : low.toNat ≤ k) (hhigh : k ≤ high.toNat) (rest : Bytes) :
    scanUtf8 bad (some ⟨1, low, high, value⟩) (UInt8.ofNat k :: rest) =
      some (Char.ofNat (value * 64 + (k - 0x80))) :: scanUtf8 bad none rest := by
  have hnat : (UInt8.ofNat k).toNat = k := UInt8.toNat_ofNat_of_lt' hk
  rw [scanUtf8]
  simp only [inRange_ofNat hk hlow hhigh, hnat, Nat.le_refl, if_true]

theorem scanUtf8_two {v : Nat} (hlow : 127 < v) (hhigh : v ≤ 2047) (rest : Bytes) :
    scanUtf8 bad none (UInt8.ofNat (v / 64 % 32 + 192) :: UInt8.ofNat (v % 64 + 128) :: rest) =
      some (Char.ofNat v) :: scanUtf8 bad none rest := by
  have hlead := lead?_two (v / 64 % 32 + 192) (by omega) (by omega) (by omega)
  have hvalue : (v / 64 % 32 + 192 - 192) * 64 + (v % 64 + 128 - 128) = v := by omega
  rw [scanUtf8_lead bad hlead (by simp), scanUtf8_last bad (by omega) (by simp) (by simp; omega),
    hvalue]

theorem scanUtf8_three {v : Nat} (hlow : 2047 < v) (hhigh : v ≤ 65535)
    (hvalid : v < 0xD800 ∨ 0xDFFF < v) (rest : Bytes) :
    scanUtf8 bad none
        (UInt8.ofNat (v / 4096 % 16 + 224) :: UInt8.ofNat (v / 64 % 64 + 128) ::
          UInt8.ofNat (v % 64 + 128) :: rest) =
      some (Char.ofNat v) :: scanUtf8 bad none rest := by
  have hlead := lead?_three (v / 4096 % 16 + 224) (by omega) (by omega) (by omega)
  have hvalue : ((v / 4096 % 16 + 224 - 224) * 64 + (v / 64 % 64 + 128 - 128)) * 64 +
      (v % 64 + 128 - 128) = v := by omega
  have hsecond : (if v / 4096 % 16 + 224 = 0xE0 then (0xA0 : UInt8) else 0x80).toNat ≤
      v / 64 % 64 + 128 := by split <;> simp; omega
  have hsecond' : v / 64 % 64 + 128 ≤
      (if v / 4096 % 16 + 224 = 0xED then (0x9F : UInt8) else 0xBF).toNat := by
    split <;> simp <;> omega
  rw [scanUtf8_lead bad hlead (by simp), scanUtf8_more bad (by omega) hsecond hsecond',
    scanUtf8_last bad (by omega) (by simp) (by simp; omega), hvalue]

theorem scanUtf8_four {v : Nat} (hlow : 65535 < v) (hhigh : v < 0x110000) (rest : Bytes) :
    scanUtf8 bad none
        (UInt8.ofNat (v / 262144 % 8 + 240) :: UInt8.ofNat (v / 4096 % 64 + 128) ::
          UInt8.ofNat (v / 64 % 64 + 128) :: UInt8.ofNat (v % 64 + 128) :: rest) =
      some (Char.ofNat v) :: scanUtf8 bad none rest := by
  have hlead := lead?_four (v / 262144 % 8 + 240) (by omega) (by omega) (by omega)
  have hvalue : (((v / 262144 % 8 + 240 - 240) * 64 + (v / 4096 % 64 + 128 - 128)) * 64 +
      (v / 64 % 64 + 128 - 128)) * 64 + (v % 64 + 128 - 128) = v := by omega
  have hsecond : (if v / 262144 % 8 + 240 = 0xF0 then (0x90 : UInt8) else 0x80).toNat ≤
      v / 4096 % 64 + 128 := by split <;> simp; omega
  have hsecond' : v / 4096 % 64 + 128 ≤
      (if v / 262144 % 8 + 240 = 0xF4 then (0x8F : UInt8) else 0xBF).toNat := by
    split <;> simp <;> omega
  rw [scanUtf8_lead bad hlead (by simp), scanUtf8_more bad (by omega) hsecond hsecond',
    scanUtf8_more bad (by omega) (by simp) (by simp; omega),
    scanUtf8_last bad (by omega) (by simp) (by simp; omega), hvalue]

/-- A character is read from its bytes. -/
theorem scanUtf8_encodeChar (c : Char) (rest : Bytes) :
    scanUtf8 bad none (String.utf8EncodeChar c ++ rest) = some c :: scanUtf8 bad none rest := by
  have hvalid : c.toNat < 0xD800 ∨ 0xDFFF < c.toNat ∧ c.toNat < 0x110000 := c.valid
  have hcode : Char.ofNat c.toNat = c := Char.ofNat_toNat c
  have hval : c.val.toNat = c.toNat := rfl
  unfold String.utf8EncodeChar
  simp only [hval]
  generalize c.toNat = v at hvalid hcode
  rw [← hcode]
  split_ifs with hone htwo hthree
  · rw [List.singleton_append, scanUtf8, lead?_one v (by omega) (by omega)]
    rfl
  · exact scanUtf8_two bad (by omega) htwo rest
  · exact scanUtf8_three bad (by omega) hthree (by omega) rest
  · exact scanUtf8_four bad (by omega) (by omega) rest

theorem scanUtf8_utf8Chars (cs : List Char) :
    scanUtf8 bad none (utf8Chars cs) = cs.map some := by
  induction cs with
  | nil => rfl
  | cons c cs ih =>
    unfold utf8Chars at ih ⊢
    rw [List.flatMap_cons, scanUtf8_encodeChar, ih, List.map_cons]

end

/-- The bytes of a text are decoded to the text. -/
theorem decodeStrict?_utf8 (s : String) : decodeStrict? (utf8 s) = some s := by
  unfold decodeStrict? utf8
  rw [scanUtf8_utf8Chars]
  simp

/-! ## Bytes of texts -/

theorem utf8Chars_cons (c : Char) (cs : List Char) :
    utf8Chars (c :: cs) = String.utf8EncodeChar c ++ utf8Chars cs := by
  simp [utf8Chars]

theorem utf8Chars_append (cs ds : List Char) :
    utf8Chars (cs ++ ds) = utf8Chars cs ++ utf8Chars ds :=
  List.flatMap_append

/-- The bytes of a character tell where it ends. -/
theorem encodeChar_append_inj {c d : Char} {x y : Bytes}
    (h : String.utf8EncodeChar c ++ x = String.utf8EncodeChar d ++ y) : c = d ∧ x = y := by
  have hscan := congrArg (scanUtf8 [] none) h
  rw [scanUtf8_encodeChar, scanUtf8_encodeChar] at hscan
  obtain rfl : c = d := Option.some.inj (List.cons.inj hscan).1
  exact ⟨rfl, List.append_cancel_left h⟩

/-- A text starts with another one when its bytes do. -/
theorem utf8Chars_isPrefix_iff {cs ds : List Char} :
    utf8Chars cs <+: utf8Chars ds ↔ cs <+: ds := by
  constructor
  · intro h
    induction cs generalizing ds with
    | nil => exact List.nil_prefix
    | cons c cs ih =>
      obtain ⟨rest, hrest⟩ := h
      rw [utf8Chars_cons, List.append_assoc] at hrest
      cases ds with
      | nil =>
        have hscan := congrArg (scanUtf8 [] none) hrest
        rw [scanUtf8_encodeChar] at hscan
        cases hscan
      | cons d ds =>
        rw [utf8Chars_cons] at hrest
        obtain ⟨rfl, hmore⟩ := encodeChar_append_inj hrest
        exact List.cons_prefix_cons.mpr ⟨rfl, ih ⟨rest, hmore⟩⟩
  · rintro ⟨rest, rfl⟩
    exact ⟨utf8Chars rest, (utf8Chars_append cs rest).symm⟩

theorem utf8Chars_inj {cs ds : List Char} : utf8Chars cs = utf8Chars ds ↔ cs = ds := by
  constructor
  · intro h
    have hscan := congrArg (scanUtf8 [] none) h
    rw [scanUtf8_utf8Chars, scanUtf8_utf8Chars] at hscan
    exact (List.map_inj_right fun _ _ => Option.some.inj).mp hscan
  · rintro rfl
    rfl

theorem not_toNat_ofNat_lt {k : Nat} (hlow : 128 ≤ k) (hhigh : k < 256) :
    ¬ (UInt8.ofNat k).toNat < 128 := by
  rw [UInt8.toNat_ofNat_of_lt' hhigh]
  omega

/-- Only the characters of ASCII have bytes of ASCII. -/
theorem toNat_of_mem_encodeChar {c : Char} {b : UInt8} (hb : b ∈ String.utf8EncodeChar c)
    (hascii : b.toNat < 128) : b.toNat = c.toNat := by
  have hval : c.val.toNat = c.toNat := rfl
  unfold String.utf8EncodeChar at hb
  simp only [hval] at hb
  split_ifs at hb with hone htwo hthree
  · obtain rfl := List.mem_singleton.mp hb
    rw [UInt8.toNat_ofNat']
    omega
  · simp only [List.mem_cons, List.not_mem_nil, or_false] at hb
    rcases hb with rfl | rfl <;>
      exact absurd hascii (not_toNat_ofNat_lt (by omega) (by omega))
  · simp only [List.mem_cons, List.not_mem_nil, or_false] at hb
    rcases hb with rfl | rfl | rfl <;>
      exact absurd hascii (not_toNat_ofNat_lt (by omega) (by omega))
  · simp only [List.mem_cons, List.not_mem_nil, or_false] at hb
    rcases hb with rfl | rfl | rfl | rfl <;>
      exact absurd hascii (not_toNat_ofNat_lt (by omega) (by omega))

/-! ## Only the bytes of texts are decoded -/

theorem lead?_none : ∀ k < 256, 0x80 ≤ k → k < 0xC2 ∨ 0xF4 < k →
    lead? (UInt8.ofNat k) = none := by
  decide +kernel

/-- The bytes are read without an ill-formed part, from the given state on. -/
def Whole (state : Option Partly) (bytes : Bytes) : Prop :=
  (scanUtf8 [none] state bytes).all Option.isSome = true

theorem exists_ofNat (b : UInt8) : ∃ k < 256, b = UInt8.ofNat k :=
  ⟨b.toNat, b.toNat_lt, UInt8.ofNat_toNat.symm⟩

/-- A sequence that has been started is continued in the range that it announced. -/
theorem Whole.exists_next {p : Partly} {bytes : Bytes} (h : Whole (some p) bytes) :
    ∃ k rest, k < 256 ∧ bytes = UInt8.ofNat k :: rest ∧ p.low.toNat ≤ k ∧ k ≤ p.high.toNat := by
  cases bytes with
  | nil => simp [Whole, scanUtf8] at h
  | cons b rest =>
    obtain ⟨k, hk, rfl⟩ := exists_ofNat b
    refine ⟨k, rest, hk, rfl, ?_⟩
    have hnat : (UInt8.ofNat k).toNat = k := UInt8.toNat_ofNat_of_lt' hk
    cases hrange : (p.low ≤ UInt8.ofNat k && UInt8.ofNat k ≤ p.high) with
    | true => simpa [UInt8.le_iff_toNat_le, hnat] using hrange
    | false =>
      rw [Whole, scanUtf8] at h
      simp only [hrange, Bool.false_eq_true, if_false] at h
      split at h <;> simp at h

theorem encodeChar_ofNat {v : Nat} (hvalid : v < 0xD800 ∨ 0xDFFF < v ∧ v < 0x110000) :
    String.utf8EncodeChar (Char.ofNat v) =
      if v ≤ 127 then [UInt8.ofNat v]
      else if v ≤ 2047 then [UInt8.ofNat (v / 64 % 32 + 192), UInt8.ofNat (v % 64 + 128)]
      else if v ≤ 65535 then
        [UInt8.ofNat (v / 4096 % 16 + 224), UInt8.ofNat (v / 64 % 64 + 128),
          UInt8.ofNat (v % 64 + 128)]
      else
        [UInt8.ofNat (v / 262144 % 8 + 240), UInt8.ofNat (v / 4096 % 64 + 128),
          UInt8.ofNat (v / 64 % 64 + 128), UInt8.ofNat (v % 64 + 128)] := by
  have hval : (Char.ofNat v).val.toNat = v := by
    rw [Char.ofNat, dif_pos hvalid]
    rfl
  rw [String.utf8EncodeChar, hval]

theorem encodeChar_two {k k₂ : Nat} (hlow : 0xC2 ≤ k) (hhigh : k < 0xE0) (hlow₂ : 0x80 ≤ k₂)
    (hhigh₂ : k₂ ≤ 0xBF) :
    String.utf8EncodeChar (Char.ofNat ((k - 0xC0) * 64 + (k₂ - 0x80))) =
      [UInt8.ofNat k, UInt8.ofNat k₂] := by
  have hfirst : ((k - 0xC0) * 64 + (k₂ - 0x80)) / 64 % 32 + 192 = k := by omega
  have hsecond : ((k - 0xC0) * 64 + (k₂ - 0x80)) % 64 + 128 = k₂ := by omega
  rw [encodeChar_ofNat (by omega), if_neg (by omega), if_pos (by omega), hfirst, hsecond]

theorem encodeChar_three {k k₂ k₃ : Nat} (hlow : 0xE0 ≤ k) (hhigh : k < 0xF0)
    (hlow₂ : (if k = 0xE0 then 0xA0 else 0x80) ≤ k₂)
    (hhigh₂ : k₂ ≤ if k = 0xED then 0x9F else 0xBF) (hlow₃ : 0x80 ≤ k₃) (hhigh₃ : k₃ ≤ 0xBF) :
    String.utf8EncodeChar (Char.ofNat (((k - 0xE0) * 64 + (k₂ - 0x80)) * 64 + (k₃ - 0x80))) =
      [UInt8.ofNat k, UInt8.ofNat k₂, UInt8.ofNat k₃] := by
  have hrange₂ : 0x80 ≤ k₂ ∧ k₂ ≤ 0xBF := by split at hlow₂ <;> split at hhigh₂ <;> omega
  have hlong : k = 0xE0 → 0xA0 ≤ k₂ := fun hk => by rwa [if_pos hk] at hlow₂
  have hsurrogate : k = 0xED → k₂ ≤ 0x9F := fun hk => by rwa [if_pos hk] at hhigh₂
  generalize hv : ((k - 0xE0) * 64 + (k₂ - 0x80)) * 64 + (k₃ - 0x80) = v
  have hfirst : v / 4096 % 16 + 224 = k := by omega
  have hsecond : v / 64 % 64 + 128 = k₂ := by omega
  have hthird : v % 64 + 128 = k₃ := by omega
  rw [encodeChar_ofNat (by omega), if_neg (by omega), if_neg (by omega), if_pos (by omega), hfirst,
    hsecond, hthird]

theorem encodeChar_four {k k₂ k₃ k₄ : Nat} (hlow : 0xF0 ≤ k) (hhigh : k ≤ 0xF4)
    (hlow₂ : (if k = 0xF0 then 0x90 else 0x80) ≤ k₂)
    (hhigh₂ : k₂ ≤ if k = 0xF4 then 0x8F else 0xBF) (hlow₃ : 0x80 ≤ k₃) (hhigh₃ : k₃ ≤ 0xBF)
    (hlow₄ : 0x80 ≤ k₄) (hhigh₄ : k₄ ≤ 0xBF) :
    String.utf8EncodeChar (Char.ofNat
        ((((k - 0xF0) * 64 + (k₂ - 0x80)) * 64 + (k₃ - 0x80)) * 64 + (k₄ - 0x80))) =
      [UInt8.ofNat k, UInt8.ofNat k₂, UInt8.ofNat k₃, UInt8.ofNat k₄] := by
  have hrange₂ : 0x80 ≤ k₂ ∧ k₂ ≤ 0xBF := by split at hlow₂ <;> split at hhigh₂ <;> omega
  have hlong : k = 0xF0 → 0x90 ≤ k₂ := fun hk => by rwa [if_pos hk] at hlow₂
  have hlarge : k = 0xF4 → k₂ ≤ 0x8F := fun hk => by rwa [if_pos hk] at hhigh₂
  generalize hv : (((k - 0xF0) * 64 + (k₂ - 0x80)) * 64 + (k₃ - 0x80)) * 64 + (k₄ - 0x80) = v
  have hfirst : v / 262144 % 8 + 240 = k := by omega
  have hsecond : v / 4096 % 64 + 128 = k₂ := by omega
  have hthird : v / 64 % 64 + 128 = k₃ := by omega
  have hfourth : v % 64 + 128 = k₄ := by omega
  rw [encodeChar_ofNat (by omega), if_neg (by omega), if_neg (by omega), if_neg (by omega), hfirst,
    hsecond, hthird, hfourth]

/-- Bytes that are read without an ill-formed part start with the bytes of a character.  The
cases are those of the leading byte. -/
theorem Whole.exists_char {b : UInt8} {bytes : Bytes} (h : Whole none (b :: bytes)) :
    ∃ c rest, b :: bytes = String.utf8EncodeChar c ++ rest := by
  obtain ⟨k, hk, rfl⟩ := exists_ofNat b
  by_cases hone : k < 0x80
  · refine ⟨Char.ofNat k, bytes, ?_⟩
    rw [encodeChar_ofNat (by omega), if_pos (by omega)]
    rfl
  by_cases hbad : k < 0xC2 ∨ 0xF4 < k
  · rw [Whole, scanUtf8, lead?_none k hk (by omega) hbad] at h
    simp at h
  by_cases htwo : k < 0xE0
  · rw [Whole, scanUtf8_lead _ (lead?_two k hk (by omega) htwo) (by simp)] at h
    obtain ⟨k₂, rest, hk₂, rfl, hlow₂, hhigh₂⟩ := Whole.exists_next h
    have hencode := encodeChar_two (by omega) htwo hlow₂ hhigh₂
    exact ⟨_, rest, (congrArg (· ++ rest) hencode).symm⟩
  by_cases hthree : k < 0xF0
  · rw [Whole, scanUtf8_lead _ (lead?_three k hk (by omega) hthree) (by simp)] at h
    obtain ⟨k₂, more, hk₂, rfl, hlow₂, hhigh₂⟩ := Whole.exists_next h
    rw [scanUtf8_more _ hk₂ hlow₂ hhigh₂] at h
    obtain ⟨k₃, rest, hk₃, rfl, hlow₃, hhigh₃⟩ := Whole.exists_next h
    rw [apply_ite UInt8.toNat] at hlow₂ hhigh₂
    have hencode := encodeChar_three (by omega) hthree hlow₂ hhigh₂ hlow₃ hhigh₃
    exact ⟨_, rest, (congrArg (· ++ rest) hencode).symm⟩
  · rw [Whole, scanUtf8_lead _ (lead?_four k hk (by omega) (by omega)) (by simp)] at h
    obtain ⟨k₂, more, hk₂, rfl, hlow₂, hhigh₂⟩ := Whole.exists_next h
    rw [scanUtf8_more _ hk₂ hlow₂ hhigh₂] at h
    obtain ⟨k₃, more, hk₃, rfl, hlow₃, hhigh₃⟩ := Whole.exists_next h
    rw [scanUtf8_more _ hk₃ hlow₃ hhigh₃] at h
    obtain ⟨k₄, rest, hk₄, rfl, hlow₄, hhigh₄⟩ := Whole.exists_next h
    rw [apply_ite UInt8.toNat] at hlow₂ hhigh₂
    have hencode := encodeChar_four (by omega) (by omega) hlow₂ hhigh₂ hlow₃ hhigh₃ hlow₄ hhigh₄
    exact ⟨_, rest, (congrArg (· ++ rest) hencode).symm⟩

theorem whole_encodeChar_append {c : Char} {rest : Bytes} :
    Whole none (String.utf8EncodeChar c ++ rest) ↔ Whole none rest := by
  rw [Whole, scanUtf8_encodeChar, Whole, List.all_cons, Option.isSome_some, Bool.true_and]

theorem Whole.exists_utf8Chars {bytes : Bytes} (h : Whole none bytes) :
    ∃ cs, bytes = utf8Chars cs := by
  -- The induction is on what is read, which is one character shorter behind each character.
  induction hcells : scanUtf8 [none] none bytes generalizing bytes with
  | nil =>
    cases bytes with
    | nil => exact ⟨[], rfl⟩
    | cons b more =>
      obtain ⟨c, rest, hsplit⟩ := h.exists_char
      rw [hsplit, scanUtf8_encodeChar] at hcells
      cases hcells
  | cons cell cells ih =>
    cases bytes with
    | nil => cases hcells
    | cons b more =>
      obtain ⟨c, rest, hsplit⟩ := h.exists_char
      rw [hsplit] at h hcells
      rw [scanUtf8_encodeChar] at hcells
      obtain ⟨cs, rfl⟩ := ih (whole_encodeChar_append.mp h) (List.cons.inj hcells).2
      exact ⟨c :: cs, hsplit.trans (utf8Chars_cons c cs).symm⟩

/-- Bytes are decoded to a text if they are the bytes of this text, and only then. -/
theorem decodeStrict?_eq_some_iff {bytes : Bytes} {s : String} :
    decodeStrict? bytes = some s ↔ bytes = utf8 s := by
  constructor
  · intro h
    have hwhole : Whole none bytes := by
      simp only [decodeStrict?] at h
      split at h
      · assumption
      · cases h
    obtain ⟨cs, rfl⟩ := hwhole.exists_utf8Chars
    have htext : utf8 (String.ofList cs) = utf8Chars cs := by rw [utf8, String.toList_ofList]
    rw [← htext, decodeStrict?_utf8] at h
    rw [← Option.some.inj h, htext]
  · rintro rfl
    exact decodeStrict?_utf8 s

end LintRelay.Text
