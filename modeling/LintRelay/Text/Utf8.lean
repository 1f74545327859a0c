set_option autoImplicit false

/-!
# Text: bytes

The UTF-8 form of a text, and the text that a sequence of bytes stands for when
every maximal ill-formed part of it is replaced by `U+FFFD`.
-/

namespace LintRelay.Text

/-- Raw bytes of a file, a message body or an output stream. -/
abbrev Bytes := List UInt8

/-- The UTF-8 form of a list of characters. -/
def utf8Chars (cs : List Char) : Bytes := cs.flatMap String.utf8EncodeChar

/-- The UTF-8 form of a text. -/
def utf8 (s : String) : Bytes := utf8Chars s.toList

/-- What a leading byte announces: how many bytes follow it, which range the
first of them lies in, and the bits that the leading byte contributes. -/
structure Lead where
  following : Nat
  low : UInt8
  high : UInt8
  bits : Nat
  deriving DecidableEq, Repr

/-- The announcement of a leading byte; `none` when no sequence starts with it.
The ranges exclude overlong forms, surrogates and values past `U+10FFFF`. -/
def lead? (b : UInt8) : Option Lead :=
  if b < 0x80 then some ⟨0, 0, 0, b.toNat⟩
  else if b < 0xC2 then none
  else if b < 0xE0 then some ⟨1, 0x80, 0xBF, b.toNat - 0xC0⟩
  else if b == 0xE0 then some ⟨2, 0xA0, 0xBF, 0⟩
  else if b == 0xED then some ⟨2, 0x80, 0x9F, 0xD⟩
  else if b < 0xF0 then some ⟨2, 0x80, 0xBF, b.toNat - 0xE0⟩
  else if b == 0xF0 then some ⟨3, 0x90, 0xBF, 0⟩
  else if b < 0xF4 then some ⟨3, 0x80, 0xBF, b.toNat - 0xF0⟩
  else if b == 0xF4 then some ⟨3, 0x80, 0x8F, 4⟩
  else none

/-- What has been read of a sequence that is not complete yet. -/
structure Partly where
  missing : Nat
  low : UInt8
  high : UInt8
  value : Nat
  deriving DecidableEq, Repr

/-- Reads bytes from left to right.  `bad` says what an ill-formed part
contributes, so that one reader serves strict and lenient decoding. -/
def scanUtf8 (bad : List (Option Char)) : Option Partly → Bytes → List (Option Char)
  | none, [] => []
  | some _, [] => bad
  | none, b :: rest =>
    match lead? b with
    | none => bad ++ scanUtf8 bad none rest
    | some l =>
      if l.following = 0 then some (Char.ofNat l.bits) :: scanUtf8 bad none rest
      else scanUtf8 bad (some ⟨l.following, l.low, l.high, l.bits⟩) rest
  | some p, b :: rest =>
    if p.low ≤ b && b ≤ p.high then
      let value := p.value * 64 + (b.toNat - 0x80)
      if p.missing ≤ 1 then some (Char.ofNat value) :: scanUtf8 bad none rest
      else scanUtf8 bad (some ⟨p.missing - 1, 0x80, 0xBF, value⟩) rest
    else
      -- The byte does not continue the sequence: it may start another one.
      match lead? b with
      | none => bad ++ bad ++ scanUtf8 bad none rest
      | some l =>
        bad ++
          (if l.following = 0 then some (Char.ofNat l.bits) :: scanUtf8 bad none rest
           else scanUtf8 bad (some ⟨l.following, l.low, l.high, l.bits⟩) rest)

/-- The text of some bytes, with `U+FFFD` for every maximal ill-formed part. -/
def decodeLossy (bytes : Bytes) : String :=
  String.ofList ((scanUtf8 [some (Char.ofNat 0xFFFD)] none bytes).filterMap id)

/-- The text of some bytes, if they are well-formed UTF-8. -/
def decodeStrict? (bytes : Bytes) : Option String :=
  let cells := scanUtf8 [none] none bytes
  if cells.all Option.isSome then some (String.ofList (cells.filterMap id)) else none

/-- The bytes without a leading byte-order mark. -/
def withoutMark : Bytes → Bytes
  | 0xEF :: 0xBB :: 0xBF :: rest => rest
  | bytes => bytes

end LintRelay.Text
