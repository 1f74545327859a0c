import LintRelay.Bridge.Output
import LintRelay.Proofs.Text.Utf8
set_option autoImplicit false

/-!
# What is passed on of the bridge's output

The output of a bridge is bytes.  Its lines are given here as a way to cut it (`HasLines`),
without any order in which it is read, and every output has lines in exactly one way
(`hasLines_iff`).  A line is a text or it is not.

Lines are passed on one after the other, and this ends at the first line that is not a text: what
the bridge writes behind it is lost, texts included.
-/

namespace LintRelay.Bridge

open LintRelay.Text (Bytes utf8 decodeStrict?)

/-! ## Lines -/

/-- The line that a newline ends: a carriage return right before the newline is no part of it. -/
def withoutReturn (l : Bytes) : Bytes := if l.getLast? = some 13 then l.dropLast else l

/-- The lines of a stream: each newline ends one, and what stands behind the last newline is one
unless nothing stands there. -/
def HasLines (stream : Bytes) (lines : List Bytes) : Prop :=
  ∃ (ended : List Bytes) (last : Bytes), stream = ended.flatMap (· ++ [10]) ++ last ∧
    (∀ l ∈ ended, 10 ∉ l) ∧ 10 ∉ last ∧
    lines = ended.map withoutReturn ++ if last = [] then [] else [last]

theorem splitLines_cons {b : UInt8} (hb : b ≠ 10) (line rest : Bytes) :
    splitLines line (b :: rest) = splitLines (b :: line) rest := by
  rw [splitLines.eq_def]
  simp only [hb, if_false]

theorem splitLines_append_of_notMem {l : Bytes} (hl : 10 ∉ l) (line rest : Bytes) :
    splitLines line (l ++ rest) = splitLines (l.reverse ++ line) rest := by
  induction l generalizing line with
  | nil => rfl
  | cons b l ih =>
    obtain ⟨hb, hmore⟩ := not_or.mp (mt List.mem_cons.mpr hl)
    rw [List.cons_append, splitLines_cons (Ne.symm hb), ih hmore, List.reverse_cons,
      List.append_assoc, List.singleton_append]

theorem splitLines_newline (line rest : Bytes) :
    splitLines line (10 :: rest) = withoutReturn line.reverse :: splitLines [] rest := by
  cases line with
  | nil => simp [splitLines, withoutReturn]
  | cons b before => by_cases hb : b = 13 <;> simp [splitLines, withoutReturn, hb]

theorem splitLines_nil (line : Bytes) :
    splitLines line [] = if line.reverse = [] then [] else [line.reverse] := by
  cases line <;> simp [splitLines]

theorem splitLines_flatMap {ended : List Bytes} {last : Bytes} (hended : ∀ l ∈ ended, 10 ∉ l)
    (hlast : 10 ∉ last) :
    splitLines [] (ended.flatMap (· ++ [10]) ++ last) =
      ended.map withoutReturn ++ if last = [] then [] else [last] := by
  induction ended with
  | nil =>
    have hsplit := splitLines_append_of_notMem hlast [] []
    rw [splitLines_nil] at hsplit
    simpa using hsplit
  | cons l ended ih =>
    obtain ⟨hl, hmore⟩ := List.forall_mem_cons.mp hended
    rw [List.flatMap_cons, List.append_assoc, List.append_assoc, splitLines_append_of_notMem hl,
      List.singleton_append, splitLines_newline, ih hmore, List.map_cons, List.cons_append,
      List.append_nil, List.reverse_reverse]

/-- Every stream can be cut behind its newlines. -/
theorem exists_ended (stream : Bytes) :
    ∃ (ended : List Bytes) (last : Bytes), stream = ended.flatMap (· ++ [10]) ++ last ∧
      (∀ l ∈ ended, 10 ∉ l) ∧ 10 ∉ last := by
  induction stream with
  | nil => exact ⟨[], [], rfl, by simp, by simp⟩
  | cons b stream ih =>
    obtain ⟨ended, last, rfl, hended, hlast⟩ := ih
    by_cases hb : b = 10
    · subst hb
      exact ⟨[] :: ended, last, rfl, by simpa using hended, hlast⟩
    · -- The byte goes to the line that begins with what follows it.
      cases ended with
      | nil => exact ⟨[], b :: last, rfl, by simp, by simp [Ne.symm hb, hlast]⟩
      | cons l ended =>
        obtain ⟨hl, hmore⟩ := List.forall_mem_cons.mp hended
        refine ⟨(b :: l) :: ended, last, rfl, ?_, hlast⟩
        exact List.forall_mem_cons.mpr ⟨by simp [Ne.symm hb, hl], hmore⟩

/-- A stream has lines in exactly one way, and these are the ones it is split into. -/
theorem hasLines_iff {stream : Bytes} {lines : List Bytes} :
    HasLines stream lines ↔ lines = splitLines [] stream := by
  constructor
  · rintro ⟨ended, last, rfl, hended, hlast, rfl⟩
    exact (splitLines_flatMap hended hlast).symm
  · rintro rfl
    obtain ⟨ended, last, rfl, hended, hlast⟩ := exists_ended stream
    exact ⟨ended, last, rfl, hended, hlast, splitLines_flatMap hended hlast⟩

/-! ## Texts -/

/-- The bytes are well-formed UTF-8. -/
def IsText (l : Bytes) : Prop := ∃ s, l = utf8 s

theorem decodeStrict?_eq_none_iff {l : Bytes} : decodeStrict? l = none ↔ ¬ IsText l := by
  simp [IsText, ← Text.decodeStrict?_eq_some_iff, Option.eq_none_iff_forall_ne_some]

/-- The texts that are read of lines are the ones in front of the first line that is no text. -/
theorem exists_append_textsOf (lines : List Bytes) :
    ∃ rest, lines = (textsOf lines).map utf8 ++ rest ∧ ∀ l ∈ rest.head?, ¬ IsText l := by
  induction lines with
  | nil => exact ⟨[], rfl, by simp⟩
  | cons l lines ih =>
    rw [textsOf]
    cases hdecode : decodeStrict? l with
    | none =>
      refine ⟨l :: lines, rfl, ?_⟩
      intro bad hbad
      obtain rfl : l = bad := Option.some.inj hbad
      exact decodeStrict?_eq_none_iff.mp hdecode
    | some s =>
      obtain ⟨rest, hlines, hrest⟩ := ih
      refine ⟨rest, ?_, hrest⟩
      rw [Text.decodeStrict?_eq_some_iff.mp hdecode, List.map_cons, List.cons_append, ← hlines]

theorem filterMap_decode_utf8 (texts : List String) (rest : List Bytes) :
    (texts.map utf8 ++ rest).filterMap decodeStrict? = texts ++ rest.filterMap decodeStrict? := by
  rw [List.filterMap_append, List.filterMap_map]
  congr 1
  have hdecode : decodeStrict? ∘ utf8 = some := funext Text.decodeStrict?_utf8
  rw [hdecode, List.filterMap_some]

/-! ## Forwarding -/

/-- What is logged for a text: its level and its message. -/
def forwarded (s : String) : Log.Line := ⟨(parseLine s).1, .engine, (parseLine s).2⟩

theorem outputLines_eq (stream : Bytes) :
    outputLines stream = (textsOf (splitLines [] stream)).map forwarded := rfl

/-- Of the lines of an output, the ones in front of the first line that is no text are logged, each
once and in their order, with the levels and messages that they are parsed to.  Nothing else is.
So all lines that are texts are logged if and only if none of them stands behind a line that is no
text. -/
theorem output_is_forwarded_until_undecodable_line (stream : Bytes) :
    ∃ (lines : List Bytes) (texts : List String) (rest : List Bytes),
      (∀ cut, HasLines stream cut ↔ cut = lines) ∧
      lines = texts.map utf8 ++ rest ∧ (∀ l ∈ rest.head?, ¬ IsText l) ∧
      outputLines stream = texts.map forwarded ∧
      (outputLines stream = (lines.filterMap decodeStrict?).map forwarded ↔
        ∀ l ∈ rest, ¬ IsText l) := by
  obtain ⟨rest, hlines, hrest⟩ := exists_append_textsOf (splitLines [] stream)
  refine ⟨splitLines [] stream, textsOf (splitLines [] stream), rest, fun cut => hasLines_iff,
    hlines, hrest, outputLines_eq stream, ?_⟩
  have hdecoded := congrArg (List.filterMap decodeStrict?) hlines
  rw [filterMap_decode_utf8] at hdecoded
  rw [outputLines_eq, hdecoded, List.map_append, List.self_eq_append_right, List.map_eq_nil_iff,
    List.filterMap_eq_nil_iff]
  exact forall₂_congr fun l _ => decodeStrict?_eq_none_iff

/-- An output with a line that is no text between two lines that are. -/
def brokenOutput : Bytes := [111, 107, 10, 0xFF, 98, 10, 108, 111, 115, 116, 10]

/-- The text behind the line that is none is not logged. -/
theorem brokenOutput_is_cut_off :
    HasLines brokenOutput [utf8 "ok", [0xFF, 98], utf8 "lost"] ∧
    outputLines brokenOutput = [⟨.info, .engine, "ok"⟩] ∧
    outputLines brokenOutput ≠
      ([utf8 "ok", [0xFF, 98], utf8 "lost"].filterMap decodeStrict?).map forwarded := by
  exact ⟨hasLines_iff.mpr (by decide), by decide +kernel, by decide +kernel⟩

end LintRelay.Bridge
