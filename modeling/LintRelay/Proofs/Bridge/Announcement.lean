import LintRelay.Proofs.Bridge.Forwarding
import LintRelay.Proofs.Text.Span
import Mathlib.Data.List.Forall2
set_option autoImplicit false

/-!
# Levels that lines announce

A line of output announces a level if it is the name of the level, a gap of blanks and a message.
`Announces` says so without the order in which names are tried, and without how far blanks are
read.  A line announces one level and one message at most, since names have no blanks in them
(`Announces.unique`).  Its announcement is recognized if the message is a single line; all other
lines are information, and are passed on as they are (`parseLine_cases`).

The lines that are read from an output have no newlines in them, so for these the announcement
alone decides (`outputLines_tell`).
-/

namespace LintRelay.Bridge

open LintRelay.Text (Bytes Spaced utf8)

/-- The levels that a line can announce. -/
def announced : List Log.Level := [.debug, .warn, .error]

/-- The line is the name of the level, one or more blanks, and the message, which does not start
with a blank. -/
def Announces (line : String) (level : Log.Level) (message : String) : Prop :=
  level ∈ announced ∧ Spaced level.name.toList message.toList line.toList

/-! ## Names -/

theorem levelNames_eq : levelNames = announced.map fun level => (level.name.toList, level) := rfl

theorem name_injective {level₁ level₂ : Log.Level}
    (h : level₁.name.toList = level₂.name.toList) : level₁ = level₂ := by
  revert h
  cases level₁ <;> cases level₂ <;> decide

theorem isBlank_eq_false_of_mem_name (level : Log.Level) :
    ∀ c ∈ level.name.toList, Text.isBlank c = false := by
  cases level <;> simp [Log.Level.name, Text.isBlank]

/-- A line announces one level and one message at most. -/
theorem Announces.unique {line message₁ message₂ : String} {level₁ level₂ : Log.Level}
    (h₁ : Announces line level₁ message₁) (h₂ : Announces line level₂ message₂) :
    level₁ = level₂ ∧ message₁ = message₂ := by
  obtain ⟨hname, hmessage⟩ := h₁.2.unique h₂.2 (isBlank_eq_false_of_mem_name level₁)
    (isBlank_eq_false_of_mem_name level₂)
  exact ⟨name_injective hname, String.toList_inj.mp hmessage⟩

/-! ## Recognition -/

theorem messageAfter_append (name cs : List Char) :
    messageAfter name (name ++ cs) =
      if (Text.dropBlanks cs).length < cs.length ∧ '\n' ∉ Text.dropBlanks cs then
        some (Text.dropBlanks cs)
      else none := by
  simp [messageAfter]

theorem messageAfter_eq_some_iff {name message cs : List Char} :
    messageAfter name cs = some message ↔ Spaced name message cs ∧ '\n' ∉ message := by
  by_cases hname : name <+: cs
  · obtain ⟨rest, rfl⟩ := hname
    rw [messageAfter_append, Option.ite_none_right_eq_some, Option.some.injEq,
      Text.spaced_append_iff]
    constructor
    · rintro ⟨⟨hlength, hnewline⟩, rfl⟩
      exact ⟨⟨rfl, hlength⟩, hnewline⟩
    · rintro ⟨⟨rfl, hlength⟩, hnewline⟩
      exact ⟨⟨hlength, hnewline⟩, rfl⟩
  · constructor
    · intro h
      simp [messageAfter, hname] at h
    · rintro ⟨⟨gap, rfl, -⟩, -⟩
      exact absurd (List.prefix_append name _) hname

/-- Names are tried in their order, and the first one that fits decides. -/
theorem findLevel_eq_findSome? (cs : List Char) (names : List (List Char × Log.Level)) :
    findLevel cs names = names.findSome? fun p => (messageAfter p.1 cs).map (p.2, ·) := by
  induction names with
  | nil => rfl
  | cons p names ih =>
    rw [findLevel, List.findSome?_cons, ih]
    cases messageAfter p.1 cs <;> rfl

theorem announces_of_findLevel {line : String} {level : Log.Level} {message : List Char}
    (h : findLevel line.toList levelNames = some (level, message)) :
    Announces line level (String.ofList message) ∧ '\n' ∉ message := by
  rw [findLevel_eq_findSome?, levelNames_eq, List.findSome?_map] at h
  obtain ⟨tried, htried, hfound⟩ := List.exists_of_findSome?_eq_some h
  obtain ⟨_, hafter, hpair⟩ := Option.map_eq_some_iff.mp hfound
  obtain ⟨rfl, rfl⟩ := Prod.mk.inj hpair
  obtain ⟨hspaced, hnewline⟩ := messageAfter_eq_some_iff.mp hafter
  exact ⟨⟨htried, by rwa [String.toList_ofList]⟩, hnewline⟩

theorem not_announces_of_findLevel {line : String} (h : findLevel line.toList levelNames = none)
    {level : Log.Level} {message : String} (hmessage : '\n' ∉ message.toList) :
    ¬ Announces line level message := by
  rintro ⟨hlevel, hspaced⟩
  rw [findLevel_eq_findSome?, levelNames_eq, List.findSome?_map, List.findSome?_eq_none_iff] at h
  have hafter := messageAfter_eq_some_iff.mpr ⟨hspaced, hmessage⟩
  simpa [hafter] using h level hlevel

/-- What is made of a line: its announcement if that is a single line, and else the line as
information. -/
theorem parseLine_cases (line : String) :
    (∃ level message, parseLine line = (level, message) ∧ Announces line level message ∧
      '\n' ∉ message.toList) ∨
    (parseLine line = (.info, line) ∧
      ∀ level message, '\n' ∉ message.toList → ¬ Announces line level message) := by
  rw [parseLine]
  cases hfind : findLevel line.toList levelNames with
  | none => exact .inr ⟨rfl, fun _ _ hmessage => not_announces_of_findLevel hfind hmessage⟩
  | some found =>
    obtain ⟨hannounces, hnewline⟩ := announces_of_findLevel hfind
    exact .inl ⟨found.1, String.ofList found.2, rfl, hannounces, by rwa [String.toList_ofList]⟩

theorem Announces.newline_notMem {line message : String} {level : Log.Level}
    (h : Announces line level message) (hline : '\n' ∉ line.toList) : '\n' ∉ message.toList :=
  fun hmessage => hline (h.2.mem_of_mem_rest hmessage)

/-- What is made of a line without a newline, in terms of announcements alone. -/
theorem parseLine_cases_of_newline_notMem {line : String} (hline : '\n' ∉ line.toList) :
    Announces line (parseLine line).1 (parseLine line).2 ∨
    (parseLine line = (.info, line) ∧ ∀ level message, ¬ Announces line level message) := by
  obtain ⟨level, message, hparse, hannounces, -⟩ | ⟨hparse, hnone⟩ := parseLine_cases line
  · exact .inl (by rwa [hparse])
  · exact .inr ⟨hparse, fun level message h => hnone level message (h.newline_notMem hline) h⟩

/-- A line without a newline is parsed to one of the levels that can be announced, and a message,
if and only if it announces this level with this message.  If it announces nothing, it is
information, and the message is the whole line. -/
theorem announcements_are_recognized_exactly (line : String) (hline : '\n' ∉ line.toList) :
    (∀ level ∈ announced, ∀ message,
      parseLine line = (level, message) ↔ Announces line level message) ∧
    ((∀ level message, ¬ Announces line level message) → parseLine line = (.info, line)) := by
  obtain hannounces | ⟨hparse, hnone⟩ := parseLine_cases_of_newline_notMem hline
  · refine ⟨fun level _ message => ?_, fun hnone => absurd hannounces (hnone _ _)⟩
    rw [Prod.ext_iff]
    constructor
    · rintro ⟨rfl, rfl⟩
      exact hannounces
    · -- What was found may have been found first; nothing else could have been.
      exact hannounces.unique
  · refine ⟨fun level hlevel message => ?_, fun _ => hparse⟩
    constructor
    · intro h
      obtain ⟨rfl, -⟩ := Prod.mk.inj (hparse.symm.trans h)
      exact absurd hlevel (by decide)
    · exact fun h => absurd h (hnone level message)

/-- The gap may be of any blanks, and the message may look like an announcement again.  A name
that only starts a longer word announces nothing. -/
theorem announcements_in_wide_gap_and_longer_word :
    '\n' ∉ "WARN\t\u3000ERROR  late".toList ∧
    Announces "WARN\t\u3000ERROR  late" .warn "ERROR  late" ∧
    parseLine "WARN\t\u3000ERROR  late" = (.warn, "ERROR  late") ∧
    '\n' ∉ "DEBUGGING on".toList ∧
    (∀ level ∈ announced, ∀ message, ¬ Announces "DEBUGGING on" level message) ∧
    parseLine "DEBUGGING on" = (.info, "DEBUGGING on") := by
  have hwide : Announces "WARN\t\u3000ERROR  late" .warn "ERROR  late" :=
    ⟨by decide, ['\t', '\u3000'], by decide, by decide, by simp [Text.isBlank],
      by simp [Text.isBlank]⟩
  have hword : parseLine "DEBUGGING on" = (.info, "DEBUGGING on") := by decide
  refine ⟨by decide, hwide, ?_, by decide, ?_, hword⟩
  · exact ((announcements_are_recognized_exactly _ (by decide)).1 .warn (by decide) _).mpr hwide
  · intro level hlevel message h
    have hexact := (announcements_are_recognized_exactly "DEBUGGING on" (by decide)).1
    obtain ⟨rfl, -⟩ := Prod.mk.inj (hword.symm.trans ((hexact level hlevel message).mpr h))
    exact absurd hlevel (by decide)

/-! ## Lines of an output -/

theorem newline_notMem_of_mem_splitLines {stream l : Bytes} (hl : l ∈ splitLines [] stream) :
    10 ∉ l := by
  have hcut : HasLines stream (splitLines [] stream) := hasLines_iff.mpr rfl
  obtain ⟨ended, last, -, hended, hlast, hlines⟩ := hcut
  rw [hlines] at hl
  rcases List.mem_append.mp hl with hl | hl
  · obtain ⟨whole, hwhole, rfl⟩ := List.mem_map.mp hl
    intro hnewline
    refine hended whole hwhole ?_
    rw [withoutReturn] at hnewline
    split at hnewline
    · exact List.dropLast_subset whole hnewline
    · exact hnewline
  · split at hl
    · cases hl
    · rwa [List.mem_singleton.mp hl]

/-- A line that is read has no newline in it. -/
theorem newline_notMem_of_mem_textLines {stream : Bytes} {s : String} (hs : s ∈ textLines stream) :
    '\n' ∉ s.toList := by
  obtain ⟨rest, hlines, -⟩ := exists_append_textsOf (splitLines [] stream)
  have hbytes : utf8 s ∈ splitLines [] stream := by
    rw [hlines]
    exact List.mem_append_left rest (List.mem_map_of_mem hs)
  intro hnewline
  refine newline_notMem_of_mem_splitLines hbytes ?_
  exact List.mem_flatMap.mpr ⟨'\n', hnewline, by decide⟩

/-- The log line tells what the line of output announces, or the line of output itself. -/
def Tells (s : String) (l : Log.Line) : Prop :=
  Announces s l.level l.message ∨
    (l.level = .info ∧ l.message = s ∧ ∀ level message, ¬ Announces s level message)

/-- For every line that is read from an output one line is logged, in the same order, and it tells
what the line read announces. -/
theorem outputLines_tell (stream : Bytes) :
    List.Forall₂ Tells (textLines stream) (outputLines stream) := by
  rw [outputLines, List.forall₂_map_right_iff, List.forall₂_same]
  intro s hs
  obtain hannounces | ⟨hparse, hnone⟩ :=
    parseLine_cases_of_newline_notMem (newline_notMem_of_mem_textLines hs)
  · exact .inl hannounces
  · exact .inr ⟨congrArg Prod.fst hparse, congrArg Prod.snd hparse, hnone⟩

end LintRelay.Bridge
