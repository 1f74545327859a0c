import LintRelay.Proofs.Glob.Meaning
import LintRelay.Proofs.Path
import LintRelay.Proofs.Text.Utf8
import Mathlib.Data.List.Forall2
set_option autoImplicit false

/-!
# Globs and segments

A glob without classes and groups is read character by character, and as long as no two stars
stand together, every character gives one token (`parseChars_of_simple`).  Inside a segment, as
`Scope.segment` has it, such a glob can be compared with a text segment by segment: `*` stands
for any bytes of a segment, `?` for one, and every other character for its own
(`matchesText_iff_segments`).  The matcher knows nothing of segments: that no star takes a slash is
what makes the two agree.

Two stars between slashes, and in front, cover whole subtrees.
-/

namespace LintRelay.Glob

open LintRelay.Text (Bytes)
open LintRelay.Path (segments)

/-! ## Reading globs without classes and groups -/

/-- The characters that belong to classes and groups, and the one that escapes. -/
def structural : List Char := ['[', '\x7b', '\x7d', '\\']

/-- The token of a character that stands alone. -/
def tokenOf (c : Char) : Token :=
  if c = '?' then .any else if c = '*' then .zeroOrMore else .literal c

namespace Reader

/-- The tokens that a reader comes to when it has read what is left. -/
def tokens (r : Reader) (cs : List Char) : Except Fault (List Token) :=
  match r.readAll cs with
  | .ok r => r.finish
  | .error f => .error f

theorem tokens_cons {r next : Reader} {c : Char} (h : r.step c = .ok next) (cs : List Char) :
    r.tokens (c :: cs) = next.tokens cs := by
  simp [tokens, readAll, h]

theorem plainChar_of_simple (mode : Mode) (previous : Option Char) (current : Read) {c : Char}
    (hc : c ∉ structural) (hstar : c ≠ '*') :
    (Reader.mk mode previous current []).plainChar c =
      .ok ⟨.plain, previous, tokenOf c :: current, []⟩ := by
  simp only [structural, List.mem_cons, List.not_mem_nil, or_false, not_or] at hc
  obtain ⟨hclass, hopen, hclose, hescape⟩ := hc
  by_cases hany : c = '?'
  · simp [plainChar, push, tokenOf, hany]
  · by_cases hcomma : c = ','
    · simp [plainChar, comma, push, tokenOf, hcomma]
    · simp [plainChar, push, tokenOf, hany, hstar, hclass, hopen, hclose, hescape, hcomma]

theorem step_of_simple (previous : Option Char) (current : Read) {c : Char}
    (hc : c ∉ structural) (hstar : c ≠ '*') :
    (Reader.mk .plain previous current []).step c =
      .ok ⟨.plain, some c, tokenOf c :: current, []⟩ := by
  simp [step, consume, plainChar_of_simple _ _ _ hc hstar]

/-- Every character gives its token.  A star is settled by the character behind it, so what is
said of a reader that has just passed one goes along in the induction. -/
theorem tokens_of_simple {cs : List Char} (hsimple : ∀ c ∈ cs, c ∉ structural)
    (hstars : ¬ ['*', '*'] <:+: cs) :
    (∀ previous current, (Reader.mk .plain previous current []).tokens cs =
      .ok (current.reverse ++ cs.map tokenOf)) ∧
    (cs.head? ≠ some '*' → ∀ before previous current,
      (Reader.mk (.star before) previous current []).tokens cs =
        .ok (current.reverse ++ .zeroOrMore :: cs.map tokenOf)) := by
  induction cs with
  | nil => exact ⟨fun _ _ => by simp [tokens, readAll, finish, settle, inGroup],
      fun _ _ _ _ => by simp [tokens, readAll, finish, settle, inGroup, push]⟩
  | cons c rest ih =>
    obtain ⟨hc, hrest⟩ := List.forall_mem_cons.mp hsimple
    obtain ⟨hplain, hstar⟩ := ih hrest fun h => hstars (h.trans (List.suffix_cons c rest).isInfix)
    constructor
    · intro previous current
      by_cases hcstar : c = '*'
      · subst hcstar
        have hhead : rest.head? ≠ some '*' := by
          intro hhead
          obtain ⟨more, rfl⟩ := List.head?_eq_some_iff.mp hhead
          exact hstars ⟨[], more, rfl⟩
        have hstep : (Reader.mk .plain previous current []).step '*' =
            .ok ⟨.star previous, some '*', current, []⟩ := rfl
        rw [tokens_cons hstep, hstar hhead]
        rfl
      · rw [tokens_cons (step_of_simple previous current hc hcstar), hplain]
        simp
    · intro hhead before previous current
      have hcstar : c ≠ '*' := fun h => hhead (congrArg some h)
      have hstep : (Reader.mk (.star before) previous current []).step c =
          .ok ⟨.plain, some c, tokenOf c :: .zeroOrMore :: current, []⟩ := by
        simp [step, consume, push, hcstar, plainChar_of_simple _ _ _ hc hcstar]
      rw [tokens_cons hstep, hplain]
      simp

/-- The tokens of literal characters are behind the reader when it goes on. -/
theorem tokens_append_of_literal {q : List Char}
    (hliteral : ∀ c ∈ q, c ∉ structural ∧ c ≠ '*') (previous : Option Char) (current : Read)
    (cs : List Char) :
    ∃ last, (Reader.mk .plain previous current []).tokens (q ++ cs) =
      (Reader.mk .plain last ((q.map tokenOf).reverse ++ current) []).tokens cs := by
  induction q generalizing previous current with
  | nil => exact ⟨previous, rfl⟩
  | cons c rest ih =>
    obtain ⟨⟨hc, hcstar⟩, hrest⟩ := List.forall_mem_cons.mp hliteral
    obtain ⟨last, hlast⟩ := ih hrest (some c) (tokenOf c :: current)
    refine ⟨last, ?_⟩
    rw [List.cons_append, tokens_cons (step_of_simple previous current hc hcstar), hlast]
    simp

end Reader

theorem parseChars_of_simple {cs : List Char} (hsimple : ∀ c ∈ cs, c ∉ structural)
    (hstars : ¬ ['*', '*'] <:+: cs) : parseChars cs = .ok (cs.map tokenOf) :=
  (Reader.tokens_of_simple hsimple hstars).1 none []

/-- Two stars behind a slash and in front of one are a token together with the first slash. -/
theorem parseChars_subtree {q : List Char} (hliteral : ∀ c ∈ q, c ∉ structural ∧ c ≠ '*') :
    parseChars (q ++ "/**/*".toList) =
      .ok (q.map tokenOf ++ [.innerSegments, .zeroOrMore]) := by
  obtain ⟨last, hlast⟩ := Reader.tokens_append_of_literal hliteral none [] "/**/*".toList
  have hend : (Reader.mk .plain last ((q.map tokenOf).reverse ++ []) []).tokens "/**/*".toList =
      .ok ((.zeroOrMore :: .innerSegments :: ((q.map tokenOf).reverse ++ [])).reverse) := rfl
  refine (hlast.trans hend).trans ?_
  simp

theorem parseChars_everything :
    parseChars "**/*".toList = .ok [.leadingSegments, .zeroOrMore] := rfl

/-! ## Subtrees -/

theorem encodeChar_slash : String.utf8EncodeChar '/' = [slash] := by decide

theorem slash_notMem_encodeChar {c : Char} (hc : c ≠ '/') : slash ∉ String.utf8EncodeChar c := by
  intro hmem
  have hcode := Text.toNat_of_mem_encodeChar hmem (by decide)
  exact hc (Char.toNat_inj.mp hcode.symm)

theorem admits_segment_iff {b : UInt8} : Scope.segment.admits b = true ↔ b ≠ slash := by
  simp [Scope.admits]

theorem takes_zeroOrMore_iff {taken : Bytes} :
    Token.zeroOrMore.Takes .segment taken ↔ slash ∉ taken := by
  simp only [Token.Takes, admits_segment_iff]
  exact ⟨fun h hmem => h slash hmem rfl, fun h b hb hslash => h (hslash ▸ hb)⟩

/-- All bytes are whole segments and, behind them, bytes without a slash. -/
theorem exists_last_run (bytes : Bytes) :
    ∃ front run, bytes = front ++ run ∧ Token.leadingSegments.Takes .segment front ∧
      slash ∉ run := by
  induction bytes with
  | nil => exact ⟨[], [], rfl, .inl rfl, by simp⟩
  | cons b rest ih =>
    obtain ⟨front, run, rfl, rfl | ⟨names, rfl⟩, hrun⟩ := ih
    · by_cases hb : b = slash
      · exact ⟨[b], run, rfl, .inr ⟨[], by rw [hb]; rfl⟩, hrun⟩
      · exact ⟨[], b :: run, rfl, .inl rfl, by simp [hrun, Ne.symm hb]⟩
    · exact ⟨b :: (names ++ [slash]), run, rfl, .inr ⟨b :: names, rfl⟩, hrun⟩

theorem stands_everything (bytes : Bytes) :
    Stands .segment [.leadingSegments, .zeroOrMore] bytes := by
  obtain ⟨front, run, rfl, hfront, hrun⟩ := exists_last_run bytes
  exact ⟨front, run, rfl, hfront, run, [], by simp, takes_zeroOrMore_iff.mpr hrun, rfl⟩

/-- Whatever stands below a directory stands behind a slash. -/
theorem stands_below_iff {bytes : Bytes} :
    Stands .segment [.innerSegments, .zeroOrMore] bytes ↔ ∃ rest, bytes = slash :: rest := by
  constructor
  · rintro ⟨_, rest, rfl, ⟨front, rfl, -⟩, -⟩
    exact ⟨front ++ rest, rfl⟩
  · rintro ⟨rest, rfl⟩
    obtain ⟨front, run, rfl, hfront, hrun⟩ := exists_last_run rest
    exact ⟨slash :: front, run, rfl, ⟨front, rfl, hfront⟩, run, [], by simp,
      takes_zeroOrMore_iff.mpr hrun, rfl⟩

/-- Characters other than wildcards stand for themselves. -/
theorem stands_literals_iff {scope : Scope} {q : List Char}
    (hliteral : ∀ c ∈ q, c ≠ '*' ∧ c ≠ '?') {bytes : Bytes} :
    Stands scope (q.map tokenOf) bytes ↔ bytes = Text.utf8Chars q := by
  induction q generalizing bytes with
  | nil => exact Iff.rfl
  | cons c rest ih =>
    obtain ⟨⟨hstar, hany⟩, hrest⟩ := List.forall_mem_cons.mp hliteral
    simp [Stands, tokenOf, hstar, hany, Token.Takes, ih hrest, Text.utf8Chars_cons]

/-! ## Segment by segment -/

/-- A character of a pattern stands for bytes: a star for any, a question mark for one byte,
and every other character for its own bytes. -/
def CharTakes (c : Char) (taken : Bytes) : Prop :=
  if c = '*' then True else if c = '?' then taken.length = 1 else taken = String.utf8EncodeChar c

/-- The characters, one behind the other, stand for the bytes of one segment. -/
def SegmentStands : List Char → Bytes → Prop
  | [], bytes => bytes = []
  | c :: more, bytes =>
    ∃ taken rest, bytes = taken ++ rest ∧ CharTakes c taken ∧ SegmentStands more rest

/-- Inside a segment a token takes what its character stands for, if there is no slash. -/
theorem takes_tokenOf_iff {c : Char} (hc : c ≠ '/') {taken : Bytes} :
    (tokenOf c).Takes .segment taken ↔ CharTakes c taken ∧ slash ∉ taken := by
  by_cases hany : c = '?'
  · subst hany
    simp only [tokenOf, CharTakes, if_true, Token.Takes, admits_segment_iff,
      List.length_eq_one_iff]
    constructor
    · rintro ⟨b, hb, rfl⟩
      exact ⟨⟨b, rfl⟩, by simpa using Ne.symm hb⟩
    · rintro ⟨⟨b, rfl⟩, hb⟩
      exact ⟨b, fun h => hb (h ▸ List.mem_singleton.mpr rfl), rfl⟩
  · by_cases hstar : c = '*'
    · subst hstar
      simp [tokenOf, CharTakes, takes_zeroOrMore_iff]
    · simp only [tokenOf, CharTakes, hany, hstar, if_false, Token.Takes]
      constructor
      · rintro rfl
        exact ⟨rfl, slash_notMem_encodeChar hc⟩
      · exact And.left

theorem splitOn_slash_cons (bytes : Bytes) :
    (slash :: bytes).splitOn slash = [] :: bytes.splitOn slash := by
  simp [List.splitOn, List.splitOnP_cons_eq_if_modifyHead]

theorem splitOn_cons_of_ne {b : UInt8} (hb : b ≠ slash) {bytes x : Bytes} {xs : List Bytes}
    (hbytes : bytes.splitOn slash = x :: xs) : (b :: bytes).splitOn slash = (b :: x) :: xs := by
  unfold List.splitOn at hbytes ⊢
  simp [List.splitOnP_cons_eq_if_modifyHead, hb, hbytes]

/-- Bytes without a slash in front belong to the first segment. -/
theorem splitOn_append_of_notMem {taken : Bytes} (h : slash ∉ taken) {rest x : Bytes}
    {xs : List Bytes} (hrest : rest.splitOn slash = x :: xs) :
    (taken ++ rest).splitOn slash = (taken ++ x) :: xs := by
  induction taken with
  | nil => exact hrest
  | cons b taken ih =>
    have hb : slash ≠ b := List.ne_of_not_mem_cons h
    exact splitOn_cons_of_ne hb.symm (ih (List.not_mem_of_not_mem_cons h))

/-- What the first segment starts with, the bytes start with, and there is no slash in it. -/
theorem exists_of_splitOn_eq {bytes taken x : Bytes} {xs : List Bytes}
    (h : bytes.splitOn slash = (taken ++ x) :: xs) :
    ∃ rest, bytes = taken ++ rest ∧ rest.splitOn slash = x :: xs ∧ slash ∉ taken := by
  induction taken generalizing bytes with
  | nil => exact ⟨bytes, rfl, h, by simp⟩
  | cons b taken ih =>
    cases bytes with
    | nil => cases h
    | cons b' more =>
      by_cases hb : b' = slash
      · rw [hb, splitOn_slash_cons] at h
        cases h
      · obtain ⟨y, ys, hmore⟩ := List.exists_cons_of_ne_nil (List.splitOn_ne_nil slash more)
        rw [splitOn_cons_of_ne hb hmore] at h
        obtain ⟨hfirst, rfl⟩ := List.cons.inj h
        obtain ⟨rfl, rfl⟩ := List.cons.inj hfirst
        obtain ⟨rest, rfl, hrest, htaken⟩ := ih hmore
        exact ⟨rest, rfl, hrest, List.not_mem_cons_of_ne_of_not_mem (Ne.symm hb) htaken⟩

/-- An empty first segment, and another one behind it, mean a slash in front. -/
theorem exists_of_splitOn_eq_nil_cons {bytes x : Bytes} {xs : List Bytes}
    (h : bytes.splitOn slash = [] :: x :: xs) :
    ∃ rest, bytes = slash :: rest ∧ rest.splitOn slash = x :: xs := by
  cases bytes with
  | nil => cases h
  | cons b more =>
    by_cases hb : b = slash
    · subst hb
      rw [splitOn_slash_cons] at h
      exact ⟨more, rfl, (List.cons.inj h).2⟩
    · obtain ⟨y, ys, hmore⟩ := List.exists_cons_of_ne_nil (List.splitOn_ne_nil slash more)
      rw [splitOn_cons_of_ne hb hmore] at h
      cases h

theorem eq_nil_of_splitOn_eq {bytes : Bytes} (h : bytes.splitOn slash = [[]]) : bytes = [] := by
  cases bytes with
  | nil => rfl
  | cons b more =>
    obtain ⟨y, ys, hmore⟩ := List.exists_cons_of_ne_nil (List.splitOn_ne_nil slash more)
    by_cases hb : b = slash
    · rw [hb, splitOn_slash_cons, hmore] at h
      cases h
    · rw [splitOn_cons_of_ne hb hmore] at h
      cases h

theorem segments_cons_of_ne {c : Char} (hc : c ≠ '/') {cs first : List Char}
    {more : List (List Char)} (hcs : segments cs = first :: more) :
    segments (c :: cs) = (c :: first) :: more := by
  simp [segments, hc, hcs]

/-- The bytes of the segments of a text are the segments of its bytes. -/
theorem splitOn_utf8Chars (cs : List Char) :
    (Text.utf8Chars cs).splitOn slash = (segments cs).map Text.utf8Chars := by
  induction cs with
  | nil => rfl
  | cons c cs ih =>
    rw [Text.utf8Chars_cons]
    by_cases hc : c = '/'
    · subst hc
      rw [encodeChar_slash, List.singleton_append, splitOn_slash_cons, ih]
      rfl
    · obtain ⟨first, more, hcs⟩ := List.exists_cons_of_ne_nil (Path.segments_ne_nil cs)
      rw [hcs, List.map_cons] at ih
      rw [splitOn_append_of_notMem (slash_notMem_encodeChar hc) ih, segments_cons_of_ne hc hcs,
        List.map_cons, Text.utf8Chars_cons]

/-- A glob stands for bytes when its segments stand for theirs. -/
theorem stands_iff_segments {q : List Char} {bytes : Bytes} :
    Stands .segment (q.map tokenOf) bytes ↔
      List.Forall₂ SegmentStands (segments q) (bytes.splitOn slash) := by
  induction q generalizing bytes with
  | nil =>
    constructor
    · rintro rfl
      exact .cons rfl .nil
    · intro h
      obtain ⟨x, xs, hx, hxs, hbytes⟩ := List.forall₂_cons_left_iff.mp h
      obtain rfl := List.forall₂_nil_left_iff.mp hxs
      obtain rfl : x = [] := hx
      exact eq_nil_of_splitOn_eq hbytes
  | cons c q ih =>
    obtain ⟨first, more, hq⟩ := List.exists_cons_of_ne_nil (Path.segments_ne_nil q)
    by_cases hc : c = '/'
    · -- The slash ends an empty segment on both sides.
      subst hc
      have hsegments : segments ('/' :: q) = [] :: segments q := rfl
      rw [hsegments]
      constructor
      · rintro ⟨_, rest, rfl, htakes, hstands⟩
        obtain rfl := htakes.trans encodeChar_slash
        rw [List.singleton_append, splitOn_slash_cons]
        exact .cons rfl (ih.mp hstands)
      · intro h
        obtain ⟨x, xs, hx, hxs, hbytes⟩ := List.forall₂_cons_left_iff.mp h
        obtain rfl : x = [] := hx
        obtain ⟨y, ys, -, -, rfl⟩ := List.forall₂_cons_left_iff.mp (hq ▸ hxs)
        obtain ⟨rest, rfl, hrest⟩ := exists_of_splitOn_eq_nil_cons hbytes
        exact ⟨[slash], rest, rfl, encodeChar_slash.symm, ih.mpr (hrest ▸ hxs)⟩
    · -- What the character takes belongs to the first segment on both sides.
      rw [segments_cons_of_ne hc hq]
      rw [hq] at ih
      constructor
      · rintro ⟨taken, rest, rfl, htakes, hstands⟩
        obtain ⟨hchar, htaken⟩ := (takes_tokenOf_iff hc).mp htakes
        obtain ⟨x, xs, hx, hxs, hrest⟩ := List.forall₂_cons_left_iff.mp (ih.mp hstands)
        rw [splitOn_append_of_notMem htaken hrest]
        exact .cons ⟨taken, x, rfl, hchar, hx⟩ hxs
      · intro h
        obtain ⟨_, xs, ⟨taken, x, rfl, hchar, hx⟩, hxs, hbytes⟩ := List.forall₂_cons_left_iff.mp h
        obtain ⟨rest, rfl, hrest, htaken⟩ := exists_of_splitOn_eq hbytes
        exact ⟨taken, rest, rfl, (takes_tokenOf_iff hc).mpr ⟨hchar, htaken⟩,
          ih.mpr (hrest ▸ .cons hx hxs)⟩

theorem eq_of_isEverything {tokens : List Token} (h : isEverything tokens = true) :
    tokens = [.leadingSegments] := by
  unfold isEverything at h
  split at h
  · rfl
  · cases h

theorem tokenOf_ne_leadingSegments (c : Char) : tokenOf c ≠ .leadingSegments := by
  unfold tokenOf
  split_ifs <;> simp

theorem not_isEverything_map_tokenOf (q : List Char) : ¬ isEverything (q.map tokenOf) = true := by
  intro h
  obtain ⟨c, -, hc⟩ := List.map_eq_singleton_iff.mp (eq_of_isEverything h)
  exact tokenOf_ne_leadingSegments c hc

/-! ## Matching texts -/

/-- A glob matches a text when they have equally many segments and those of the glob stand for
those of the text. -/
theorem matchesText_iff_segments {q : List Char} {s : String} :
    matchesText .segment (q.map tokenOf) s = true ↔
      List.Forall₂ (fun pattern name => SegmentStands pattern (Text.utf8Chars name))
        (segments q) (segments s.toList) := by
  rw [matchesText, isMatch_iff, or_iff_right (not_isEverything_map_tokenOf q),
    stands_iff_segments, Text.utf8, splitOn_utf8Chars, List.forall₂_map_right_iff]

theorem matchesText_literals_iff (scope : Scope) {q : List Char}
    (hliteral : ∀ c ∈ q, c ≠ '*' ∧ c ≠ '?') {s : String} :
    matchesText scope (q.map tokenOf) s = true ↔ s.toList = q := by
  rw [matchesText, isMatch_iff, or_iff_right (not_isEverything_map_tokenOf q),
    stands_literals_iff hliteral, Text.utf8, Text.utf8Chars_inj]

/-- With two stars behind a slash, the text has to go on below the characters in front. -/
theorem matchesText_subtree_iff {q : List Char} (hliteral : ∀ c ∈ q, c ≠ '*' ∧ c ≠ '?')
    {s : String} :
    matchesText .segment (q.map tokenOf ++ [.innerSegments, .zeroOrMore]) s = true ↔
      q ++ ['/'] <+: s.toList := by
  have hmore : ¬ isEverything (q.map tokenOf ++ [.innerSegments, .zeroOrMore]) = true := by
    intro h
    have hlength := congrArg List.length (eq_of_isEverything h)
    simp at hlength
  have hbytes : Text.utf8Chars (q ++ ['/']) = Text.utf8Chars q ++ [slash] := by
    rw [Text.utf8Chars_append]
    rfl
  rw [matchesText, isMatch_iff, or_iff_right hmore, stands_append_iff, Text.utf8,
    ← Text.utf8Chars_isPrefix_iff, hbytes]
  simp only [stands_literals_iff hliteral, stands_below_iff]
  constructor
  · rintro ⟨_, _, htext, rfl, rest, rfl⟩
    exact ⟨rest, by rw [htext, List.append_assoc]; rfl⟩
  · rintro ⟨rest, htext⟩
    exact ⟨_, slash :: rest, by rw [← htext, List.append_assoc]; rfl, rfl, rest, rfl⟩

theorem matchesText_everything (s : String) :
    matchesText .segment [.leadingSegments, .zeroOrMore] s = true :=
  isMatch_iff.mpr (.inr (stands_everything _))

end LintRelay.Glob
