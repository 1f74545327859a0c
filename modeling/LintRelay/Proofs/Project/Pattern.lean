import LintRelay.Proofs.Glob.Segments
import LintRelay.Proofs.Project.Assignment
set_option autoImplicit false

/-!
# What the patterns of a configuration cover

A pattern is written around its core: `./` in front of it and slashes behind it say nothing.
`Spells` gives this as a property of the written pattern.  Every pattern has such a core
(`exists_spells`), and the core is what expansion works with (`core_of_spells`).

A core without wildcards whose last segment has no dot names a directory, and the two globs
that it is expanded to cover together the directory and all below it, and nothing beside it.
Any other core without classes and groups is one glob, and covers paths segment by segment.
-/

namespace LintRelay

open Glob (structural SegmentStands)

namespace Pattern

/-! ## The core of a pattern -/

/-- The pattern is its core with any number of `./` in front and of slashes behind. -/
structure Spells (p core : List Char) : Prop where
  dressed : ∃ heres slashes : Nat,
    p = (List.replicate heres ['.', '/']).flatten ++ (core ++ List.replicate slashes '/')
  front : ¬ ['.', '/'] <+: core
  back : core.getLast? ≠ some '/'

theorem dropHere_heres (n : Nat) (cs : List Char) :
    dropHere ((List.replicate n ['.', '/']).flatten ++ cs) = dropHere cs := by
  induction n with
  | zero => rfl
  | succ n ih =>
    rw [List.replicate_succ, List.flatten_cons]
    exact ih

theorem dropHere_of_not_isPrefix {cs : List Char} (h : ¬ ['.', '/'] <+: cs) :
    dropHere cs = cs := by
  unfold dropHere
  split
  · exact absurd ⟨_, rfl⟩ h
  · rfl

theorem dropTrailing_slashes {cs : List Char} (h : cs.getLast? ≠ some '/') (n : Nat) :
    dropTrailing (cs ++ List.replicate n '/') = cs := by
  unfold dropTrailing
  rw [List.reverse_append, List.reverse_replicate,
    List.dropWhile_append_of_pos fun c hc => by simp [List.eq_of_mem_replicate hc]]
  rw [← List.head?_reverse] at h
  cases hreverse : cs.reverse with
  | nil => simpa using hreverse.symm
  | cons c rest =>
    have hc : c ≠ '/' := fun hc => h (by simp [hreverse, hc])
    rw [List.dropWhile_cons_of_neg (by simpa using hc), ← hreverse, List.reverse_reverse]

/-- The slashes behind the core do not make another `./` of it, unless it is a dot. -/
theorem Spells.not_isPrefix {p core : List Char} (h : Spells p core) (hdot : core ≠ ['.'])
    (slashes : Nat) : ¬ ['.', '/'] <+: core ++ List.replicate slashes '/' := by
  intro hprefix
  have hfront := h.front
  rcases core with _ | ⟨c, _ | ⟨d, rest⟩⟩
  · cases slashes <;> simp [List.replicate_succ] at hprefix
  · obtain ⟨rfl, -⟩ := List.cons_prefix_cons.mp hprefix
    exact hdot rfl
  · obtain ⟨rfl, hrest⟩ := List.cons_prefix_cons.mp hprefix
    obtain ⟨rfl, -⟩ := List.cons_prefix_cons.mp hrest
    exact hfront ⟨rest, rfl⟩

theorem core_of_spells {p core : List Char} (h : Spells p core) (hdot : core ≠ ['.']) :
    Pattern.core p = core := by
  obtain ⟨heres, slashes, rfl⟩ := h.dressed
  rw [Pattern.core, dropHere_heres, dropHere_of_not_isPrefix (h.not_isPrefix hdot slashes),
    dropTrailing_slashes h.back, if_neg hdot]

theorem exists_dropHere (p : List Char) :
    ∃ heres, p = (List.replicate heres ['.', '/']).flatten ++ dropHere p ∧
      ¬ ['.', '/'] <+: dropHere p := by
  fun_induction dropHere p with
  | case1 rest ih =>
    obtain ⟨heres, hrest, hfront⟩ := ih
    refine ⟨heres + 1, ?_, hfront⟩
    rw [List.replicate_succ, List.flatten_cons, List.append_assoc, ← hrest]
    rfl
  | case2 cs hother =>
    refine ⟨0, rfl, ?_⟩
    rintro ⟨rest, rfl⟩
    exact hother rest rfl

theorem exists_dropTrailing (cs : List Char) :
    ∃ slashes, cs = dropTrailing cs ++ List.replicate slashes '/' ∧
      (dropTrailing cs).getLast? ≠ some '/' := by
  refine ⟨(cs.reverse.takeWhile (· = '/')).length, ?_, ?_⟩
  · have hslashes : cs.reverse.takeWhile (· = '/') =
        List.replicate (cs.reverse.takeWhile (· = '/')).length '/' :=
      List.eq_replicate_of_mem fun c hc => by
        simpa using List.all_eq_true.mp List.all_takeWhile c hc
    rw [dropTrailing, ← List.reverse_replicate, ← hslashes, ← List.reverse_append,
      List.takeWhile_append_dropWhile, List.reverse_reverse]
  · have hhead := List.head?_dropWhile_not (· = '/') cs.reverse
    rw [dropTrailing, List.getLast?_reverse]
    intro hslash
    rw [hslash] at hhead
    simp at hhead

/-- Every pattern is written around a core. -/
theorem exists_spells (p : List Char) : ∃ core, Spells p core := by
  obtain ⟨heres, hhere, hfront⟩ := exists_dropHere p
  obtain ⟨slashes, htrailing, hback⟩ := exists_dropTrailing (dropHere p)
  refine ⟨dropTrailing (dropHere p), ⟨heres, slashes, ?_⟩, ?_, hback⟩
  · rw [← htrailing]
    exact hhere
  · intro h
    rw [htrailing] at hfront
    exact hfront (h.trans (List.prefix_append _ _))

/-- The core is written in the pattern without a gap. -/
theorem Spells.isInfix {p core : List Char} (h : Spells p core) : core <:+: p := by
  obtain ⟨heres, slashes, rfl⟩ := h.dressed
  exact ⟨_, _, List.append_assoc _ _ _⟩

/-! ## Expansion -/

theorem lastSegment_eq (cs : List Char) : (Path.segments cs).getLast? = some (lastSegment cs) := by
  have hlast : '/' ∉ lastSegment cs := by
    intro hmem
    have htaken := List.all_eq_true.mp List.all_takeWhile '/' (List.mem_reverse.mp hmem)
    simp at htaken
  have hsplit : cs = (cs.reverse.dropWhile (· ≠ '/')).reverse ++ lastSegment cs := by
    rw [lastSegment, ← List.reverse_append, List.takeWhile_append_dropWhile, List.reverse_reverse]
  cases hfront : cs.reverse.dropWhile (· ≠ '/') with
  | nil =>
    rw [hfront, List.reverse_nil, List.nil_append] at hsplit
    rw [← hsplit] at hlast ⊢
    rw [Path.segments_of_slash_notMem hlast]
    rfl
  | cons c front =>
    have hc : c = '/' := by
      have hhead := List.head?_dropWhile_not (· ≠ '/') cs.reverse
      rw [hfront] at hhead
      simpa using hhead
    rw [hfront, hc, List.reverse_cons, List.append_assoc, List.singleton_append] at hsplit
    generalize lastSegment cs = last at hsplit hlast ⊢
    rw [hsplit, Path.segments_append, Path.segments_of_slash_notMem hlast,
      List.getLast?_concat]

/-- The core names a directory: it has no wildcards, and no dot in its last segment. -/
structure NamesDirectory (q : List Char) : Prop where
  nonempty : q ≠ []
  literal : ∀ c ∈ q, c ∉ structural ∧ c ≠ '*' ∧ c ≠ '?'
  undotted : ∀ last ∈ (Path.segments q).getLast?, '.' ∉ last

theorem NamesDirectory.notMem_lastSegment {q : List Char} (h : NamesDirectory q) :
    '.' ∉ lastSegment q :=
  h.undotted _ (lastSegment_eq q)

theorem NamesDirectory.ne_dot {q : List Char} (h : NamesDirectory q) : q ≠ ['.'] := by
  rintro rfl
  exact h.notMem_lastSegment (by decide)

theorem NamesDirectory.isWildcard_eq_false {q : List Char} (h : NamesDirectory q) {c : Char}
    (hc : c ∈ q) : isWildcard c = false := by
  obtain ⟨hstructural, hstar, hany⟩ := h.literal c hc
  simp only [structural, List.mem_cons, not_or] at hstructural
  simp [isWildcard, hstar, hany, hstructural.1, hstructural.2.1]

theorem expandChars_of_namesDirectory {p q : List Char} (hp : Spells p q)
    (hq : NamesDirectory q) : expandChars p = [q, q ++ '/' :: everything] := by
  have hwild : q.any isWildcard = false :=
    List.any_eq_false.mpr fun c hc => by simp [hq.isWildcard_eq_false hc]
  simp [expandChars, core_of_spells hp hq.ne_dot, hwild, hq.notMem_lastSegment, hq.nonempty]

/-- A core with a wildcard, or with a dot in its last segment, is a glob by itself. -/
theorem expandChars_of_glob {p q : List Char} (hp : Spells p q) (hdot : q ≠ ['.'])
    (hglob : '*' ∈ q ∨ '?' ∈ q ∨ ∃ last ∈ (Path.segments q).getLast?, '.' ∈ last) :
    expandChars p = [q] := by
  have hsingle : (q.any isWildcard || (lastSegment q).contains '.') = true := by
    rw [Bool.or_eq_true, List.any_eq_true]
    rcases hglob with hstar | hany | ⟨last, hlast, hmem⟩
    · exact .inl ⟨'*', hstar, rfl⟩
    · exact .inl ⟨'?', hany, rfl⟩
    · obtain rfl : lastSegment q = last := Option.some.inj ((lastSegment_eq q).symm.trans hlast)
      exact .inr (List.contains_iff_mem.mpr hmem)
  simp only [expandChars, core_of_spells hp hdot, hsingle, if_true]

end Pattern

/-! ## What a pattern covers -/

namespace ConfigFile

theorem parse_ofList (cs : List Char) : Glob.parse (String.ofList cs) = Glob.parseChars cs := by
  rw [Glob.parse, String.toList_ofList]

theorem globCovers_of_parseChars {cs : List Char} {tokens : List Glob.Token}
    (h : Glob.parseChars cs = .ok tokens) (relative : Path) :
    globCovers relative (String.ofList cs) =
      Glob.matchesText .segment tokens relative.text := by
  rw [globCovers, parse_ofList, h]

/-- The path is the one that the characters spell, or it is below that one. -/
def InSubtree (q : List Char) (relative : Path) : Prop :=
  relative.text.toList = q ∨ q ++ ['/'] <+: relative.text.toList

instance (q : List Char) (relative : Path) : Decidable (InSubtree q relative) :=
  inferInstanceAs (Decidable (_ ∨ _))

theorem patternsCover_singleton (p : String) (relative : Path) :
    patternsCover [p] relative =
      (Pattern.expandChars p.toList).any fun cs => globCovers relative (String.ofList cs) := by
  simp [patternsCover, Pattern.expand, Function.comp_def]

section DirectoryPatterns

variable {p : String} {q : List Char} (hp : Pattern.Spells p.toList q)
  (hq : Pattern.NamesDirectory q)
include hq

theorem parseChars_directory : Glob.parseChars q = .ok (q.map Glob.tokenOf) := by
  refine Glob.parseChars_of_simple (fun c hc => (hq.literal c hc).1) fun hstars => ?_
  exact (hq.literal '*' (hstars.subset List.mem_cons_self)).2.1 rfl

theorem parseChars_below_directory : Glob.parseChars (q ++ '/' :: Pattern.everything) =
    .ok (q.map Glob.tokenOf ++ [.innerSegments, .zeroOrMore]) :=
  Glob.parseChars_subtree fun c hc => ⟨(hq.literal c hc).1, (hq.literal c hc).2.1⟩

include hp

theorem patternsCover_directory_iff (relative : Path) :
    patternsCover [p] relative = true ↔ InSubtree q relative := by
  have hliteral : ∀ c ∈ q, c ≠ '*' ∧ c ≠ '?' := fun c hc => (hq.literal c hc).2
  rw [patternsCover_singleton, Pattern.expandChars_of_namesDirectory hp hq, InSubtree,
    ← Glob.matchesText_literals_iff .segment hliteral,
    ← Glob.matchesText_subtree_iff hliteral]
  simp only [List.any_cons, List.any_nil, Bool.or_false, Bool.or_eq_true,
    globCovers_of_parseChars (parseChars_directory hq),
    globCovers_of_parseChars (parseChars_below_directory hq)]

theorem reads_directory : Pattern.Compiles p := by
  intro g hg
  rw [Pattern.expand, Pattern.expandChars_of_namesDirectory hp hq] at hg
  rcases List.mem_pair.mp hg with rfl | rfl
  · rw [parse_ofList, parseChars_directory hq]
    rfl
  · rw [parse_ofList, parseChars_below_directory hq]
    rfl

end DirectoryPatterns

section SingleGlobs

variable {p : String} {q : List Char} (hp : Pattern.Spells p.toList q) (hdot : q ≠ ['.'])
  (hglob : '*' ∈ q ∨ '?' ∈ q ∨ ∃ last ∈ (Path.segments q).getLast?, '.' ∈ last)
  (hsimple : ∀ c ∈ p.toList, c ∉ structural) (hstars : ¬ ['*', '*'] <:+: p.toList)

include hp hsimple hstars in
theorem parseChars_core : Glob.parseChars q = .ok (q.map Glob.tokenOf) :=
  Glob.parseChars_of_simple (fun c hc => hsimple c (hp.isInfix.subset hc))
    fun h => hstars (h.trans hp.isInfix)

include hp hdot hglob hsimple hstars

theorem patternsCover_glob_iff (relative : Path) :
    patternsCover [p] relative = true ↔
      List.Forall₂ (fun pattern name => SegmentStands pattern (Text.utf8Chars name))
        (Path.segments q) (Path.segments relative.text.toList) := by
  rw [patternsCover_singleton, Pattern.expandChars_of_glob hp hdot hglob, List.any_cons,
    List.any_nil, Bool.or_false, globCovers_of_parseChars (parseChars_core hp hsimple hstars),
    Glob.matchesText_iff_segments]

theorem reads_glob : Pattern.Compiles p := by
  intro g hg
  rw [Pattern.expand, Pattern.expandChars_of_glob hp hdot hglob] at hg
  obtain rfl := List.mem_singleton.mp hg
  rw [parse_ofList, parseChars_core hp hsimple hstars]
  rfl

end SingleGlobs

theorem patternsCover_everything (relative : Path) :
    patternsCover ["**/*"] relative = true := by
  have hexpand : Pattern.expandChars "**/*".toList = ["**/*".toList] := by decide
  rw [patternsCover_singleton, hexpand, List.any_cons, List.any_nil, Bool.or_false,
    globCovers_of_parseChars Glob.parseChars_everything, Glob.matchesText_everything]

/-! ## Configurations with one pattern -/

/-- The configuration with other patterns, and without listed files. -/
def withPatterns (c : ConfigFile) (includes : Option (List String)) (excludes : List String) :
    ConfigFile :=
  { c with files := [], includes := includes, excludes := excludes }

/-- The patterns can be read, and of the paths below its directory the configuration claims
those whose relative path has the property. -/
def ClaimsBelow (c : ConfigFile) (P : Path → Prop) : Prop :=
  ∃ m, ConfigMatcher.ofConfig c = .ok m ∧
    ∀ f relative, Path.below? c.dir f.normalize = some relative → (m.isMatch f = true ↔ P relative)

theorem claimsBelow_withPatterns {c : ConfigFile} {includes : Option (List String)}
    {excludes : List String}
    (h : ∀ p ∈ includes.getD ["**/*"] ++ excludes, Pattern.Compiles p) :
    (c.withPatterns includes excludes).ClaimsBelow fun relative =>
      patternsCover (includes.getD ["**/*"]) relative = true ∧
        ¬ patternsCover excludes relative = true := by
  have heffective :
      (c.withPatterns includes excludes).effectiveIncludes = includes.getD ["**/*"] := by
    cases includes <;> rfl
  have hcompiles : (c.withPatterns includes excludes).Compiles := by
    intro p hp
    rw [heffective] at hp
    exact h p hp
  obtain ⟨m, hm, hmatch⟩ := ConfigMatcher.ofConfig_ok hcompiles
  refine ⟨m, hm, fun f relative hbelow => ?_⟩
  rw [hmatch, matchesPath, hbelow, heffective]
  simp [withPatterns]

theorem ClaimsBelow.congr {c : ConfigFile} {P Q : Path → Prop} (h : c.ClaimsBelow P)
    (hPQ : ∀ relative, P relative ↔ Q relative) : c.ClaimsBelow Q := by
  obtain ⟨m, hm, hmatch⟩ := h
  exact ⟨m, hm, fun f relative hbelow => (hmatch f relative hbelow).trans (hPQ relative)⟩

theorem claimsBelow_include {c : ConfigFile} {p : String} (h : Pattern.Compiles p) :
    (c.withPatterns (some [p]) []).ClaimsBelow fun relative => patternsCover [p] relative = true :=
  (claimsBelow_withPatterns (by simpa using h)).congr fun relative => by simp [patternsCover]

theorem claimsBelow_exclude {c : ConfigFile} {excludes : List String}
    (h : ∀ p ∈ excludes, Pattern.Compiles p) :
    (c.withPatterns none excludes).ClaimsBelow fun relative =>
      ¬ patternsCover excludes relative = true := by
  refine (claimsBelow_withPatterns ?_).congr fun relative => ?_
  · intro p hp
    rcases List.mem_cons.mp hp with rfl | hp
    · decide
    · exact h p hp
  · rw [Option.getD_none, patternsCover_everything, eq_self, true_and]

end ConfigFile

/-- A pattern that names a directory claims the directory and all below it, and nothing beside
it; as an exclude pattern it takes away just these from the paths below the configuration's
directory, which are all claimed when there are no patterns. -/
theorem directory_patterns_cover_subtrees (c : ConfigFile) {p : String} {q : List Char}
    (hp : Pattern.Spells p.toList q) (hq : Pattern.NamesDirectory q) :
    (c.withPatterns (some [p]) []).ClaimsBelow (ConfigFile.InSubtree q) ∧
    (c.withPatterns none [p]).ClaimsBelow (fun relative => ¬ ConfigFile.InSubtree q relative) ∧
    (c.withPatterns none []).ClaimsBelow fun _ => True := by
  have hreads : Pattern.Compiles p := ConfigFile.reads_directory hp hq
  have hcovers := ConfigFile.patternsCover_directory_iff hp hq
  refine ⟨?_, ?_, ?_⟩
  · exact (ConfigFile.claimsBelow_include hreads).congr hcovers
  · refine (ConfigFile.claimsBelow_exclude (by simpa using hreads)).congr fun relative => ?_
    rw [hcovers]
  · exact (ConfigFile.claimsBelow_exclude (by simp)).congr fun relative => by
      simp [ConfigFile.patternsCover]

theorem src_pattern_covers_src :
    ∃ m, ConfigMatcher.ofConfig
        ((ConfigFile.new ⟨"/p/tsconfig.json"⟩).withPatterns (some ["././src//"]) []) = .ok m ∧
      m.isMatch ⟨"/p/src/deep/a.ts"⟩ = true ∧ ¬ m.isMatch ⟨"/p/src2/a.ts"⟩ = true := by
  have hspells : Pattern.Spells "././src//".toList "src".toList :=
    ⟨⟨2, 2, by decide⟩, by decide, by decide⟩
  have hdirectory : Pattern.NamesDirectory "src".toList :=
    ⟨by decide, by simp [structural], by simp [Path.segments]⟩
  obtain ⟨m, hm, hmatch⟩ := (directory_patterns_cover_subtrees
    (ConfigFile.new ⟨"/p/tsconfig.json"⟩) hspells hdirectory).1
  refine ⟨m, hm, ?_, ?_⟩
  · exact (hmatch ⟨"/p/src/deep/a.ts"⟩ ⟨"src/deep/a.ts"⟩ (by decide)).mpr (by decide)
  · exact mt (hmatch ⟨"/p/src2/a.ts"⟩ ⟨"src2/a.ts"⟩ (by decide)).mp (by decide)

/-- A pattern without classes and groups, and without two stars together, has a core, and if this
is a glob by itself, the pattern claims the paths that have as many segments as the core and that
it stands for segment by segment. -/
theorem wildcards_stay_in_their_segment (c : ConfigFile) {p : String}
    (hsimple : ∀ ch ∈ p.toList, ch ∉ structural) (hstars : ¬ ['*', '*'] <:+: p.toList) :
    (∃ q, Pattern.Spells p.toList q) ∧
    ∀ q, Pattern.Spells p.toList q → q ≠ ['.'] →
      ('*' ∈ q ∨ '?' ∈ q ∨ ∃ last ∈ (Path.segments q).getLast?, '.' ∈ last) →
      (c.withPatterns (some [p]) []).ClaimsBelow fun relative =>
        List.Forall₂ (fun pattern name => SegmentStands pattern (Text.utf8Chars name))
          (Path.segments q) (Path.segments relative.text.toList) := by
  refine ⟨Pattern.exists_spells p.toList, ?_⟩
  intro q hp hdot hglob
  have hreads : Pattern.Compiles p := ConfigFile.reads_glob hp hdot hglob hsimple hstars
  exact (ConfigFile.claimsBelow_include hreads).congr
    (ConfigFile.patternsCover_glob_iff hp hdot hglob hsimple hstars)

theorem star_pattern_stays_in_src :
    ∃ m, ConfigMatcher.ofConfig
        ((ConfigFile.new ⟨"/p/tsconfig.json"⟩).withPatterns (some ["./src/*.?s/"]) []) = .ok m ∧
      m.isMatch ⟨"/p/src/a.ts"⟩ = true ∧ ¬ m.isMatch ⟨"/p/src/deep/a.ts"⟩ = true := by
  have hspells : Pattern.Spells "./src/*.?s/".toList "src/*.?s".toList :=
    ⟨⟨1, 1, by decide⟩, by decide, by decide⟩
  have hsimple : ∀ ch ∈ "./src/*.?s/".toList, ch ∉ structural := by simp [structural]
  have hstars : ¬ ['*', '*'] <:+: "./src/*.?s/".toList := by simp [List.infix_cons_iff]
  obtain ⟨m, hm, hmatch⟩ :=
    (wildcards_stay_in_their_segment (ConfigFile.new ⟨"/p/tsconfig.json"⟩) hsimple hstars).2
      _ hspells (by decide) (.inl (by decide))
  refine ⟨m, hm, ?_, ?_⟩
  · refine (hmatch ⟨"/p/src/a.ts"⟩ ⟨"src/a.ts"⟩ (by decide)).mpr ?_
    have hname : SegmentStands "src".toList (Text.utf8Chars "src".toList) :=
      ⟨[115], _, rfl, rfl, [114], _, rfl, rfl, [99], _, rfl, rfl, rfl⟩
    have hfile : SegmentStands "*.?s".toList (Text.utf8Chars "a.ts".toList) :=
      ⟨[97], _, rfl, trivial, [46], _, rfl, rfl, [116], _, rfl, rfl, [115], _, rfl, rfl, rfl⟩
    exact .cons hname (.cons hfile .nil)
  · intro hdeep
    have hsegments := (hmatch ⟨"/p/src/deep/a.ts"⟩ ⟨"src/deep/a.ts"⟩ (by decide)).mp hdeep
    exact absurd hsegments.length_eq (by decide)

end LintRelay
