import LintRelay.Proofs.Project.Pattern
import Mathlib.Logic.Relation
set_option autoImplicit false

/-!
# Spellings of a pattern

The core of a pattern is found by two trims, one of `./` in front and one of slashes behind, and
by a rule for the lone dot that they may leave.  On a dot between slashes the trims compete for
the same characters.  All of it depends on the pattern only through the core that it is written
around (`core_eq_of_spells`), and `./` in front or a slash behind leaves that as it is.

A pattern is used for its globs only; as it is written it appears in complaints.  So
configurations whose patterns are spelled differently have the same match rules, or have none
(`toOption_ofConfig_of_respells`), and files are dealt out over them in the same way.
-/

namespace LintRelay

namespace Pattern

/-! ## The core of every spelling -/

theorem Spells.here {p core : List Char} (h : Spells p core) : Spells ('.' :: '/' :: p) core := by
  obtain ⟨heres, slashes, rfl⟩ := h.dressed
  exact ⟨⟨heres + 1, slashes, rfl⟩, h.front, h.back⟩

theorem Spells.slash {p core : List Char} (h : Spells p core) : Spells (p ++ ['/']) core := by
  obtain ⟨heres, slashes, rfl⟩ := h.dressed
  refine ⟨⟨heres, slashes + 1, ?_⟩, h.front, h.back⟩
  rw [List.replicate_succ', List.append_assoc, List.append_assoc]

/-- A lone dot is no core.  Without a slash behind it, it is left over by both trims; with one,
it is trimmed as another `./`. -/
theorem core_of_spells_dot {p : List Char} (h : Spells p ['.']) : core p = [] := by
  obtain ⟨heres, slashes, rfl⟩ := h.dressed
  rw [core, dropHere_heres]
  cases slashes with
  | zero => rfl
  | succ slashes =>
    have hslashes : ¬ ['.', '/'] <+: List.replicate slashes '/' := by
      cases slashes <;> simp [List.replicate_succ]
    have hhere : dropHere (['.'] ++ List.replicate (slashes + 1) '/') =
        List.replicate slashes '/' := dropHere_of_not_isPrefix hslashes
    have htrailing : dropTrailing ([] ++ List.replicate slashes '/') = [] :=
      dropTrailing_slashes (by simp) slashes
    rw [List.nil_append] at htrailing
    rw [hhere, htrailing]
    rfl

theorem core_eq_of_spells {p q : List Char} (h : Spells p q) :
    core p = if q = ['.'] then [] else q := by
  split
  · next hdot =>
    subst hdot
    exact core_of_spells_dot h
  · next hdot => exact core_of_spells h hdot

theorem expandChars_congr {p p' q : List Char} (h : Spells p q) (h' : Spells p' q) :
    expandChars p = expandChars p' := by
  have hcore : core p = core p' := by rw [core_eq_of_spells h, core_eq_of_spells h']
  simp only [expandChars, hcore]

theorem expand_here (p : String) : expand ("./" ++ p) = expand p := by
  obtain ⟨q, hq⟩ := exists_spells p.toList
  have hsame : expandChars ("./".toList ++ p.toList) = expandChars p.toList :=
    expandChars_congr hq.here hq
  rw [expand, expand, String.toList_append, hsame]

theorem expand_slash (p : String) : expand (p ++ "/") = expand p := by
  obtain ⟨q, hq⟩ := exists_spells p.toList
  have hsame : expandChars (p.toList ++ "/".toList) = expandChars p.toList :=
    expandChars_congr hq.slash hq
  rw [expand, expand, String.toList_append, hsame]

/-! ## Respelling -/

/-- The patterns can be turned into each other by putting `./` in front and a slash behind, or by
taking them away, any number of times. -/
def Respells : String → String → Prop :=
  Relation.EqvGen fun p p' => p' = "./" ++ p ∨ p' = p ++ "/"

theorem Respells.here {p p' : String} (h : Respells p p') : Respells p ("./" ++ p') :=
  .trans _ _ _ h (.rel _ _ (.inl rfl))

theorem Respells.slash {p p' : String} (h : Respells p p') : Respells p (p' ++ "/") :=
  .trans _ _ _ h (.rel _ _ (.inr rfl))

theorem Respells.expand_eq {p p' : String} (h : Respells p p') : expand p = expand p' := by
  induction h with
  | rel p p' hstep =>
    rcases hstep with rfl | rfl
    · exact (expand_here p).symm
    · exact (expand_slash p).symm
  | refl p => rfl
  | symm p p' _ ih => exact ih.symm
  | trans p p' p'' _ _ ih ih' => exact ih.trans ih'

/-! ## Reading respelled patterns -/

theorem toOption_compileGlobs (p : String) (globs : List String) :
    (compileGlobs p globs).toOption = globs.mapM fun g => (Glob.parse g).toOption := by
  induction globs with
  | nil => rfl
  | cons g rest ih =>
    rw [List.mapM_cons, ← ih, compileGlobs]
    cases Glob.parse g with
    | error fault => rfl
    | ok tokens => cases compileGlobs p rest <;> rfl

/-- What is read of patterns is read of their globs, one after the other. -/
theorem toOption_compile (patterns : List String) :
    (compile patterns).toOption =
      (patterns.flatMap expand).mapM fun g => (Glob.parse g).toOption := by
  induction patterns with
  | nil => rfl
  | cons p rest ih =>
    rw [List.flatMap_cons, List.mapM_append, ← ih, ← toOption_compileGlobs p, compile]
    cases compileGlobs p (expand p) with
    | error fault => rfl
    | ok globs => cases compile rest <;> rfl

theorem flatMap_expand_of_respells {patterns respelled : List String}
    (h : List.Forall₂ Respells patterns respelled) :
    patterns.flatMap expand = respelled.flatMap expand := by
  induction h with
  | nil => rfl
  | cons hp _ ih => rw [List.flatMap_cons, List.flatMap_cons, hp.expand_eq, ih]

theorem toOption_compile_of_respells {patterns respelled : List String}
    (h : List.Forall₂ Respells patterns respelled) :
    (compile patterns).toOption = (compile respelled).toOption := by
  rw [toOption_compile, toOption_compile, flatMap_expand_of_respells h]

end Pattern

/-- The configurations differ in nothing but the spelling of their patterns. -/
structure ConfigFile.Respells (c d : ConfigFile) : Prop where
  otherwise : { d with includes := c.includes, excludes := c.excludes } = c
  includes : Option.Rel (List.Forall₂ Pattern.Respells) c.includes d.includes
  excludes : List.Forall₂ Pattern.Respells c.excludes d.excludes

namespace ConfigFile.Respells

variable {c d : ConfigFile}

theorem path_eq (h : c.Respells d) : d.path = c.path :=
  (congrArg ConfigFile.path h.otherwise :)

theorem files_eq (h : c.Respells d) : d.files = c.files :=
  (congrArg ConfigFile.files h.otherwise :)

theorem dir_eq (h : c.Respells d) : d.dir = c.dir := by rw [dir, dir, h.path_eq]

/-- Saying nothing about included files is not a matter of spelling. -/
theorem effectiveIncludes (h : c.Respells d) :
    List.Forall₂ Pattern.Respells c.effectiveIncludes d.effectiveIncludes := by
  have hincludes := h.includes
  unfold ConfigFile.effectiveIncludes
  rw [h.files_eq]
  generalize c.includes = included, d.includes = respelled at hincludes ⊢
  cases hincludes with
  | some hpatterns => exact hpatterns
  | none => exact List.forall₂_same.mpr fun p _ => .refl p

end ConfigFile.Respells

/-! ## Match rules and groups -/

namespace ConfigMatcher

theorem toOption_ofConfig (c : ConfigFile) :
    (ofConfig c).toOption =
      (Pattern.compile c.effectiveIncludes).toOption.bind fun includes =>
        (Pattern.compile c.excludes).toOption.map fun excludes =>
          ⟨c.dir, c.files.map fun f => (c.dir.join f).normalize, includes, excludes⟩ := by
  rw [ofConfig]
  cases Pattern.compile c.effectiveIncludes with
  | error fault => rfl
  | ok includes => cases Pattern.compile c.excludes <;> rfl

theorem toOption_ofConfig_of_respells {c d : ConfigFile} (h : c.Respells d) :
    (ofConfig c).toOption = (ofConfig d).toOption := by
  rw [toOption_ofConfig, toOption_ofConfig, h.dir_eq, h.files_eq,
    Pattern.toOption_compile_of_respells h.effectiveIncludes,
    Pattern.toOption_compile_of_respells h.excludes]

theorem toOption_ofConfigs_cons (c : ConfigFile) (rest : List ConfigFile) :
    (ofConfigs (c :: rest)).toOption =
      (ofConfig c).toOption.bind fun m => (ofConfigs rest).toOption.map ((c, m) :: ·) := by
  rw [ofConfigs]
  cases ofConfig c with
  | error err => rfl
  | ok m => cases ofConfigs rest <;> rfl

end ConfigMatcher

/-- Configurations with one path and the same match rules. -/
def SameRules (cm cm' : ConfigFile × ConfigMatcher) : Prop :=
  cm.1.path = cm'.1.path ∧ cm.2 = cm'.2

theorem sameRules_of_respells {configs respelled : List ConfigFile}
    (h : List.Forall₂ ConfigFile.Respells configs respelled) :
    Option.Rel (List.Forall₂ SameRules) (ConfigMatcher.ofConfigs configs).toOption
      (ConfigMatcher.ofConfigs respelled).toOption := by
  induction h with
  | nil => exact .some .nil
  | @cons c d configs respelled hc _ ih =>
    rw [ConfigMatcher.toOption_ofConfigs_cons, ConfigMatcher.toOption_ofConfigs_cons,
      ConfigMatcher.toOption_ofConfig_of_respells hc]
    cases (ConfigMatcher.ofConfig d).toOption with
    | none => exact .none
    | some m =>
      generalize (ConfigMatcher.ofConfigs configs).toOption = matchers,
        (ConfigMatcher.ofConfigs respelled).toOption = matchers' at ih
      cases ih with
      | none => exact .none
      | some hmore => exact .some (.cons ⟨hc.path_eq.symm, rfl⟩ hmore)

/-- The path of the configuration of a group, and its files. -/
def ConfigGroup.view (g : ConfigGroup) : Option Path × List SourceFile :=
  (g.config.map ConfigFile.path, g.files)

theorem map_view_dealOut {matchers matchers' : List (ConfigFile × ConfigMatcher)}
    (h : List.Forall₂ SameRules matchers matchers') (files : List SourceFile) :
    (dealOut matchers files).map ConfigGroup.view =
      (dealOut matchers' files).map ConfigGroup.view := by
  induction h generalizing files with
  | nil => rfl
  | @cons cm cm' matchers matchers' hcm _ ih =>
    obtain ⟨c, m⟩ := cm
    obtain ⟨c', m'⟩ := cm'
    obtain ⟨hpath, hrules⟩ := hcm
    obtain rfl : m = m' := hrules
    rw [dealOut, dealOut, List.map_append, List.map_append, ih]
    congr 1
    split
    · rfl
    · exact congrArg (fun path => [(some path, _)]) hpath

theorem toOption_partition (configs : List ConfigFile) (files : List SourceFile) :
    (partition configs files).toOption =
      (ConfigMatcher.ofConfigs configs).toOption.map (dealOut · files) := by
  rw [partition]
  cases ConfigMatcher.ofConfigs configs <;> rfl

theorem map_view_partition {configs respelled : List ConfigFile}
    (h : List.Forall₂ ConfigFile.Respells configs respelled) (files : List SourceFile) :
    (partition configs files).toOption.map (List.map ConfigGroup.view) =
      (partition respelled files).toOption.map (List.map ConfigGroup.view) := by
  have hrules := sameRules_of_respells h
  rw [toOption_partition, toOption_partition]
  generalize (ConfigMatcher.ofConfigs configs).toOption = matchers,
    (ConfigMatcher.ofConfigs respelled).toOption = matchers' at hrules
  cases hrules with
  | none => rfl
  | some hmatchers => exact congrArg some (map_view_dealOut hmatchers files)

theorem toOption_eq_some_iff {ε α : Type} {x : Except ε α} {a : α} :
    x.toOption = some a ↔ x = .ok a := by
  cases x <;> simp [Except.toOption]

theorem isSome_toOption {ε α : Type} (x : Except ε α) : x.toOption.isSome = x.isOk := by
  cases x <;> rfl

/-- The spelling of patterns does not matter.  `./` in front of a pattern and a slash behind it
change none of the globs that it stands for, whatever the pattern is.  So configurations whose
patterns are respelled so are given the same match rules, if they are given any; a partition
succeeds with them when it succeeds with the others, and assigns the same files to them. -/
theorem pattern_spelling_does_not_matter {configs respelled : List ConfigFile}
    (h : List.Forall₂ ConfigFile.Respells configs respelled) (files : List SourceFile) :
    (∀ p, Pattern.expand ("./" ++ p) = Pattern.expand p ∧
      Pattern.expand (p ++ "/") = Pattern.expand p) ∧
    List.Forall₂
      (fun c d => ∀ m, ConfigMatcher.ofConfig c = .ok m ↔ ConfigMatcher.ofConfig d = .ok m)
      configs respelled ∧
    (partition configs files).isOk = (partition respelled files).isOk ∧
    (partition configs files).toOption.map (List.map ConfigGroup.view) =
      (partition respelled files).toOption.map (List.map ConfigGroup.view) := by
  have hview := map_view_partition h files
  refine ⟨fun p => ⟨Pattern.expand_here p, Pattern.expand_slash p⟩, ?_, ?_, hview⟩
  · refine h.imp fun c d hc m => ?_
    rw [← toOption_eq_some_iff, ← toOption_eq_some_iff,
      ConfigMatcher.toOption_ofConfig_of_respells hc]
  · have hsome := congrArg Option.isSome hview
    rwa [Option.isSome_map, Option.isSome_map, isSome_toOption, isSome_toOption] at hsome

/-- A configuration for the sources of a project and one for all of it. -/
def tersePatterns : List ConfigFile :=
  [⟨⟨"/p/src.json"⟩, [], [], [], some ["src"], ["src/*.d.ts"]⟩,
   ⟨⟨"/p/all.json"⟩, [], [], [], some ["."], []⟩]

/-- The same configurations, with more slashes and dots than are needed. -/
def wordyPatterns : List ConfigFile :=
  [⟨⟨"/p/src.json"⟩, [], [], [], some ["././src//"], ["./src/*.d.ts/"]⟩,
   ⟨⟨"/p/all.json"⟩, [], [], [], some ["./"], []⟩]

theorem wordyPatterns_partition :
    List.Forall₂ ConfigFile.Respells tersePatterns wordyPatterns ∧
    (partition wordyPatterns [.main ⟨"/p/src/a.ts"⟩, .main ⟨"/p/src/b.d.ts"⟩]).toOption.map
        (List.map ConfigGroup.view) =
      some [(some ⟨"/p/src.json"⟩, [.main ⟨"/p/src/a.ts"⟩]),
        (some ⟨"/p/all.json"⟩, [.main ⟨"/p/src/b.d.ts"⟩])] := by
  have hsources : Pattern.Respells "src" "././src//" :=
    Pattern.Respells.here (.here (.slash (.slash (.refl "src"))))
  have htypes : Pattern.Respells "src/*.d.ts" "./src/*.d.ts/" :=
    Pattern.Respells.here (.slash (.refl "src/*.d.ts"))
  have hall : Pattern.Respells "." "./" := Pattern.Respells.slash (.refl ".")
  have hrespells : List.Forall₂ ConfigFile.Respells tersePatterns wordyPatterns :=
    .cons ⟨rfl, .some (.cons hsources .nil), .cons htypes .nil⟩
      (.cons ⟨rfl, .some (.cons hall .nil), .nil⟩ .nil)
  obtain ⟨-, -, -, hview⟩ := pattern_spelling_does_not_matter hrespells
    [.main ⟨"/p/src/a.ts"⟩, .main ⟨"/p/src/b.d.ts"⟩]
  refine ⟨hrespells, hview.symm.trans ?_⟩
  decide +kernel

end LintRelay
