import LintRelay.Proofs.Project.Assignment
set_option autoImplicit false

/-!
# Patterns that cannot be read

Reading the patterns of configurations is four loops inside each other: over the
configurations, over the include and then the exclude patterns of each, over the globs that a
pattern stands for, and over the characters of a glob.  All of them stop at the first fault.
What comes of it is one search through one list, `patternsInOrder`, and files play no part in
it (`partition_eq_error_iff`).
-/

namespace LintRelay

/-! ## Errors as search results -/

/-- The error that a computation ended with, if it did. -/
def errorOf? {ε α : Type} : Except ε α → Option ε
  | .ok _ => none
  | .error err => some err

theorem errorOf?_eq_some_iff {ε α : Type} {x : Except ε α} {err : ε} :
    errorOf? x = some err ↔ x = .error err := by
  cases x <;> simp [errorOf?]

theorem errorOf?_eq_none_iff {ε α : Type} {x : Except ε α} :
    errorOf? x = none ↔ x.isOk = true := by
  cases x <;> simp [errorOf?, Except.isOk, Except.toBool]

/-! ## Reading the patterns of one configuration -/

namespace Pattern

/-- The first of the globs of a pattern that cannot be read, and what is wrong with it. -/
def invalid? (p : String) : Option Invalid :=
  (expand p).findSome? fun g => (errorOf? (Glob.parse g)).map fun fault => ⟨p, g, fault⟩

theorem errorOf?_compileGlobs (p : String) (globs : List String) :
    errorOf? (compileGlobs p globs) =
      globs.findSome? fun g => (errorOf? (Glob.parse g)).map fun fault => ⟨p, g, fault⟩ := by
  induction globs with
  | nil => rfl
  | cons g rest ih =>
    rw [List.findSome?_cons, ← ih, compileGlobs]
    cases Glob.parse g with
    | error fault => rfl
    | ok tokens => cases compileGlobs p rest <;> rfl

theorem errorOf?_compile (patterns : List String) :
    errorOf? (compile patterns) = patterns.findSome? invalid? := by
  induction patterns with
  | nil => rfl
  | cons p rest ih =>
    rw [List.findSome?_cons, ← ih, invalid?, ← errorOf?_compileGlobs, compile]
    cases compileGlobs p (expand p) with
    | error i => rfl
    | ok globs => cases compile rest <;> rfl

theorem invalid?_eq_none_iff {p : String} : invalid? p = none ↔ Compiles p := by
  simp [invalid?, Compiles, errorOf?_eq_none_iff]

/-- What is found is a glob of the pattern, with its own fault. -/
theorem of_invalid?_eq_some {p : String} {i : Invalid} (h : invalid? p = some i) :
    i.pattern = p ∧ i.glob ∈ expand p ∧ Glob.parse i.glob = .error i.fault := by
  obtain ⟨g, hg, hfault⟩ := List.exists_of_findSome?_eq_some h
  obtain ⟨fault, herror, rfl⟩ := Option.map_eq_some_iff.mp hfault
  exact ⟨rfl, hg, errorOf?_eq_some_iff.mp herror⟩

theorem not_compiles_iff {p : String} :
    ¬ Compiles p ↔ ∃ g ∈ expand p, ∃ fault, Glob.parse g = .error fault := by
  constructor
  · intro hp
    obtain ⟨i, hi⟩ := Option.ne_none_iff_exists'.mp (mt invalid?_eq_none_iff.mp hp)
    obtain ⟨-, hglob, hfault⟩ := of_invalid?_eq_some hi
    exact ⟨i.glob, hglob, i.fault, hfault⟩
  · rintro ⟨g, hg, fault, hfault⟩ hp
    have hok := hp g hg
    rw [hfault] at hok
    cases hok

end Pattern

/-! ## Reading the patterns of all configurations -/

/-- All patterns in the order in which they are read, each with its configuration: the
configurations in their order, and of each the include patterns in effect before the exclude
patterns. -/
def patternsInOrder (configs : List ConfigFile) : List (ConfigFile × String) :=
  configs.flatMap fun c => (c.effectiveIncludes ++ c.excludes).map fun p => (c, p)

/-- The complaint about a pattern of a configuration, if it cannot be read. -/
def complaint? (cp : ConfigFile × String) : Option EngineError :=
  (Pattern.invalid? cp.2).map (ConfigMatcher.invalidPattern cp.1)

theorem patternsInOrder_cons (c : ConfigFile) (rest : List ConfigFile) :
    patternsInOrder (c :: rest) =
      (c.effectiveIncludes ++ c.excludes).map (fun p => (c, p)) ++ patternsInOrder rest := rfl

theorem mem_patternsInOrder {configs : List ConfigFile} {c : ConfigFile} {p : String} :
    (c, p) ∈ patternsInOrder configs ↔ c ∈ configs ∧ p ∈ c.effectiveIncludes ++ c.excludes := by
  simp only [patternsInOrder, List.mem_flatMap, List.mem_map, Prod.mk.injEq]
  constructor
  · rintro ⟨c, hc, p, hp, rfl, rfl⟩
    exact ⟨hc, hp⟩
  · rintro ⟨hc, hp⟩
    exact ⟨c, hc, p, hp, rfl, rfl⟩

theorem ConfigMatcher.errorOf?_ofConfig (c : ConfigFile) :
    errorOf? (ofConfig c) =
      ((c.effectiveIncludes ++ c.excludes).map fun p => (c, p)).findSome? complaint? := by
  have hcomplaint : (complaint? ∘ fun p => (c, p)) =
      Option.map (invalidPattern c) ∘ Pattern.invalid? := rfl
  rw [List.findSome?_map, hcomplaint, ← List.map_findSome?, List.findSome?_append,
    ← Pattern.errorOf?_compile, ← Pattern.errorOf?_compile, ofConfig]
  cases Pattern.compile c.effectiveIncludes with
  | error i => rfl
  | ok includes => cases Pattern.compile c.excludes <;> rfl

theorem ConfigMatcher.errorOf?_ofConfigs (configs : List ConfigFile) :
    errorOf? (ofConfigs configs) = (patternsInOrder configs).findSome? complaint? := by
  induction configs with
  | nil => rfl
  | cons c rest ih =>
    rw [patternsInOrder_cons, List.findSome?_append, ← ih, ← errorOf?_ofConfig, ofConfigs]
    cases ofConfig c with
    | error err => rfl
    | ok m => cases ofConfigs rest <;> rfl

/-- A partition fails with the complaint about the first pattern that cannot be read. -/
theorem partition_eq_error_iff {configs : List ConfigFile} {files : List SourceFile}
    {err : EngineError} :
    partition configs files = .error err ↔
      (patternsInOrder configs).findSome? complaint? = some err := by
  rw [← ConfigMatcher.errorOf?_ofConfigs, errorOf?_eq_some_iff, partition]
  cases ConfigMatcher.ofConfigs configs <;> simp

/-- The first pattern that cannot be read stands behind patterns that can, and the complaint
quotes it as it is written. -/
theorem exists_first_of_partition_error {configs : List ConfigFile} {files : List SourceFile}
    {err : EngineError} (h : partition configs files = .error err) :
    ∃ before c p after glob fault, patternsInOrder configs = before ++ (c, p) :: after ∧
      (∀ cp ∈ before, Pattern.Compiles cp.2) ∧
      glob ∈ Pattern.expand p ∧ Glob.parse glob = .error fault ∧
      err = .protocol ("invalid pattern " ++ Text.quoted p ++ " in " ++ c.path.text ++ ": " ++
        fault.describe glob) := by
  obtain ⟨before, ⟨c, p⟩, after, hsplit, hfirst, hbefore⟩ :=
    List.findSome?_eq_some_iff.mp (partition_eq_error_iff.mp h)
  obtain ⟨⟨_, glob, fault⟩, hinvalid, rfl⟩ := Option.map_eq_some_iff.mp hfirst
  obtain ⟨rfl, hglob, hfault⟩ := Pattern.of_invalid?_eq_some hinvalid
  refine ⟨before, c, _, after, glob, fault, hsplit, ?_, hglob, hfault, rfl⟩
  intro cp hcp
  exact Pattern.invalid?_eq_none_iff.mp (Option.map_eq_none_iff.mp (hbefore cp hcp))

/-- A partition fails if and only if a pattern in effect cannot be read. -/
theorem exists_partition_error_iff {configs : List ConfigFile} {files : List SourceFile} :
    (∃ err, partition configs files = .error err) ↔
      ∃ c ∈ configs, ∃ p ∈ c.effectiveIncludes ++ c.excludes, ¬ Pattern.Compiles p := by
  constructor
  · rintro ⟨err, herr⟩
    obtain ⟨before, c, p, after, glob, fault, hsplit, -, hglob, hfault, -⟩ :=
      exists_first_of_partition_error herr
    have hmem : (c, p) ∈ patternsInOrder configs := by simp [hsplit]
    obtain ⟨hc, hp⟩ := mem_patternsInOrder.mp hmem
    exact ⟨c, hc, p, hp, Pattern.not_compiles_iff.mpr ⟨glob, hglob, fault, hfault⟩⟩
  · rintro ⟨c, hc, p, hp, hbad⟩
    cases hresult : partition configs files with
    | error err => exact ⟨err, rfl⟩
    | ok groups =>
      -- Without a first complaint there is none at all.
      have hnone : (patternsInOrder configs).findSome? complaint? = none := by
        refine Option.eq_none_iff_forall_ne_some.mpr fun err herr => ?_
        have hfails : partition configs files = .error err := partition_eq_error_iff.mpr herr
        rw [hresult] at hfails
        cases hfails
      have hread := List.findSome?_eq_none_iff.mp hnone (c, p) (mem_patternsInOrder.mpr ⟨hc, hp⟩)
      exact absurd (Pattern.invalid?_eq_none_iff.mp (Option.map_eq_none_iff.mp hread)) hbad

end LintRelay
