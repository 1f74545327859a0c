import LintRelay.Project.Partition
set_option autoImplicit false

/-!
# Partition is assignment to the first match

Files are dealt out over configurations one configuration after the other.  This file
says what comes of it without any order of work: a file belongs to a configuration when
the configuration matches it and none before it does.  `firstMatchGroups` are the
groups by this rule, and `partition` gives exactly these whenever the patterns of all
configurations can be read.

Matching is stated here from the configuration itself (`matchesPath`), pattern by
pattern; the match rules that a run compiles beforehand are shown to agree with it.
-/

namespace LintRelay

/-! ## Matching -/

namespace ConfigFile

/-- A glob that can be read stands for a relative path. -/
def globCovers (relative : Path) (glob : String) : Bool :=
  match Glob.parse glob with
  | .ok tokens => Glob.matchesText .segment tokens relative.text
  | .error _ => false

/-- One of the patterns stands for a relative path. -/
def patternsCover (patterns : List String) (relative : Path) : Bool :=
  patterns.any fun p => (Pattern.expand p).any (globCovers relative)

/-- The configuration lists the path, or the path is below its directory and covered by
an include pattern and by no exclude pattern. -/
def matchesPath (c : ConfigFile) (path : Path) : Bool :=
  (c.files.any fun f => (c.dir.join f).normalize = path.normalize) ||
    match Path.below? c.dir path.normalize with
    | some relative =>
      patternsCover c.effectiveIncludes relative && !patternsCover c.excludes relative
    | none => false

/-- Every pattern in effect can be read. -/
def Compiles (c : ConfigFile) : Prop :=
  ∀ p ∈ c.effectiveIncludes ++ c.excludes, ∀ g ∈ Pattern.expand p, (Glob.parse g).isOk = true

instance (c : ConfigFile) : Decidable c.Compiles :=
  inferInstanceAs (Decidable (∀ p ∈ _, ∀ g ∈ Pattern.expand p, (Glob.parse g).isOk = true))

end ConfigFile

/-! ## Compiled match rules -/

theorem exists_ok_of_isOk {ε α : Type} {x : Except ε α} (h : x.isOk = true) :
    ∃ a, x = .ok a := by
  cases x with
  | error _ => cases h
  | ok a => exact ⟨a, rfl⟩

theorem Pattern.compileGlobs_ok (pattern : String) {globs : List String}
    (h : ∀ g ∈ globs, (Glob.parse g).isOk = true) :
    ∃ compiled, compileGlobs pattern globs = .ok compiled ∧
      ∀ relative, ConfigMatcher.covers compiled relative =
        globs.any (ConfigFile.globCovers relative) := by
  induction globs with
  | nil => exact ⟨[], rfl, fun _ => rfl⟩
  | cons g rest ih =>
    obtain ⟨tokens, htokens⟩ := exists_ok_of_isOk (h g List.mem_cons_self)
    obtain ⟨more, hmore, hcovers⟩ := ih fun g' hg' => h g' (List.mem_cons_of_mem g hg')
    refine ⟨tokens :: more, by simp [compileGlobs, htokens, hmore], ?_⟩
    intro relative
    have hrest := hcovers relative
    simp only [ConfigMatcher.covers] at hrest
    simp [ConfigMatcher.covers, ConfigFile.globCovers, htokens, hrest]

theorem Pattern.compile_ok (patterns : List String)
    (h : ∀ p ∈ patterns, ∀ g ∈ expand p, (Glob.parse g).isOk = true) :
    ∃ compiled, compile patterns = .ok compiled ∧
      ∀ relative, ConfigMatcher.covers compiled relative =
        ConfigFile.patternsCover patterns relative := by
  induction patterns with
  | nil => exact ⟨[], rfl, fun _ => rfl⟩
  | cons p rest ih =>
    obtain ⟨globs, hglobs, hfirst⟩ := compileGlobs_ok p (h p List.mem_cons_self)
    obtain ⟨more, hmore, hrest⟩ := ih fun p' hp' => h p' (List.mem_cons_of_mem p hp')
    refine ⟨globs ++ more, by simp [compile, hglobs, hmore], ?_⟩
    intro relative
    rw [ConfigMatcher.covers, List.any_append, ← ConfigMatcher.covers, ← ConfigMatcher.covers,
      hfirst, hrest]
    rfl

namespace ConfigMatcher

theorem contains_map_eq_any {α : Type} (f : α → Path) (xs : List α) (p : Path) :
    (xs.map f).contains p = xs.any fun x => decide (f x = p) := by
  rw [Bool.eq_iff_iff]
  simp

/-- The match rules of a configuration whose patterns can be read decide as the
configuration itself does. -/
theorem ofConfig_ok {c : ConfigFile} (h : c.Compiles) :
    ∃ m, ofConfig c = .ok m ∧ ∀ path, m.isMatch path = c.matchesPath path := by
  obtain ⟨includes, hincludes, hcovered⟩ := Pattern.compile_ok c.effectiveIncludes
    fun p hp => h p (List.mem_append_left _ hp)
  obtain ⟨excludes, hexcludes, hexcluded⟩ := Pattern.compile_ok c.excludes
    fun p hp => h p (List.mem_append_right _ hp)
  refine ⟨_, by simp only [ofConfig, hincludes, hexcludes]; rfl, ?_⟩
  intro path
  cases hbelow : Path.below? c.dir path.normalize with
  | none => simp only [isMatch, claims, ConfigFile.matchesPath, contains_map_eq_any, hbelow]
  | some relative =>
    simp only [isMatch, claims, ConfigFile.matchesPath, contains_map_eq_any, hcovered, hexcluded,
      hbelow]

theorem ofConfigs_ok {configs : List ConfigFile} (h : ∀ c ∈ configs, c.Compiles) :
    ∃ matchers, ofConfigs configs = .ok matchers ∧ matchers.map Prod.fst = configs ∧
      ∀ cm ∈ matchers, ∀ path, cm.2.isMatch path = cm.1.matchesPath path := by
  induction configs with
  | nil => exact ⟨[], rfl, rfl, by simp⟩
  | cons c rest ih =>
    obtain ⟨m, hm, hmatch⟩ := ofConfig_ok (h c List.mem_cons_self)
    obtain ⟨more, hmore, hconfigs, hagree⟩ := ih fun c' hc' => h c' (List.mem_cons_of_mem c hc')
    refine ⟨(c, m) :: more, by simp [ofConfigs, hm, hmore], by simp [hconfigs], ?_⟩
    intro cm hcm
    rcases List.mem_cons.mp hcm with rfl | hcm
    · exact hmatch
    · exact hagree cm hcm

end ConfigMatcher

/-! ## First match -/

/-- The configuration at a position takes a file: it matches the file, and no
configuration before it does. -/
def takesFile (configs : List ConfigFile) (i : Nat) (f : SourceFile) : Bool :=
  (configs[i]?.any fun c => c.matchesPath f.path) &&
    (configs.take i).all fun c => !c.matchesPath f.path

/-- The files that the configuration at a position takes, in their order. -/
def assigned (configs : List ConfigFile) (files : List SourceFile) (i : Nat) :
    List SourceFile :=
  files.filter (takesFile configs i)

/-- The files that no configuration matches, in their order. -/
def unassigned (configs : List ConfigFile) (files : List SourceFile) : List SourceFile :=
  files.filter fun f => configs.all fun c => !c.matchesPath f.path

/-- The group of a configuration at its position; it may be without files. -/
def groupAt (configs : List ConfigFile) (files : List SourceFile) (ci : ConfigFile × Nat) :
    ConfigGroup :=
  ⟨some ci.1, assigned configs files ci.2⟩

/-- The groups of the configurations in their order and the files without a
configuration behind them, as far as there are files in them. -/
def firstMatchGroups (configs : List ConfigFile) (files : List SourceFile) :
    List ConfigGroup :=
  (configs.zipIdx.map (groupAt configs files) ++
    [ConfigGroup.mk none (unassigned configs files)]).filter fun g => !g.files.isEmpty

theorem assigned_cons_zero (c : ConfigFile) (rest : List ConfigFile) (files : List SourceFile) :
    assigned (c :: rest) files 0 = files.filter fun f => c.matchesPath f.path := by
  unfold assigned
  congr 1
  funext f
  simp [takesFile]

/-- What a later configuration takes, it takes of the files that the first one leaves. -/
theorem assigned_cons_succ (c : ConfigFile) (rest : List ConfigFile) (files : List SourceFile)
    (i : Nat) :
    assigned (c :: rest) files (i + 1) =
      assigned rest (files.filter fun f => !c.matchesPath f.path) i := by
  simp only [assigned, List.filter_filter]
  congr 1
  funext f
  simp only [takesFile, List.getElem?_cons_succ, List.take_succ_cons, List.all_cons]
  cases c.matchesPath f.path <;> simp

theorem unassigned_nil (files : List SourceFile) : unassigned [] files = files :=
  List.filter_eq_self.mpr (by simp)

theorem unassigned_cons (c : ConfigFile) (rest : List ConfigFile) (files : List SourceFile) :
    unassigned (c :: rest) files =
      unassigned rest (files.filter fun f => !c.matchesPath f.path) := by
  simp only [unassigned, List.filter_filter]
  congr 1
  funext f
  simp only [List.all_cons]
  cases c.matchesPath f.path <;> simp

theorem firstMatchGroups_cons (c : ConfigFile) (rest : List ConfigFile)
    (files : List SourceFile) :
    firstMatchGroups (c :: rest) files =
      (if (files.filter fun f => c.matchesPath f.path).isEmpty then []
        else [⟨some c, files.filter fun f => c.matchesPath f.path⟩]) ++
        firstMatchGroups rest (files.filter fun f => !c.matchesPath f.path) := by
  -- Positions behind the first configuration are counted from one on.
  have hshift : (rest.zipIdx 1).map (groupAt (c :: rest) files) =
      rest.zipIdx.map (groupAt rest (files.filter fun f => !c.matchesPath f.path)) := by
    rw [List.zipIdx_succ, List.map_map]
    congr 1
    funext ci
    simp [groupAt, assigned_cons_succ]
  have hfirst : groupAt (c :: rest) files (c, 0) =
      ⟨some c, files.filter fun f => c.matchesPath f.path⟩ := by
    rw [groupAt, assigned_cons_zero]
  simp only [firstMatchGroups, List.zipIdx_cons, Nat.zero_add, List.map_cons, List.cons_append,
    List.filter_cons, hfirst, hshift, unassigned_cons]
  cases (files.filter fun f => c.matchesPath f.path).isEmpty <;> simp

/-- Dealing out over configurations comes to the groups by first match. -/
theorem dealOut_eq_firstMatchGroups {matchers : List (ConfigFile × ConfigMatcher)}
    (h : ∀ cm ∈ matchers, ∀ path, cm.2.isMatch path = cm.1.matchesPath path)
    (files : List SourceFile) :
    dealOut matchers files = firstMatchGroups (matchers.map Prod.fst) files := by
  induction matchers generalizing files with
  | nil =>
    cases files with
    | nil => rfl
    | cons f rest => simp [dealOut, firstMatchGroups, unassigned_nil]
  | cons cm rest ih =>
    obtain ⟨c, m⟩ := cm
    have hm : ∀ path, m.isMatch path = c.matchesPath path := h (c, m) List.mem_cons_self
    simp only [dealOut, hm, List.map_cons, firstMatchGroups_cons]
    rw [ih fun cm hcm => h cm (List.mem_cons_of_mem _ hcm)]

/-- Every file is in one group, as often as it was given. -/
theorem perm_firstMatchGroups (configs : List ConfigFile) (files : List SourceFile) :
    ((firstMatchGroups configs files).flatMap ConfigGroup.files).Perm files := by
  induction configs generalizing files with
  | nil => cases files <;> simp [firstMatchGroups, unassigned_nil]
  | cons c rest ih =>
    rw [firstMatchGroups_cons, List.flatMap_append]
    have hleft := ih (files.filter fun f => !c.matchesPath f.path)
    have hown : List.flatMap ConfigGroup.files
        (if (files.filter fun f => c.matchesPath f.path).isEmpty then []
          else [⟨some c, files.filter fun f => c.matchesPath f.path⟩]) =
        files.filter fun f => c.matchesPath f.path := by
      split
      · rename_i hempty
        rw [List.isEmpty_iff.mp hempty]
        rfl
      · simp
    rw [hown]
    exact (hleft.append_left _).trans (List.filter_append_perm _ files)

theorem files_ne_nil_of_mem_firstMatchGroups {configs : List ConfigFile}
    {files : List SourceFile} {g : ConfigGroup} (h : g ∈ firstMatchGroups configs files) :
    g.files ≠ [] := by
  have hfiles := (List.mem_filter.mp h).2
  simpa using hfiles

/-- Files of different groups have different paths. -/
theorem pairwise_firstMatchGroups (configs : List ConfigFile) (files : List SourceFile) :
    (firstMatchGroups configs files).Pairwise fun g g' =>
      ∀ f ∈ g.files, ∀ f' ∈ g'.files, f.path ≠ f'.path := by
  induction configs generalizing files with
  | nil => cases files <;> simp [firstMatchGroups, unassigned_nil]
  | cons c rest ih =>
    rw [firstMatchGroups_cons]
    refine List.pairwise_append.mpr ⟨by split <;> simp, ih _, ?_⟩
    intro g hg g' hg' f hf f' hf' hpath
    -- The first configuration matches the one path and leaves the other.
    have hleft : f' ∈ files.filter fun f => !c.matchesPath f.path :=
      (perm_firstMatchGroups rest _).subset (List.mem_flatMap.mpr ⟨g', hg', hf'⟩)
    have hunmatched := (List.mem_filter.mp hleft).2
    have hmatched : c.matchesPath f.path = true := by
      split at hg
      · cases hg
      · obtain rfl := List.mem_singleton.mp hg
        exact (List.mem_filter.mp hf).2
    rw [← hpath, hmatched] at hunmatched
    cases hunmatched

/-- The group without a configuration is the last one if it is there, and it is there
when files are left for it. -/
theorem firstMatchGroups_eq_append (configs : List ConfigFile) (files : List SourceFile) :
    firstMatchGroups configs files =
      (configs.zipIdx.map (groupAt configs files)).filter (fun g => !g.files.isEmpty) ++
        if unassigned configs files = [] then []
        else [ConfigGroup.mk none (unassigned configs files)] := by
  rw [firstMatchGroups, List.filter_append]
  congr 1
  by_cases hnone : unassigned configs files = [] <;> simp [hnone]

/-- Every configuration has one group at most, and the groups are in the order of the
configurations. -/
theorem sublist_firstMatchGroups (configs : List ConfigFile) (files : List SourceFile) :
    ((firstMatchGroups configs files).filterMap ConfigGroup.config).Sublist configs := by
  have hgroups : (configs.zipIdx.map (groupAt configs files)).filterMap ConfigGroup.config =
      configs := by
    have hfirst : ConfigGroup.config ∘ groupAt configs files = some ∘ Prod.fst := rfl
    rw [List.filterMap_map, hfirst, List.filterMap_eq_map, List.zipIdx_map_fst]
  have hall : (configs.zipIdx.map (groupAt configs files) ++
      [ConfigGroup.mk none (unassigned configs files)]).filterMap ConfigGroup.config = configs := by
    rw [List.filterMap_append, hgroups]
    exact List.append_nil configs
  have hsublist := (List.filter_sublist (p := fun g : ConfigGroup => !g.files.isEmpty)
    (l := configs.zipIdx.map (groupAt configs files) ++
      [ConfigGroup.mk none (unassigned configs files)])).filterMap ConfigGroup.config
  rwa [hall] at hsublist

theorem config_isSome_of_mem_groupAt {configs : List ConfigFile} {files : List SourceFile}
    {g : ConfigGroup}
    (h : g ∈ (configs.zipIdx.map (groupAt configs files)).filter fun g => !g.files.isEmpty) :
    g.config.isSome = true := by
  obtain ⟨ci, -, rfl⟩ := List.mem_map.mp (List.mem_filter.mp h).1
  rfl

theorem config_isSome_of_mem_dropLast {configs : List ConfigFile} {files : List SourceFile}
    {g : ConfigGroup} (h : g ∈ (firstMatchGroups configs files).dropLast) :
    g.config.isSome = true := by
  rw [firstMatchGroups_eq_append] at h
  split at h
  · rw [List.append_nil] at h
    exact config_isSome_of_mem_groupAt (List.dropLast_subset _ h)
  · rw [List.dropLast_concat] at h
    exact config_isSome_of_mem_groupAt h

theorem unassigned_ne_nil_iff {configs : List ConfigFile} {files : List SourceFile} :
    unassigned configs files ≠ [] ↔
      ∃ f ∈ files, ∀ c ∈ configs, c.matchesPath f.path = false := by
  simp [unassigned]

theorem exists_config_none_iff (configs : List ConfigFile) (files : List SourceFile) :
    (∃ g ∈ firstMatchGroups configs files, g.config = none) ↔
      ∃ f ∈ files, ∀ c ∈ configs, c.matchesPath f.path = false := by
  rw [← unassigned_ne_nil_iff, firstMatchGroups_eq_append]
  constructor
  · rintro ⟨g, hg, hnone⟩ hempty
    rw [if_pos hempty, List.append_nil] at hg
    have hsome := config_isSome_of_mem_groupAt hg
    rw [hnone] at hsome
    cases hsome
  · intro hne
    rw [if_neg hne]
    exact ⟨_, List.mem_append_right _ List.mem_cons_self, rfl⟩

/-! ## Every partition is by first match -/

theorem Pattern.isOk_parse_of_compileGlobs {pattern : String} {globs : List String}
    {compiled : List (List Glob.Token)} (h : compileGlobs pattern globs = .ok compiled) :
    ∀ g ∈ globs, (Glob.parse g).isOk = true := by
  induction globs generalizing compiled with
  | nil => simp
  | cons g rest ih =>
    unfold compileGlobs at h
    cases hparse : Glob.parse g with
    | error f => simp [hparse] at h
    | ok tokens =>
      cases hrest : compileGlobs pattern rest with
      | error err => simp [hparse, hrest] at h
      | ok more =>
        intro g' hg'
        rcases List.mem_cons.mp hg' with rfl | hg'
        · rw [hparse]
          rfl
        · exact ih hrest g' hg'

theorem Pattern.isOk_parse_of_compile {patterns : List String}
    {compiled : List (List Glob.Token)} (h : compile patterns = .ok compiled) :
    ∀ p ∈ patterns, ∀ g ∈ expand p, (Glob.parse g).isOk = true := by
  induction patterns generalizing compiled with
  | nil => simp
  | cons p rest ih =>
    unfold compile at h
    cases hglobs : compileGlobs p (expand p) with
    | error err => simp [hglobs] at h
    | ok globs =>
      cases hrest : compile rest with
      | error err => simp [hglobs, hrest] at h
      | ok more =>
        intro p' hp'
        rcases List.mem_cons.mp hp' with rfl | hp'
        · exact isOk_parse_of_compileGlobs hglobs
        · exact ih hrest p' hp'

theorem ConfigMatcher.compiles_of_ofConfig {c : ConfigFile} {m : ConfigMatcher}
    (h : ofConfig c = .ok m) : c.Compiles := by
  unfold ofConfig at h
  cases hincludes : Pattern.compile c.effectiveIncludes with
  | error err => simp [hincludes] at h
  | ok includes =>
    cases hexcludes : Pattern.compile c.excludes with
    | error err => simp [hincludes, hexcludes] at h
    | ok excludes =>
      intro p hp
      rcases List.mem_append.mp hp with hp | hp
      · exact Pattern.isOk_parse_of_compile hincludes p hp
      · exact Pattern.isOk_parse_of_compile hexcludes p hp

theorem ConfigMatcher.compiles_of_ofConfigs {configs : List ConfigFile}
    {matchers : List (ConfigFile × ConfigMatcher)} (h : ofConfigs configs = .ok matchers) :
    ∀ c ∈ configs, c.Compiles := by
  induction configs generalizing matchers with
  | nil => simp
  | cons c rest ih =>
    unfold ofConfigs at h
    cases hfirst : ofConfig c with
    | error err => simp [hfirst] at h
    | ok m =>
      cases hrest : ofConfigs rest with
      | error err => simp [hfirst, hrest] at h
      | ok more =>
        intro c' hc'
        rcases List.mem_cons.mp hc' with rfl | hc'
        · exact compiles_of_ofConfig hfirst
        · exact ih hrest c' hc'

/-- A partition that has a result is the one by first match. -/
theorem eq_firstMatchGroups_of_partition {configs : List ConfigFile} {files : List SourceFile}
    {groups : List ConfigGroup} (h : partition configs files = .ok groups) :
    groups = firstMatchGroups configs files := by
  unfold partition at h
  cases hmatchers : ConfigMatcher.ofConfigs configs with
  | error err => simp [hmatchers] at h
  | ok matchers =>
    obtain ⟨matchers', hsame, hconfigs, hagree⟩ :=
      ConfigMatcher.ofConfigs_ok (ConfigMatcher.compiles_of_ofConfigs hmatchers)
    obtain rfl : matchers = matchers' := Except.ok.inj (hmatchers.symm.trans hsame)
    have hdealt := dealOut_eq_firstMatchGroups hagree files
    rw [hconfigs] at hdealt
    simp only [hmatchers] at h
    rw [← Except.ok.inj h, hdealt]

/-- Files are assigned to the first configuration that matches them.  When all patterns
can be read, there is a result: one group for every configuration that takes files, in
the order of the configurations, with the files that it takes in their order, and one
last group for the files that none matches, if there are any.  No group is empty, and
together the groups hold every file as often as it was given. -/
theorem partition_first_match {configs : List ConfigFile}
    (hcompiles : ∀ c ∈ configs, c.Compiles) (files : List SourceFile) :
    ∃ groups, partition configs files = .ok groups ∧
      groups = (configs.zipIdx.map (groupAt configs files) ++
        [ConfigGroup.mk none (unassigned configs files)]).filter (fun g => !g.files.isEmpty) ∧
      (∀ g ∈ groups, g.files ≠ []) ∧
      (∀ g ∈ groups.dropLast, g.config.isSome = true) ∧
      ((∃ g ∈ groups, g.config = none) ↔
        ∃ f ∈ files, ∀ c ∈ configs, c.matchesPath f.path = false) ∧
      (groups.flatMap ConfigGroup.files).Perm files := by
  obtain ⟨matchers, hmatchers, hconfigs, hagree⟩ := ConfigMatcher.ofConfigs_ok hcompiles
  refine ⟨firstMatchGroups configs files, ?_, rfl,
    fun g hg => files_ne_nil_of_mem_firstMatchGroups hg,
    fun g hg => config_isSome_of_mem_dropLast hg, exists_config_none_iff configs files,
    perm_firstMatchGroups configs files⟩
  have hdealt := dealOut_eq_firstMatchGroups hagree files
  rw [hconfigs] at hdealt
  simp [partition, hmatchers, hdealt]

/-- Two configurations that both claim the first file, which is given twice; the last
file is claimed by none. -/
def overlappingConfigs : List ConfigFile :=
  [⟨⟨"/p/a/t.json"⟩, [], [], [], some ["*.ts"], []⟩, ⟨⟨"/p/t.json"⟩, [], [], [], none, []⟩]

theorem partition_overlappingConfigs :
    (∀ c ∈ overlappingConfigs, c.Compiles) ∧
    ∃ groups,
      partition overlappingConfigs
        [.main ⟨"/p/a/x.ts"⟩, .main ⟨"/p/y.ts"⟩, .main ⟨"/q/z.ts"⟩, .main ⟨"/p/a/x.ts"⟩] =
          .ok groups ∧
      groups.map ConfigGroup.files =
        [[.main ⟨"/p/a/x.ts"⟩, .main ⟨"/p/a/x.ts"⟩], [.main ⟨"/p/y.ts"⟩], [.main ⟨"/q/z.ts"⟩]] ∧
      (groups.flatMap ConfigGroup.files).Perm
        [.main ⟨"/p/a/x.ts"⟩, .main ⟨"/p/y.ts"⟩, .main ⟨"/q/z.ts"⟩, .main ⟨"/p/a/x.ts"⟩] := by
  have hcompiles : ∀ c ∈ overlappingConfigs, c.Compiles := by decide +kernel
  obtain ⟨groups, hok, hgroups, -, -, -, hperm⟩ := partition_first_match hcompiles
    [.main ⟨"/p/a/x.ts"⟩, .main ⟨"/p/y.ts"⟩, .main ⟨"/q/z.ts"⟩, .main ⟨"/p/a/x.ts"⟩]
  refine ⟨hcompiles, groups, hok, ?_, hperm⟩
  rw [hgroups]
  decide +kernel

end LintRelay
