import LintRelay.Proofs.Project.Partition
set_option autoImplicit false

/-!
# Assignment under changed rules

The group of a file is the position of the first configuration that matches it, and this file
is about how positions change with the configurations.  Configurations behind the others get
only files that nobody had.  A configuration that matches less passes files on to those behind
it, and one that matches more takes files from them; the ones before it, and the files that
they have, are not concerned.  Both are one statement, read in either direction
(`position_narrowed`), and what is left is that an exclude pattern makes a configuration match
less, and an include pattern more.
-/

namespace LintRelay

/-! ## Positions -/

/-- The position of the first configuration that matches a file. -/
def position (configs : List ConfigFile) (f : SourceFile) : Option Nat :=
  configs.findIdx? fun c => c.matchesPath f.path

/-- The groups of files when every file goes to its home: one for each configuration, in their
order, and one for the files without a home, as far as there are files in them. -/
def groupsBy (home : SourceFile → Option Nat) (configs : List ConfigFile)
    (files : List SourceFile) : List ConfigGroup :=
  (configs.zipIdx.map
      (fun ci => ConfigGroup.mk (some ci.1) (files.filter fun f => home f = some ci.2)) ++
    [ConfigGroup.mk none (files.filter fun f => home f = none)]).filter fun g => !g.files.isEmpty

/-- The partition of files is by their positions. -/
def PartitionedByPosition (configs : List ConfigFile) (files : List SourceFile) : Prop :=
  partition configs files = .ok (groupsBy (position configs) configs files)

theorem position_nil (f : SourceFile) : position [] f = none := rfl

theorem position_cons (c : ConfigFile) (rest : List ConfigFile) (f : SourceFile) :
    position (c :: rest) f =
      if c.matchesPath f.path then some 0 else (position rest f).map (· + 1) :=
  List.findIdx?_cons

theorem position_append (front back : List ConfigFile) (f : SourceFile) :
    position (front ++ back) f =
      (position front f).or ((position back f).map (· + front.length)) :=
  List.findIdx?_append

theorem takesFile_eq_decide (configs : List ConfigFile) (i : Nat) (f : SourceFile) :
    takesFile configs i f = decide (position configs f = some i) := by
  induction configs generalizing i with
  | nil => simp [takesFile, position_nil]
  | cons c rest ih =>
    rw [position_cons]
    cases hc : c.matchesPath f.path with
    | true => cases i <;> simp [takesFile, hc]
    | false =>
      cases i with
      | zero => simp [takesFile, hc]
      | succ i =>
        have hrest : takesFile (c :: rest) (i + 1) f = takesFile rest i f := by
          simp [takesFile, hc]
        simp [hrest, ih i]

theorem firstMatchGroups_eq_groupsBy (configs : List ConfigFile) (files : List SourceFile) :
    firstMatchGroups configs files = groupsBy (position configs) configs files := by
  have hassigned : groupAt configs files =
      fun ci => ⟨some ci.1, files.filter fun f => position configs f = some ci.2⟩ := by
    funext ci
    rw [groupAt, assigned, List.filter_congr fun f _ => takesFile_eq_decide configs ci.2 f]
  have hunassigned : unassigned configs files =
      files.filter fun f => position configs f = none := by
    refine List.filter_congr fun f _ => ?_
    rw [Bool.eq_iff_iff, decide_eq_true_iff, position, List.findIdx?_eq_none_iff]
    simp
  rw [firstMatchGroups, groupsBy, hassigned, hunassigned]

theorem partitionedByPosition {configs : List ConfigFile} (h : ∀ c ∈ configs, c.Compiles)
    (files : List SourceFile) : PartitionedByPosition configs files := by
  obtain ⟨matchers, hmatchers, -, -⟩ := ConfigMatcher.ofConfigs_ok h
  have hpartition : partition configs files = .ok (dealOut matchers files) := by
    simp [partition, hmatchers]
  rw [PartitionedByPosition, hpartition, eq_firstMatchGroups_of_partition hpartition,
    firstMatchGroups_eq_groupsBy]

/-! ## One configuration changes -/

/-- Home is behind a position: at a later configuration, or nowhere. -/
def Behind (i : Nat) (home : Option Nat) : Prop := ∀ j, home = some j → i < j

/-- When the configuration behind `front` matches less, files that it had go to a later one or
to none, and no other file moves. -/
theorem position_narrowed (front back : List ConfigFile) {wide narrow : ConfigFile}
    {f : SourceFile}
    (h : narrow.matchesPath f.path = true → wide.matchesPath f.path = true) :
    position (front ++ narrow :: back) f = position (front ++ wide :: back) f ∨
      position (front ++ wide :: back) f = some front.length ∧
        Behind front.length (position (front ++ narrow :: back) f) := by
  rw [position_append, position_append, position_cons, position_cons]
  cases position front f with
  | some j => exact .inl rfl
  | none =>
    cases hnarrow : narrow.matchesPath f.path with
    | true => exact .inl (by rw [h hnarrow])
    | false =>
      cases wide.matchesPath f.path with
      | false => exact .inl rfl
      | true =>
        -- The search goes on behind the configuration that lost the file.
        refine .inr ⟨by simp, fun j hj => ?_⟩
        cases hback : position back f with
        | none => simp [hback] at hj
        | some k =>
          have hj' : k + 1 + front.length = j := by simpa [hback] using hj
          omega

theorem position_unchanged (front back : List ConfigFile) {c d : ConfigFile} {f : SourceFile}
    (h : c.matchesPath f.path = d.matchesPath f.path) :
    position (front ++ c :: back) f = position (front ++ d :: back) f := by
  rw [position_append, position_append, position_cons, position_cons, h]

/-- A configuration at a position, and the ones on both sides of it. -/
theorem exists_split_set {configs : List ConfigFile} {i : Nat} {c : ConfigFile}
    (h : configs[i]? = some c) :
    ∃ front back, front.length = i ∧ configs = front ++ c :: back ∧
      ∀ d, configs.set i d = front ++ d :: back := by
  obtain ⟨hi, hc⟩ := List.getElem?_eq_some_iff.mp h
  have hset : ∀ d, configs.set i d = configs.take i ++ d :: configs.drop (i + 1) := fun d => by
    rw [List.set_eq_take_append_cons_drop, if_pos hi]
  refine ⟨configs.take i, configs.drop (i + 1), List.length_take_of_le (Nat.le_of_lt hi), ?_, hset⟩
  rw [← hset c, ← hc, List.set_getElem_self]

theorem compiles_set {configs : List ConfigFile} {i : Nat} {d : ConfigFile}
    (h : ∀ c ∈ configs, c.Compiles) (hd : d.Compiles) : ∀ c ∈ configs.set i d, c.Compiles := by
  intro c hc
  rcases List.mem_or_eq_of_mem_set hc with hc | rfl
  · exact h c hc
  · exact hd

/-! ## One more pattern -/

/-- The globs that a pattern stands for can be read. -/
def Pattern.Compiles (p : String) : Prop := ∀ g ∈ expand p, (Glob.parse g).isOk = true

instance (p : String) : Decidable (Pattern.Compiles p) :=
  inferInstanceAs (Decidable (∀ g ∈ Pattern.expand p, (Glob.parse g).isOk = true))

namespace ConfigFile

/-- The configuration lists the path among its files. -/
def listsPath (c : ConfigFile) (path : Path) : Bool :=
  c.files.any fun f => (c.dir.join f).normalize = path.normalize

theorem matchesPath_iff {c : ConfigFile} {path : Path} :
    c.matchesPath path = true ↔
      c.listsPath path = true ∨
        ∃ relative, Path.below? c.dir path.normalize = some relative ∧
          patternsCover c.effectiveIncludes relative = true ∧
          patternsCover c.excludes relative = false := by
  rw [matchesPath, ← listsPath, Bool.or_eq_true]
  cases Path.below? c.dir path.normalize <;> simp

theorem patternsCover_of_perm {patterns more : List String} {p : String}
    (h : more.Perm (p :: patterns)) (relative : Path) :
    patternsCover more relative =
      (patternsCover [p] relative || patternsCover patterns relative) := by
  simp [patternsCover, h.any_eq]

/-- What a configuration matches with one more exclude pattern, it matches without. -/
theorem matchesPath_of_moreExcludes {c : ConfigFile} {excludes : List String} {p : String}
    (hmore : excludes.Perm (p :: c.excludes)) {path : Path}
    (h : { c with excludes := excludes }.matchesPath path = true) : c.matchesPath path = true := by
  rcases matchesPath_iff.mp h with hlisted | ⟨relative, hbelow, hincluded, hexcluded⟩
  · exact matchesPath_iff.mpr (.inl hlisted)
  · have hfewer : patternsCover excludes relative = false := hexcluded
    rw [patternsCover_of_perm hmore, Bool.or_eq_false_iff] at hfewer
    exact matchesPath_iff.mpr (.inr ⟨relative, hbelow, hincluded, hfewer.2⟩)

/-- What a configuration matches, it matches with one more include pattern. -/
theorem matchesPath_moreIncludes {c : ConfigFile} {patterns includes : List String} {p : String}
    (hpatterns : c.includes = some patterns) (hmore : includes.Perm (p :: patterns)) {path : Path}
    (h : c.matchesPath path = true) :
    { c with includes := some includes }.matchesPath path = true := by
  rcases matchesPath_iff.mp h with hlisted | ⟨relative, hbelow, hincluded, hexcluded⟩
  · exact matchesPath_iff.mpr (.inl hlisted)
  · have hcovered : patternsCover includes relative = true := by
      rw [effectiveIncludes, hpatterns] at hincluded
      rw [patternsCover_of_perm hmore, hincluded, Bool.or_true]
    exact matchesPath_iff.mpr (.inr ⟨relative, hbelow, hcovered, hexcluded⟩)

theorem compiles_moreExcludes {c : ConfigFile} {excludes : List String} {p : String}
    (h : c.Compiles) (hp : Pattern.Compiles p) (hmore : excludes.Perm (p :: c.excludes)) :
    { c with excludes := excludes }.Compiles := by
  intro q hq
  rcases List.mem_append.mp hq with hq | hq
  · exact h q (List.mem_append_left _ hq)
  · rcases List.mem_cons.mp (hmore.mem_iff.mp hq) with rfl | hq
    · exact hp
    · exact h q (List.mem_append_right _ hq)

theorem compiles_moreIncludes {c : ConfigFile} {patterns includes : List String} {p : String}
    (h : c.Compiles) (hp : Pattern.Compiles p) (hpatterns : c.includes = some patterns)
    (hmore : includes.Perm (p :: patterns)) : { c with includes := some includes }.Compiles := by
  have heffective : c.effectiveIncludes = patterns := by rw [effectiveIncludes, hpatterns]
  intro q hq
  rcases List.mem_append.mp hq with hq | hq
  · rcases List.mem_cons.mp (hmore.mem_iff.mp hq) with rfl | hq
    · exact hp
    · exact h q (List.mem_append_left _ (heffective ▸ hq))
  · exact h q (List.mem_append_right _ hq)

end ConfigFile

/-- Files move with the rules and not otherwise.  Further configurations take no file that
already has one.  One more exclude pattern in a configuration moves only files that it had,
to a later configuration or to none, and none of the files that it lists.  One more include
pattern in a configuration that has some moves only files that a later configuration had, or
none, and moves them to this one.  Where a pattern stands among the others does not matter. -/
theorem assignment_is_monotone {configs : List ConfigFile}
    (hconfigs : ∀ c ∈ configs, c.Compiles) (files : List SourceFile) :
    PartitionedByPosition configs files ∧
    (∀ more : List ConfigFile, (∀ c ∈ more, c.Compiles) →
      PartitionedByPosition (configs ++ more) files ∧
      ∀ f i, position configs f = some i → position (configs ++ more) f = some i) ∧
    (∀ i c p excludes, configs[i]? = some c → Pattern.Compiles p →
      excludes.Perm (p :: c.excludes) →
      PartitionedByPosition (configs.set i { c with excludes := excludes }) files ∧
      ∀ f,
        (position (configs.set i { c with excludes := excludes }) f = position configs f ∨
          position configs f = some i ∧
            Behind i (position (configs.set i { c with excludes := excludes }) f)) ∧
        (c.listsPath f.path = true →
          position (configs.set i { c with excludes := excludes }) f = position configs f)) ∧
    (∀ i c p patterns includes, configs[i]? = some c → Pattern.Compiles p →
      c.includes = some patterns → includes.Perm (p :: patterns) →
      PartitionedByPosition (configs.set i { c with includes := some includes }) files ∧
      ∀ f,
        position (configs.set i { c with includes := some includes }) f = position configs f ∨
          Behind i (position configs f) ∧
            position (configs.set i { c with includes := some includes }) f = some i) := by
  refine ⟨partitionedByPosition hconfigs files, ?_, ?_, ?_⟩
  · intro more hmore
    refine ⟨partitionedByPosition (List.forall_mem_append.mpr ⟨hconfigs, hmore⟩) files, ?_⟩
    intro f i hi
    rw [position_append, hi, Option.some_or]
  · intro i c p excludes hc hp hmore
    have hcompiles := ConfigFile.compiles_moreExcludes (hconfigs c (List.mem_of_getElem? hc)) hp
      hmore
    refine ⟨partitionedByPosition (compiles_set hconfigs hcompiles) files, fun f => ?_⟩
    obtain ⟨front, back, rfl, rfl, hset⟩ := exists_split_set hc
    rw [hset]
    refine ⟨position_narrowed front back (ConfigFile.matchesPath_of_moreExcludes hmore), ?_⟩
    intro hlisted
    refine position_unchanged front back ?_
    rw [ConfigFile.matchesPath_iff.mpr (.inl hlisted)]
    exact ConfigFile.matchesPath_iff.mpr (.inl hlisted)
  · intro i c p patterns includes hc hp hpatterns hmore
    have hcompiles := ConfigFile.compiles_moreIncludes (hconfigs c (List.mem_of_getElem? hc)) hp
      hpatterns hmore
    refine ⟨partitionedByPosition (compiles_set hconfigs hcompiles) files, fun f => ?_⟩
    obtain ⟨front, back, rfl, rfl, hset⟩ := exists_split_set hc
    rw [hset]
    have hwider : c.matchesPath f.path = true →
        { c with includes := some includes }.matchesPath f.path = true :=
      ConfigFile.matchesPath_moreIncludes hpatterns hmore
    rcases position_narrowed front back hwider with hsame | hmoved
    · exact .inl hsame.symm
    · exact .inr hmoved.symm

/-- A configuration of its own for a directory inside a project; it lists one file. -/
def innerConfig : ConfigFile :=
  ⟨⟨"/p/a/t.json"⟩, [], [], [⟨"kept.ts"⟩], some ["*.ts"], []⟩

/-- A project and, before it, a directory inside it. -/
def nestedConfigs : List ConfigFile := [innerConfig, ⟨⟨"/p/t.json"⟩, [], [], [], none, []⟩]

/-- Files go back and forth between the directory and the project around it. -/
theorem nestedConfigs_assignment :
    (∀ c ∈ nestedConfigs, c.Compiles) ∧ nestedConfigs[0]? = some innerConfig ∧
    position nestedConfigs (.main ⟨"/p/a/x.ts"⟩) = some 0 ∧
    position (nestedConfigs ++ [.new ⟨"/p/a/b/t.json"⟩]) (.main ⟨"/p/a/x.ts"⟩) = some 0 ∧
    Behind 0 (position (nestedConfigs.set 0 { innerConfig with excludes := ["*.ts"] })
      (.main ⟨"/p/a/x.ts"⟩)) ∧
    innerConfig.listsPath ⟨"/p/a/kept.ts"⟩ = true ∧
    position (nestedConfigs.set 0 { innerConfig with excludes := ["*.ts"] })
      (.main ⟨"/p/a/kept.ts"⟩) = position nestedConfigs (.main ⟨"/p/a/kept.ts"⟩) ∧
    Behind 0 (position nestedConfigs (.main ⟨"/p/a/y.js"⟩)) ∧
    position (nestedConfigs.set 0 { innerConfig with includes := some ["*.js", "*.ts"] })
      (.main ⟨"/p/a/y.js"⟩) = some 0 := by
  have hcompiles : ∀ c ∈ nestedConfigs, c.Compiles := by decide +kernel
  have hinner : nestedConfigs[0]? = some innerConfig := rfl
  have htaken : position nestedConfigs (.main ⟨"/p/a/x.ts"⟩) = some 0 := by decide +kernel
  have hlisted : innerConfig.listsPath ⟨"/p/a/kept.ts"⟩ = true := by decide +kernel
  obtain ⟨-, happended, hexcluded, hincluded⟩ := assignment_is_monotone hcompiles
    [.main ⟨"/p/a/x.ts"⟩, .main ⟨"/p/a/kept.ts"⟩, .main ⟨"/p/a/y.js"⟩]
  obtain ⟨-, hstays⟩ := happended [.new ⟨"/p/a/b/t.json"⟩] (by decide +kernel)
  obtain ⟨-, hnarrowed⟩ := hexcluded 0 innerConfig "*.ts" ["*.ts"] hinner (by decide +kernel)
    (.refl _)
  obtain ⟨-, hwidened⟩ := hincluded 0 innerConfig "*.js" ["*.ts"] ["*.js", "*.ts"] hinner
    (by decide +kernel) rfl (.refl _)
  have hmoved := (hnarrowed (.main ⟨"/p/a/x.ts"⟩)).1.resolve_left (by decide +kernel)
  have hgained := (hwidened (.main ⟨"/p/a/y.js"⟩)).resolve_left (by decide +kernel)
  exact ⟨hcompiles, hinner, htaken, hstays _ 0 htaken, hmoved.2, hlisted,
    (hnarrowed (.main ⟨"/p/a/kept.ts"⟩)).2 hlisted, hgained.1, hgained.2⟩

end LintRelay
