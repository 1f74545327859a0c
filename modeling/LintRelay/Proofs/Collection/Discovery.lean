import LintRelay.Proofs.Collection
set_option autoImplicit false

/-!
# Which configurations are found

Sources and configurations are sought by two walks over the same tree, and each leaves out
directories by a rule of its own.  Below a root that is no link and has none below it, the
configurations found are those that no directory of dependencies and no hidden directory stands
above (`configBelow_mem_iff`).  The search for sources leaves out all of these directories, and
some more, so a configuration that stands above a collected file is always found
(`Collectable.reaches`).
-/

namespace LintRelay.Collection

open Disk (Entry EntryKind Location Node WalkFault WalkRule entryBelow nameOf pathBelow rootEntry)
open Disk.Node (Open)

/-! ## Configurations by their places -/

/-- There is a regular file with the name of configurations in the directory at a location. -/
def HasConfig (n : Node) (dir : Location) : Prop :=
  ∃ bytes, n.find? (dir ++ [Path.defaultConfigName]) = some (.file bytes)

/-- The path of the configuration in the directory at a location below a root. -/
def configBelow (root : Path) (dir : Location) : Path :=
  pathBelow root (dir ++ [Path.defaultConfigName])

/-- No directory from the root down to the one at the location is of dependencies, and none below
the root is hidden. -/
structure Reaches (root : Path) (dir : Location) : Prop where
  root : nameOf root ≠ "node_modules"
  below : ∀ name ∈ dir, name ≠ "node_modules" ∧ ¬ isHidden name = true

/-- Where a file is collected, the search for configurations has come to all directories above. -/
theorem Collectable.reaches {language : Language} {s : Settings} {root : Path} {n : Node}
    {rel dir : Location} (h : Collectable language s root n rel) (hdir : dir <+: rel.dropLast) :
    Reaches root dir := by
  have hskipped : "node_modules" ∈ skippedDirectories := by decide
  constructor
  · intro hname
    apply h.searched
    rw [hname]
    exact hskipped
  · intro name hmem
    obtain ⟨hnot, hhidden⟩ := h.above name (hdir.subset hmem)
    refine ⟨?_, hhidden⟩
    intro hname
    apply hnot
    rw [hname]
    exact hskipped

/-! ## What the search makes of a walk -/

/-- The directories that are searched for configurations below the root. -/
def entersConfig (name : String) : Bool := name != "node_modules" && !isHidden name

theorem entersConfig_iff {name : String} :
    entersConfig name = true ↔ name ≠ "node_modules" ∧ ¬ isHidden name = true := by
  simp [entersConfig]

theorem enters_keepsConfig (followLinks : Bool) :
    WalkRule.Enters ⟨followLinks, keepsConfig⟩ entersConfig := by
  intro e hdepth
  by_cases hdir : e.kind = .dir
  · simp [keepsConfig, entersConfig, hdir, hdepth]
  · simp [keepsConfig, hdir]

theorem keepsConfig_rootEntry (root : Path) (n : Node) :
    keepsConfig (rootEntry root n) = true ↔ (n.isDir = true → nameOf root ≠ "node_modules") := by
  by_cases hdir : n.isDir = true
  · simp [keepsConfig, rootEntry, Disk.kindOf_eq_dir_iff, hdir]
  · simp [keepsConfig, rootEntry, Disk.kindOf_eq_dir_iff, hdir]

/-- The regular file at a location has the name of configurations; the root has its own name. -/
structure ConfigAt (root : Path) (n : Node) (rel : Location) : Prop where
  file : ∃ bytes, n.find? rel = some (.file bytes)
  name : rel.getLastD (nameOf root) = Path.defaultConfigName

theorem HasConfig.configAt {n : Node} {dir : Location} (h : HasConfig n dir) (root : Path) :
    ConfigAt root n (dir ++ [Path.defaultConfigName]) :=
  ⟨h, by simp⟩

theorem ConfigAt.properNames {root : Path} {n : Node} {rel : Location} (h : ConfigAt root n rel)
    (hplain : n.Plain) : ∀ name ∈ rel, Node.ProperName name := by
  obtain ⟨bytes, hfind⟩ := h.file
  exact hplain.properNames hfind

theorem configOf?_eq_some_iff {e : Entry} {p : Path} :
    configOf? (.ok e) = some p ↔
      e.kind = .file ∧ e.name = Path.defaultConfigName ∧ p = e.path := by
  simp only [configOf?, Bool.and_eq_true, decide_eq_true_eq]
  split_ifs with h
  · simp [h, eq_comm]
  · simp only [false_iff]
    rintro ⟨hkind, hname, -⟩
    exact h ⟨hkind, hname⟩

/-- Of the entries of a walk, those of configurations are kept. -/
theorem configOf?_entryBelow_iff {root : Path} {n : Node} {rel : Location} {p : Path}
    (hopen : Open entersConfig n rel) :
    configOf? (.ok (entryBelow (rootEntry root n) n rel)) = some p ↔
      ConfigAt root n rel ∧ p = pathBelow root rel := by
  obtain ⟨c, hfind⟩ := hopen.exists_find?
  have hkind : (entryBelow (rootEntry root n) n rel).kind = .file ↔ ∃ bytes, c = .file bytes := by
    simp only [entryBelow, hfind, Option.map_some, Option.getD_some]
    cases c <;> simp [Disk.kindOf]
  rw [configOf?_eq_some_iff, hkind, ← and_assoc]
  refine and_congr_left' ?_
  constructor
  · rintro ⟨⟨bytes, rfl⟩, hname⟩
    exact ⟨⟨bytes, hfind⟩, hname⟩
  · rintro ⟨⟨bytes, hfile⟩, hname⟩
    exact ⟨⟨bytes, Option.some.inj (hfind.symm.trans hfile)⟩, hname⟩

section PlainRoot

variable {d : Disk} {root : Path} {n : Node} (hroot : d.named? root = some n) (hplain : n.Plain)

include hroot hplain

/-- The locations that the search for configurations comes to below a root. -/
theorem mem_listed_keepsConfig_iff {rel : Location} :
    rel ∈ Disk.listed ⟨false, keepsConfig⟩ entersConfig d root n ↔
      (n.isDir = true → nameOf root ≠ "node_modules") ∧ Open entersConfig n rel := by
  rw [Disk.mem_listed_iff _ (Disk.node_of_named? hroot hplain) hplain, keepsConfig_rootEntry]

theorem discoverConfigs_of_plain :
    discoverConfigs d root =
      (Disk.listed ⟨false, keepsConfig⟩ entersConfig d root n).filterMap fun rel =>
        configOf? (.ok (entryBelow (rootEntry root n) n rel)) := by
  rw [discoverConfigs, Disk.walk_of_named (enters_keepsConfig false) hplain hroot,
    List.filterMap_map]
  rfl

theorem mem_discoverConfigs_iff {p : Path} :
    p ∈ discoverConfigs d root ↔
      ∃ rel, (n.isDir = true → nameOf root ≠ "node_modules") ∧ Open entersConfig n rel ∧
        ConfigAt root n rel ∧ p = pathBelow root rel := by
  rw [discoverConfigs_of_plain hroot hplain, List.mem_filterMap]
  constructor
  · rintro ⟨rel, hmem, hconfig⟩
    obtain ⟨hname, hopen⟩ := (mem_listed_keepsConfig_iff hroot hplain).mp hmem
    obtain ⟨hat, rfl⟩ := (configOf?_entryBelow_iff hopen).mp hconfig
    exact ⟨rel, hname, hopen, hat, rfl⟩
  · rintro ⟨rel, hname, hopen, hat, rfl⟩
    exact ⟨rel, (mem_listed_keepsConfig_iff hroot hplain).mpr ⟨hname, hopen⟩,
      (configOf?_entryBelow_iff hopen).mpr ⟨hat, rfl⟩⟩

/-- No configuration is found twice: the walk comes to each location once, and different locations
have different paths. -/
theorem nodup_discoverConfigs : (discoverConfigs d root).Nodup := by
  rw [discoverConfigs_of_plain hroot hplain, List.nodup_iff_pairwise_ne, List.pairwise_filterMap]
  refine (Disk.pairwise_listed _ _ d root hplain).imp_of_mem ?_
  intro a b ha hb hlt p hp q hq hpq
  obtain ⟨-, hopena⟩ := (mem_listed_keepsConfig_iff hroot hplain).mp ha
  obtain ⟨-, hopenb⟩ := (mem_listed_keepsConfig_iff hroot hplain).mp hb
  obtain ⟨hata, rfl⟩ := (configOf?_entryBelow_iff hopena).mp hp
  obtain ⟨hatb, rfl⟩ := (configOf?_entryBelow_iff hopenb).mp hq
  obtain rfl := Disk.pathBelow_inj root (hata.properNames hplain) (hatb.properNames hplain) hpq
  exact List.lt_irrefl a hlt

/-- A configuration below the root is found if and only if every directory above it is entered. -/
theorem configBelow_mem_iff {dir : Location} (hconfig : HasConfig n dir) :
    configBelow root dir ∈ discoverConfigs d root ↔ Reaches root dir := by
  obtain ⟨bytes, hfind⟩ := hconfig
  have hdir : n.isDir = true := by
    obtain ⟨es, hes⟩ := (Node.dirAt_of_find?_concat hfind).root
    obtain rfl := Option.some.inj hes
    rfl
  have hat := HasConfig.configAt ⟨bytes, hfind⟩ root
  have habove : Open entersConfig n (dir ++ [Path.defaultConfigName]) ↔
      ∀ name ∈ dir, name ≠ "node_modules" ∧ ¬ isHidden name = true := by
    rw [Node.open_iff_of_file hfind, List.dropLast_concat]
    exact forall₂_congr fun name _ => entersConfig_iff
  rw [mem_discoverConfigs_iff hroot hplain]
  constructor
  · rintro ⟨rel, hname, hopen, hrel, hpath⟩
    obtain rfl := Disk.pathBelow_inj root (hat.properNames hplain) (hrel.properNames hplain) hpath
    exact ⟨hname hdir, habove.mp hopen⟩
  · intro hreaches
    exact ⟨_, fun _ => hreaches.root, habove.mpr hreaches.below, hat, rfl⟩

/-- What is found is a configuration below the root, or the root itself. -/
theorem exists_of_mem_discoverConfigs {p : Path} (hp : p ∈ discoverConfigs d root) :
    (∃ dir, HasConfig n dir ∧ p = configBelow root dir) ∨
      (n.isFile = true ∧ nameOf root = Path.defaultConfigName ∧ p = root) := by
  obtain ⟨rel, -, -, ⟨⟨bytes, hfind⟩, hname⟩, rfl⟩ := (mem_discoverConfigs_iff hroot hplain).mp hp
  rcases List.eq_nil_or_concat' rel with rfl | ⟨dir, last, rfl⟩
  · obtain rfl := Option.some.inj hfind
    exact .inr ⟨rfl, hname, rfl⟩
  · obtain rfl : last = Path.defaultConfigName := by simpa using hname
    exact .inl ⟨dir, ⟨bytes, hfind⟩, rfl⟩

end PlainRoot

/-- At a root where nothing is, no search finds anything, and that for sources tells so.  Where the
tree at the root has no links, no configuration is found twice, one below the root is found if and
only if no directory of dependencies and no hidden directory stands above it, and nothing else is
found but a root that is a configuration itself.  All configurations in directories from the root
down to a collected file are found. -/
theorem configurations_above_sources_are_found {d : Disk} {root : Path}
    (hplain : ∀ n, d.named? root = some n → n.Plain) (language : Language) (s : Settings) :
    (d.named? root = none →
      (∃ fault, collectFiles d root language s = .error fault) ∧ discoverConfigs d root = []) ∧
    (discoverConfigs d root).Nodup ∧
    ∀ n, d.named? root = some n →
      (∃ (files : List SourceFile) (rels : List Location),
        collectFiles d root language s = .ok files ∧
        files.map SourceFile.path = rels.map (pathBelow root) ∧
        ∀ rel ∈ rels, (∃ bytes, n.find? rel = some (.file bytes)) ∧
          ∀ dir, dir <+: rel.dropLast → HasConfig n dir →
            configBelow root dir ∈ discoverConfigs d root) ∧
      (∀ dir, HasConfig n dir →
        (configBelow root dir ∈ discoverConfigs d root ↔ Reaches root dir)) ∧
      ∀ p ∈ discoverConfigs d root,
        (∃ dir, HasConfig n dir ∧ p = configBelow root dir) ∨
          (n.isFile = true ∧ nameOf root = Path.defaultConfigName ∧ p = root) := by
  have hmissing : d.named? root = none →
      (∃ fault, collectFiles d root language s = .error fault) ∧ discoverConfigs d root = [] := by
    intro hnone
    obtain ⟨e, hsources⟩ := Disk.walk_of_missing hnone ⟨true, keepsSource⟩
    obtain ⟨e', hconfigs⟩ := Disk.walk_of_missing hnone ⟨false, keepsConfig⟩
    exact ⟨⟨.os root e, by rw [collectFiles, hsources, sources]⟩,
      by rw [discoverConfigs, hconfigs]; rfl⟩
  refine ⟨hmissing, ?_, ?_⟩
  · cases hroot : d.named? root with
    | none =>
      rw [(hmissing hroot).2]
      exact List.nodup_nil
    | some n => exact nodup_discoverConfigs hroot (hplain n hroot)
  · intro n hroot
    have htree := hplain n hroot
    have hnode := Disk.node_of_named? hroot htree
    refine ⟨⟨_, (searched d root n).filter (collects language s root n),
      collectFiles_of_plain hnode htree language s, ?_, ?_⟩, ?_, ?_⟩
    · rw [List.map_map]
      rfl
    · intro rel hrel
      have hcollected := (mem_filter_searched_iff hnode htree).mp hrel
      refine ⟨hcollected.file, ?_⟩
      intro dir hdir hconfig
      exact (configBelow_mem_iff hroot htree hconfig).mpr (hcollected.reaches hdir)
    · intro dir hconfig
      exact configBelow_mem_iff hroot htree hconfig
    · intro p hp
      exact exists_of_mem_discoverConfigs hroot htree hp

/-- A project with configurations beside its sources, in a directory that is not searched for
sources, and among dependencies. -/
def configuredProject : Node :=
  .dir
    [("tsconfig.json", .file []),
     ("src", .dir [("a.ts", .file []), ("tsconfig.json", .file [])]),
     ("dist", .dir [("tsconfig.json", .file [])]),
     ("node_modules", .dir [("dep", .dir [("tsconfig.json", .file [])])])]

/-- The configurations above the one source are found, and also the one where no sources are
sought; the one among dependencies is not. -/
theorem configuredProject_found :
    ∃ d : Disk, d.named? ⟨"/p"⟩ = some configuredProject ∧
      (∃ files, collectFiles d ⟨"/p"⟩ .typeScript Settings.default = .ok files ∧
        ⟨"/p/src/a.ts"⟩ ∈ files.map SourceFile.path) ∧
      ⟨"/p/tsconfig.json"⟩ ∈ discoverConfigs d ⟨"/p"⟩ ∧
      ⟨"/p/src/tsconfig.json"⟩ ∈ discoverConfigs d ⟨"/p"⟩ ∧
      ⟨"/p/dist/tsconfig.json"⟩ ∈ discoverConfigs d ⟨"/p"⟩ ∧
      ⟨"/p/node_modules/dep/tsconfig.json"⟩ ∉ discoverConfigs d ⟨"/p"⟩ ∧
      (discoverConfigs d ⟨"/p"⟩).Nodup := by
  have hroot : (Disk.mk (.dir [("p", configuredProject)]) []).named? ⟨"/p"⟩ =
      some configuredProject := rfl
  have htree : configuredProject.Plain := by
    simp [configuredProject, Node.Plain, Node.PlainEntries, Node.ProperName, Path.Component.Proper]
  obtain ⟨-, hnodup, hall⟩ := configurations_above_sources_are_found
    (fun n hn => Option.some.inj (hroot.symm.trans hn) ▸ htree) .typeScript Settings.default
  obtain ⟨⟨files, rels, hfiles, -, -⟩, hfound, -⟩ := hall _ hroot
  refine ⟨_, hroot, ⟨files, hfiles, ?_⟩, ?_, ?_, ?_, ?_, hnodup⟩
  · have hnode := Disk.node_of_named? hroot htree
    have hwanted : Wanted .typeScript Settings.default ⟨"/p/src/a.ts"⟩ :=
      ⟨⟨"ts", by decide, by decide⟩, by decide, List.forall_mem_nil _⟩
    obtain rfl := Except.ok.inj ((collectFiles_of_plain hnode htree _ _).symm.trans hfiles)
    rw [List.map_map, List.mem_map]
    exact ⟨["src", "a.ts"], (mem_filter_searched_iff hnode htree).mpr
      ⟨⟨[], rfl⟩, by decide, by decide, hwanted⟩, rfl⟩
  · exact (hfound [] ⟨[], rfl⟩).mpr ⟨by decide, by decide⟩
  · exact (hfound ["src"] ⟨[], rfl⟩).mpr ⟨by decide, by decide⟩
  · exact (hfound ["dist"] ⟨[], rfl⟩).mpr ⟨by decide, by decide⟩
  · intro hmem
    have hreaches := (hfound ["node_modules", "dep"] ⟨[], rfl⟩).mp hmem
    exact (hreaches.below "node_modules" (by decide)).1 rfl

end LintRelay.Collection
