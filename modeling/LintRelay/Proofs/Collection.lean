import LintRelay.Collection
import LintRelay.Proofs.Disk.Walk
set_option autoImplicit false

/-!
# Which files are collected

Below a root without links, the files collected are those that no skipped or hidden directory
stands above and that are sources by their paths, in the order of their locations below the
root.  What the walk lists is known from `walk_of_plain`; collection only filters it
(`sources_map_ok`), and a filter keeps the order.
-/

namespace LintRelay.Collection

open Disk (Entry Found Location Node WalkRule entryBelow nameOf pathBelow rootEntry)
open Disk.Node (Open listing)

/-! ## Sources by their paths -/

/-- The path is that of a source of the language, and nothing excludes it. -/
structure Wanted (language : Language) (s : Settings) (p : Path) : Prop where
  extension : ∃ e ∈ language.extensions, p.extension? = some e.toList
  undeclared : ¬ ".d.ts".toList <:+ p.text.toList
  unexcluded : ∀ pattern ∈ s.excludedPaths, ∀ tokens, Glob.parse pattern = .ok tokens →
    ¬ Glob.matchesText .whole tokens p.text = true

theorem contains_extension_iff (language : Language) (p : Path) :
    language.extensions.contains (String.ofList (p.extension?.getD [])) = true ↔
      ∃ e ∈ language.extensions, p.extension? = some e.toList := by
  rw [List.contains_iff_mem]
  cases p.extension? with
  | none => cases language <;> simp [Language.extensions]
  | some chars =>
    constructor
    · intro hmem
      exact ⟨_, hmem, by simp⟩
    · rintro ⟨e, he, hchars⟩
      obtain rfl := Option.some.inj hchars
      simpa using he

theorem not_excludes_iff (s : Settings) (p : Path) :
    ¬ s.excludes p = true ↔ ∀ pattern ∈ s.excludedPaths, ∀ tokens,
      Glob.parse pattern = .ok tokens → ¬ Glob.matchesText .whole tokens p.text = true := by
  rw [Bool.not_eq_true, Settings.excludes, List.any_eq_false]
  refine forall₂_congr fun pattern _ => ?_
  unfold Settings.patternExcludes
  cases Glob.parse pattern with
  | error f => simp
  | ok tokens => simp

theorem isSource_iff {language : Language} {s : Settings} {p : Path} :
    isSource language s p = true ↔ Wanted language s p := by
  have hdeclaration : isDeclaration p = true ↔ ".d.ts".toList <:+ p.text.toList :=
    List.isSuffixOf_iff_suffix
  simp only [isSource, Bool.and_eq_true, Bool.not_eq_true', ← Bool.not_eq_true,
    contains_extension_iff, not_excludes_iff, hdeclaration]
  constructor
  · rintro ⟨⟨hextension, hexcluded⟩, hdeclared⟩
    exact ⟨hextension, hdeclared, hexcluded⟩
  · rintro ⟨hextension, hdeclared, hexcluded⟩
    exact ⟨⟨hextension, hexcluded⟩, hdeclared⟩

/-- The names of skipped directories have no extension. -/
theorem Wanted.nameOf_notMem {language : Language} {s : Settings} {p : Path}
    (h : Wanted language s p) : nameOf p ∉ skippedDirectories := by
  intro hskipped
  obtain ⟨e, -, hextension⟩ := h.extension
  obtain ⟨chars, hname, hchars⟩ := Option.bind_eq_some_iff.mp hextension
  have hnone : ∀ name ∈ skippedDirectories, Path.extensionOf name.toList = none := by decide
  rw [nameOf, hname] at hskipped
  have hskippedChars := hnone _ hskipped
  rw [String.toList_ofList, hchars] at hskippedChars
  cases hskippedChars

/-- The file at a location below a root is to be collected. -/
structure Collectable (language : Language) (s : Settings) (root : Path) (n : Node)
    (rel : Location) : Prop where
  file : ∃ bytes, n.find? rel = some (.file bytes)
  searched : nameOf root ∉ skippedDirectories
  /-- No directory below the root and above the file is passed over. -/
  above : ∀ name ∈ rel.dropLast, name ∉ skippedDirectories ∧ ¬ isHidden name = true
  wanted : Wanted language s (pathBelow root rel)

theorem Collectable.properNames {language : Language} {s : Settings} {root : Path} {n : Node}
    {rel : Location} (h : Collectable language s root n rel) (hplain : n.Plain) :
    ∀ name ∈ rel, Node.ProperName name := by
  obtain ⟨bytes, hfind⟩ := h.file
  exact hplain.properNames hfind

/-! ## What collection makes of a walk -/

/-- The directories that are searched below the root. -/
def entersSource (name : String) : Bool := !isHidden name && !skippedDirectories.contains name

theorem enters_keepsSource : WalkRule.Enters ⟨true, keepsSource⟩ entersSource := by
  intro e hdepth
  by_cases hdir : e.kind = .dir
  · simp [keepsSource, entersSource, hdir, hdepth]
  · simp [keepsSource, hdir]

theorem keepsSource_rootEntry (root : Path) (n : Node) :
    keepsSource (rootEntry root n) = true ↔
      (n.isDir = true → nameOf root ∉ skippedDirectories) := by
  by_cases hdir : n.isDir = true
  · simp [keepsSource, rootEntry, Disk.kindOf_eq_dir_iff, hdir]
  · simp [keepsSource, rootEntry, Disk.kindOf_eq_dir_iff, hdir]

theorem sources_map_ok (language : Language) (s : Settings) (es : List Entry) :
    sources language s (es.map .ok) =
      .ok ((es.filter fun e => e.kind = .file && isSource language s e.path).map fun e =>
        sourceAt e.path) := by
  induction es with
  | nil => rfl
  | cons e rest ih =>
    rw [List.map_cons, sources, ih, List.filter_cons]
    split_ifs <;> rfl

theorem entersSource_iff {name : String} :
    entersSource name = true ↔ name ∉ skippedDirectories ∧ ¬ isHidden name = true := by
  simp [entersSource, and_comm]

/-- The locations that the search for sources comes to below a root. -/
def searched (d : Disk) (root : Path) (n : Node) : List Location :=
  if keepsSource (rootEntry root n) then [] :: listing entersSource (d.tree.count + 1) n else []

theorem searched_eq_listed (d : Disk) (root : Path) (n : Node) :
    searched d root n = Disk.listed ⟨true, keepsSource⟩ entersSource d root n := rfl

theorem pairwise_searched (d : Disk) (root : Path) {n : Node} (hplain : n.Plain) :
    (searched d root n).Pairwise (· < ·) := by
  rw [searched_eq_listed]
  exact Disk.pairwise_listed _ _ d root hplain

/-- There is a regular file at the location, and it is wanted. -/
def collects (language : Language) (s : Settings) (root : Path) (n : Node) (rel : Location) :
    Bool :=
  (entryBelow (rootEntry root n) n rel).kind = .file && isSource language s (pathBelow root rel)

section PlainRoot

variable {d : Disk} {root : Path} {n : Node} (hroot : d.node root = .ok n) (hplain : n.Plain)

include hroot hplain

theorem collectFiles_of_plain (language : Language) (s : Settings) :
    collectFiles d root language s =
      .ok (((searched d root n).filter (collects language s root n)).map fun rel =>
        sourceAt (pathBelow root rel)) := by
  have hwalk : d.walk ⟨true, keepsSource⟩ root =
      ((searched d root n).map (entryBelow (rootEntry root n) n)).map .ok := by
    rw [Disk.walk_of_plain enters_keepsSource hplain rfl hroot, List.map_map]
    rfl
  rw [collectFiles, hwalk, sources_map_ok, List.filter_map, List.map_map]
  rfl

theorem mem_searched_iff {rel : Location} :
    rel ∈ searched d root n ↔
      (n.isDir = true → nameOf root ∉ skippedDirectories) ∧ Open entersSource n rel := by
  rw [searched_eq_listed, Disk.mem_listed_iff _ hroot hplain, ← keepsSource_rootEntry]

theorem mem_filter_searched_iff {language : Language} {s : Settings} {rel : Location} :
    rel ∈ (searched d root n).filter (collects language s root n) ↔
      Collectable language s root n rel := by
  rw [List.mem_filter, mem_searched_iff hroot hplain, collects, Bool.and_eq_true,
    decide_eq_true_eq, isSource_iff]
  constructor
  · rintro ⟨⟨hname, hopen⟩, hkind, hwanted⟩
    obtain ⟨c, hfind⟩ := hopen.exists_find?
    obtain ⟨bytes, rfl⟩ : ∃ bytes, c = .file bytes := by
      simp only [entryBelow, hfind] at hkind
      cases c with
      | file bytes => exact ⟨bytes, rfl⟩
      | dir es => cases hkind
      | link target => cases hkind
    have habove := (Node.open_iff_of_file hfind).mp hopen
    refine ⟨⟨bytes, hfind⟩, ?_, fun name hmem => entersSource_iff.mp (habove name hmem), hwanted⟩
    by_cases hdir : n.isDir = true
    · exact hname hdir
    · -- A root that is a file is the only one, and its name has an extension.
      obtain rfl : rel = [] := by
        by_contra hne
        obtain ⟨name, rest, rfl⟩ := List.exists_cons_of_ne_nil hne
        exact Node.not_open_cons (by simpa using hdir) name rest hopen
      exact hwanted.nameOf_notMem
  · rintro ⟨⟨bytes, hfind⟩, hname, habove, hwanted⟩
    refine ⟨⟨fun _ => hname, ?_⟩, ?_, hwanted⟩
    · exact (Node.open_iff_of_file hfind).mpr fun name hmem =>
        entersSource_iff.mpr (habove name hmem)
    · simp [entryBelow, hfind, Disk.kindOf]

end PlainRoot

theorem sourceAt_kind (p : Path) :
    (sourceAt p).kind = .test ↔ SourceFile.looksLikeTest p = true := by
  simp [sourceAt]

/-- Below a root without links, collection succeeds.  The files that it gives have the paths of
their locations below the root, and come in the order of these, each of them once; they are exactly
those to be collected, and the ones that look like tests are marked. -/
theorem collection_is_exact_and_ordered {d : Disk} {root : Path} {n : Node}
    (hroot : d.node root = .ok n) (hplain : n.Plain) (language : Language) (s : Settings) :
    ∃ (files : List SourceFile) (rels : List Location),
      collectFiles d root language s = .ok files ∧
      files.map SourceFile.path = rels.map (pathBelow root) ∧
      (∀ rel ∈ rels, (pathBelow root rel).components =
        root.components ++ rel.map fun name => .name name.toList) ∧
      rels.Pairwise (· < ·) ∧ (files.map SourceFile.path).Nodup ∧
      (∀ rel, rel ∈ rels ↔ Collectable language s root n rel) ∧
      ∀ f ∈ files, f.contents = none ∧
        (f.kind = .test ↔ SourceFile.looksLikeTest f.path = true) := by
  have hmem : ∀ rel, rel ∈ (searched d root n).filter (collects language s root n) ↔
      Collectable language s root n rel := fun rel => mem_filter_searched_iff hroot hplain
  have hincreasing := (pairwise_searched d root hplain).filter (collects language s root n)
  have hfiles := collectFiles_of_plain hroot hplain language s
  generalize (searched d root n).filter (collects language s root n) = rels
    at hmem hincreasing hfiles
  have hpaths : (rels.map fun rel => sourceAt (pathBelow root rel)).map SourceFile.path =
      rels.map (pathBelow root) := by
    rw [List.map_map]
    rfl
  have hproper : ∀ rel ∈ rels, ∀ name ∈ rel, Node.ProperName name := fun rel hrel =>
    ((hmem rel).mp hrel).properNames hplain
  refine ⟨_, rels, hfiles, hpaths, ?_, hincreasing, ?_, hmem, ?_⟩
  · intro rel hrel
    exact Disk.components_pathBelow root (hproper rel hrel)
  · -- Files of one path are at one location.
    rw [hpaths, List.nodup_iff_pairwise_ne, List.pairwise_map]
    refine hincreasing.imp_of_mem fun {a b} ha hb hlt heq => ?_
    have hsame : a = b := Disk.pathBelow_inj root (hproper a ha) (hproper b hb) heq
    exact List.lt_irrefl b (hsame ▸ hlt)
  · intro f hf
    obtain ⟨rel, -, rfl⟩ := List.mem_map.mp hf
    exact ⟨rfl, sourceAt_kind _⟩

/-- A project with a source, one that is a test, and others that are passed over. -/
def smallProject : Node :=
  .dir
    [("src", .dir [("b.ts", .file []), ("a.test.ts", .file []), ("c.d.ts", .file [])]),
     ("dist", .dir [("b.ts", .file [])]),
     (".cache", .dir [("b.ts", .file [])])]

/-- The disk that has the project below its root. -/
def smallDisk : Disk := ⟨.dir [("p", smallProject)], []⟩

theorem smallProject_collected :
    ∃ (files : List SourceFile) (rels : List Location),
      collectFiles smallDisk ⟨"/p"⟩ .typeScript Settings.default = .ok files ∧
      files.map SourceFile.path = rels.map (pathBelow ⟨"/p"⟩) ∧ rels.Pairwise (· < ·) ∧
      ["src", "a.test.ts"] ∈ rels ∧ ["dist", "b.ts"] ∉ rels ∧ [".cache", "b.ts"] ∉ rels := by
  have hplain : smallProject.Plain := by
    simp [smallProject, Node.Plain, Node.PlainEntries, Node.ProperName, Path.Component.Proper]
  have hroot : smallDisk.node ⟨"/p"⟩ = .ok smallProject := rfl
  obtain ⟨files, rels, hfiles, hpaths, -, hincreasing, -, hmem, -⟩ :=
    collection_is_exact_and_ordered hroot hplain .typeScript Settings.default
  refine ⟨files, rels, hfiles, hpaths, hincreasing, ?_, ?_, ?_⟩
  · have hwanted : Wanted .typeScript Settings.default ⟨"/p/src/a.test.ts"⟩ :=
      ⟨⟨"ts", by decide, by decide⟩, by decide, List.forall_mem_nil _⟩
    exact (hmem _).mpr ⟨⟨[], rfl⟩, by decide, by decide, hwanted⟩
  · intro hdist
    exact (((hmem _).mp hdist).above "dist" (by decide)).1 (by decide)
  · intro hcache
    exact (((hmem _).mp hcache).above ".cache" (by decide)).2 (by decide)

end LintRelay.Collection
