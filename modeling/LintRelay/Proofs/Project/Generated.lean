import LintRelay.Project.Generated
import LintRelay.Proofs.Disk.Files
import LintRelay.Proofs.Json.Written
import LintRelay.Proofs.Project.Partition
import LintRelay.Proofs.Text.Utf8
set_option autoImplicit false

/-!
# Generated configurations

A generated configuration can be read from its path, its text decodes to what was written,
and when it is discarded, the disk is the same as before it was made.  A configuration that
lists the files which it is generated for claims all of them, in their order.
-/

namespace LintRelay.Generated

open Disk (Node Outgrows)
open Json (Value)

/-! ## The place of a generated configuration -/

/-- The path of a directory that could be made does not end with a slash. -/
theorem getLast?_of_missing {d : Disk} {p : Path} {m : Disk.Manner} {l : Disk.Location}
    (hl : d.locateWith m p = .ok l) (hmissing : d.tree.find? l = none) :
    p.text.toList.getLast? ≠ some '/' := by
  intro hslash
  obtain ⟨-, -, hleads⟩ := Disk.locateWith_eq_ok_iff.mp hl
  obtain ⟨es, hdir⟩ := hleads.dirAt_of_stay (Disk.stepsOf_getLast? hslash)
  rw [hmissing] at hdir
  cases hdir

theorem configPath_text {directory : Path} (hne : directory.text ≠ "")
    (hslash : directory.text.toList.getLast? ≠ some '/') :
    (configPath directory).text = directory.text ++ "/" ++ Path.defaultConfigName := by
  have hrelative : Path.isAbsolute ⟨Path.defaultConfigName⟩ = false := by decide
  simp [configPath, Path.join, hrelative, hne, hslash]

/-- The configuration stands in its directory. -/
theorem locate_configPath {d : Disk} {directory : Path} {l : Disk.Location}
    (hl : d.locateWith ⟨false, false⟩ directory = .ok l) (hdir : d.tree.DirAt l)
    (hslash : directory.text.toList.getLast? ≠ some '/')
    (hmissing : d.tree.find? (l ++ [Path.defaultConfigName]) = none) :
    d.locateTarget (configPath directory) = .ok (l ++ [Path.defaultConfigName]) := by
  obtain ⟨hnul, hne, hleads⟩ := Disk.locateWith_eq_ok_iff.mp hl
  have htext := configPath_text hne hslash
  have hstart : d.startOf (configPath directory) = d.startOf directory := by
    have hroot : Path.startsAtRoot (configPath directory).text.toList =
        Path.startsAtRoot directory.text.toList := by
      rw [htext]
      cases hcs : directory.text.toList with
      | nil => exact absurd (by simpa using hcs) hne
      | cons c cs => by_cases hc : c = '/' <;> simp [hcs, Path.startsAtRoot, hc]
    simp [Disk.startOf, hroot]
  refine Disk.locateWith_eq_ok_iff.mpr ⟨?_, by simp [htext], ?_⟩
  · have hname : Char.ofNat 0 ∉ Path.defaultConfigName.toList := by decide
    simp [htext, hnul, hname]
  · rw [hstart, htext, Disk.stepsOf_join hslash (by decide) (by decide) (by decide)]
    refine hleads.append hdir (by simp) fun links => ?_
    exact .missing rfl hdir (by decide) hmissing

/-! ## Making and discarding -/

/-- A configuration is generated in a new directory, which is put in a free place. -/
theorem create_place {d d' : Disk} {directory : Path} {language : Language}
    {files : List SourceFile} (h : create d directory language files = .ok d') :
    ∃ parent last entries, d.tree.DirAt parent ∧ d.tree.find? (parent ++ [last]) = none ∧
      d' = { d with tree := d.tree.put (.dir entries) (parent ++ [last]) } ∧
      d'.locateEntry directory = .ok (parent ++ [last]) ∧
      d'.locate (configPath directory) = .ok (parent ++ [last] ++ [Path.defaultConfigName]) ∧
      d'.read (configPath directory) = .ok (Text.utf8 (content language files)) := by
  unfold create at h
  cases hmake : d.makeDirectory directory with
  | error e => simp [hmake] at h
  | ok d₁ =>
    obtain ⟨parent, last, hl, hparent, hmissing, rfl⟩ := Disk.makeDirectory_eq_ok hmake
    simp only [hmake] at h
    split at h
    · cases h
    · rename_i d₂ hwrite
      obtain rfl := Except.ok.inj h
      have hslash := getLast?_of_missing hl hmissing
      -- The directory is found in its place, and it is empty.
      have hempty := Node.find?_put_self hparent Node.emptyDir last
      have hfree := Node.find?_put_below hparent Node.emptyDir last [Path.defaultConfigName]
      have hentry := (Disk.makeDirectory_outgrows hmake).locateWith hl hempty
        (by simp [Node.emptyDir]) false
      have htarget := locate_configPath hentry ⟨[], hempty⟩ hslash hfree
      obtain ⟨l, hl', hlocate, hread, hd₂⟩ := Disk.modifyFile_eq_ok hwrite
      obtain rfl := Except.ok.inj (htarget.symm.trans hl')
      -- Both changes together put one new directory in a free place.
      rw [Node.put_put_below hparent] at hd₂
      obtain ⟨entries, hentries⟩ : ∃ entries, Node.emptyDir.put
          (.file (Text.utf8 (content language files))) [Path.defaultConfigName] = .dir entries :=
        ⟨_, rfl⟩
      rw [hentries] at hd₂
      have hfound : d₂.tree.find? (parent ++ [last]) = some (.dir entries) := by
        rw [hd₂]
        exact Node.find?_put_self hparent _ last
      have hgrown : Outgrows d d₂ := by
        rw [hd₂]
        exact ⟨rfl, Node.grows_put hparent fun c hc => by simp [hmissing] at hc⟩
      exact ⟨parent, last, entries, hparent, hmissing, hd₂,
        hgrown.locateWith hl hfound (by simp) false, hlocate, hread⟩

/-- What it means that a configuration was generated: its text is in its place, and
discarding it gives the disk of before. -/
theorem create_eq_ok {d d' : Disk} {directory : Path} {language : Language}
    {files : List SourceFile} (h : create d directory language files = .ok d') :
    d'.read (configPath directory) = .ok (Text.utf8 (content language files)) ∧
      discard d' directory = d := by
  obtain ⟨parent, last, entries, hparent, hmissing, hd', hlocate, -, hread⟩ := create_place h
  refine ⟨hread, ?_⟩
  simp only [discard, hlocate]
  rw [hd', Node.remove_put hparent hmissing]

/-! ## What is written -/

/-- The options and the members of a generated configuration are written in order. -/
theorem sortMembers_pair {n m : String} (v w : Value) (hne : m ≠ n) (hge : ¬m < n) :
    Json.sortMembers [(n, v), (m, w)] = [(n, v), (m, w)] := by
  simp [Json.sortMembers, Json.insertMember, hne, hge]

theorem sortMembers_compilerOptions (language : Language) :
    Json.sortMembers (compilerOptions language) = compilerOptions language := by
  cases language with
  | javaScript => exact sortMembers_pair _ _ (by decide) (by decide)
  | typeScript => rfl

/-- What a generated configuration says: the compiler options of its language, and the path of
every file. -/
def document (language : Language) (files : List SourceFile) : Value :=
  .object
    [("compilerOptions", .object (compilerOptions language)),
     ("files", Json.strings (files.map fun f => f.path.text))]

theorem reads_compilerOptions (language : Language) :
    ∀ m ∈ compilerOptions language,
      Json.Reads (Json.value 125) (m.2.indentedChars 2) m.2 := by
  intro m hm
  have htrue : m.2 = .bool true := by
    cases language with
    | javaScript =>
      simp only [compilerOptions, List.mem_cons, List.not_mem_nil, or_false] at hm
      rcases hm with rfl | rfl <;> rfl
    | typeScript => cases hm
  rw [htrue]
  exact Json.reads_indented_true 2 125

theorem reads_strings (texts : List String) :
    ∀ v ∈ texts.map Value.string, Json.Reads (Json.value 125) (v.indentedChars 2) v := by
  intro v hv
  obtain ⟨text, -, rfl⟩ := List.mem_map.mp hv
  exact Json.reads_indented_string 2 125 text

/-- The text of a generated configuration decodes to what it says. -/
theorem decode_content (language : Language) (files : List SourceFile) :
    Json.decode Json.value (content language files) = .ok (document language files) := by
  have hreads : Json.Reads (Json.value 127) ((document language files).indentedChars 0)
      (document language files) := by
    refine Json.reads_indented_object ?_ (sortMembers_pair _ _ (by decide) (by decide))
    intro m hm
    simp only [List.mem_cons, List.not_mem_nil, or_false] at hm
    rcases hm with rfl | rfl
    · exact Json.reads_indented_object (reads_compilerOptions language)
        (sortMembers_compilerOptions language)
    · exact Json.reads_indented_array (reads_strings _)
  have hcontent : (content language files).toList =
      (document language files).indentedChars 0 := by
    simp [content, document, Value.indented]
  rw [Json.decode, hcontent]
  exact hreads.decodeChars

/-- The text that was written can be read. -/
theorem readText_of_create {d d' : Disk} {directory : Path} {language : Language}
    {files : List SourceFile} (h : create d directory language files = .ok d') :
    d'.readText (configPath directory) = .ok (content language files) := by
  simp [Disk.readText, (create_eq_ok h).1, Text.decodeStrict?_utf8]

end LintRelay.Generated

namespace LintRelay

/-! ## Configurations that list their files -/

/-- A configuration lists files and says nothing else about what it claims. -/
structure ConfigFile.Lists (c : ConfigFile) (files : List SourceFile) : Prop where
  files : c.files = files.map SourceFile.path
  includes : c.includes.getD [] = []
  excludes : c.excludes = []
  references : c.references = []

instance (c : ConfigFile) (files : List SourceFile) : Decidable (c.Lists files) :=
  decidable_of_iff (c.files = files.map SourceFile.path ∧ c.includes.getD [] = [] ∧
      c.excludes = [] ∧ c.references = [])
    ⟨fun ⟨hfiles, hincludes, hexcludes, hreferences⟩ =>
        ⟨hfiles, hincludes, hexcludes, hreferences⟩,
      fun ⟨hfiles, hincludes, hexcludes, hreferences⟩ =>
        ⟨hfiles, hincludes, hexcludes, hreferences⟩⟩

/-- Only a configuration without files falls back on a pattern. -/
theorem ConfigFile.Lists.compiles {c : ConfigFile} {files : List SourceFile}
    (h : c.Lists files) : c.Compiles := by
  have hdefault : ∀ g ∈ Pattern.expand "**/*", (Glob.parse g).isOk = true := by decide +kernel
  have hpatterns : ∀ p ∈ c.effectiveIncludes, p = "**/*" := by
    have hincludes := h.includes
    unfold ConfigFile.effectiveIncludes
    cases hc : c.includes with
    | some patterns =>
      obtain rfl : patterns = [] := by simpa [hc] using hincludes
      simp
    | none => by_cases hfiles : c.files.isEmpty = true <;> simp [hfiles]
  intro p hp g hg
  rw [h.excludes, List.append_nil] at hp
  rw [hpatterns p hp] at hg
  exact hdefault g hg

theorem ConfigFile.Lists.matchesPath {c : ConfigFile} {files : List SourceFile}
    (h : c.Lists files) {f : SourceFile} (hf : f ∈ files) (habsolute : f.path.isAbsolute = true) :
    c.matchesPath f.path = true := by
  have hjoin : c.dir.join f.path = f.path := by simp [Path.join, habsolute]
  have hlisted : (c.files.any fun p => (c.dir.join p).normalize = f.path.normalize) = true := by
    rw [h.files]
    simp only [List.any_map, List.any_eq_true]
    exact ⟨f, hf, by simp [hjoin]⟩
  rw [ConfigFile.matchesPath, hlisted, Bool.true_or]

/-- A configuration that lists the files claims them all: they are one group, and no file is
left over. -/
theorem ConfigFile.Lists.partition {c : ConfigFile} {files : List SourceFile}
    (h : c.Lists files) (habsolute : ∀ f ∈ files, f.path.isAbsolute = true) :
    partition [c] files = .ok (if files = [] then [] else [⟨some c, files⟩]) := by
  obtain ⟨m, hm, hmatch⟩ := ConfigMatcher.ofConfig_ok h.compiles
  have hall : ∀ f ∈ files, m.isMatch f.path = true := fun f hf =>
    (hmatch f.path).trans (h.matchesPath hf (habsolute f hf))
  have hown : files.filter (fun f => m.isMatch f.path) = files := List.filter_eq_self.mpr hall
  have hleft : files.filter (fun f => !m.isMatch f.path) = [] := by
    refine List.filter_eq_nil_iff.mpr fun f hf => ?_
    simp [hall f hf]
  simp [LintRelay.partition, ConfigMatcher.ofConfigs, hm, dealOut, hown, hleft]

end LintRelay
