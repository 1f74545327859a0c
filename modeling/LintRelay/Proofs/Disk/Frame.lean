import LintRelay.Proofs.Disk.Files
set_option autoImplicit false

/-!
# Disk: what is left alone

A file is written in two steps: its directory is made as far as it is missing, and bytes are
added at its end.  `Kept` says what the two steps do to every other location.  Nothing is lost
there and no file is changed; what is new is a directory on the way to the file.
-/

namespace LintRelay.Disk

open LintRelay.Text (Bytes)
open Node (Alike)

/-! ## Making directories -/

/-- What has become of a location: it is as before, or it is a directory still, or it is one of
the directories on a way, and was free. -/
inductive Kept (way : List Path.Component) (d d' : Disk) (l : Location) : Prop
  | same (h : d'.tree.find? l = d.tree.find? l)
  | directory (hbefore : d.tree.DirAt l) (hafter : d'.tree.DirAt l)
  | made (hfree : d.tree.find? l = none) (hafter : d'.tree.DirAt l) (first : List Path.Component)
      (hfirst : first <+: way) (hplace : d'.locateEntry (.ofComponents first) = .ok l)

/-- No location has changed but for directories on a way that were made. -/
structure Preserved (way : List Path.Component) (d d' : Disk) : Prop where
  working : d'.working = d.working
  kept : ∀ l, Kept way d d' l

variable {way : List Path.Component} {d d₁ d' : Disk} {l : Location}

theorem Kept.bytesAt (h : Kept way d d' l) : d'.tree.bytesAt l = d.tree.bytesAt l := by
  unfold Node.bytesAt
  cases h with
  | same h => rw [h]
  | directory hbefore hafter =>
    obtain ⟨⟨es, hes⟩, ⟨es', hes'⟩⟩ := And.intro hbefore hafter
    rw [hes, hes']
  | made hfree hafter =>
    obtain ⟨es, hes⟩ := hafter
    rw [hfree, hes]

/-- What was there is there still. -/
theorem Kept.alike (h : Kept way d d' l) {c : Node} (hc : d.tree.find? l = some c) :
    ∃ c', d'.tree.find? l = some c' ∧ Alike c c' := by
  cases h with
  | same h => exact ⟨c, h.trans hc, .refl c⟩
  | directory hbefore hafter =>
    obtain ⟨es, hes⟩ := hbefore
    obtain ⟨es', hes'⟩ := hafter
    obtain rfl := Option.some.inj (hes.symm.trans hc)
    exact ⟨_, hes', .dir es es'⟩
  | made hfree =>
    rw [hfree] at hc
    cases hc

theorem Kept.dirAt (h : Kept way d d' l) (hdir : d.tree.DirAt l) : d'.tree.DirAt l := by
  obtain ⟨es, hes⟩ := hdir
  obtain ⟨c', hc', halike⟩ := h.alike hes
  cases halike
  exact ⟨_, hc'⟩

/-- A free location stays free, unless a directory on the way was made there. -/
theorem Kept.free (h : Kept way d d' l) (hfree : d.tree.find? l = none) :
    d'.tree.find? l = none ∨
      ∃ first, first <+: way ∧ d'.locateEntry (.ofComponents first) = .ok l := by
  cases h with
  | same h => exact .inl (h.trans hfree)
  | directory hbefore =>
    obtain ⟨es, hes⟩ := hbefore
    rw [hfree] at hes
    cases hes
  | made _ _ first hfirst hplace => exact .inr ⟨first, hfirst, hplace⟩

/-- A disk on which a path leads to a directory leads it there after it has grown. -/
theorem Outgrows.locateEntry_dir (h : Outgrows d d') {p : Path} (hdir : d'.tree.DirAt l)
    {missing : Bool} (hp : d.locateWith ⟨false, missing⟩ p = .ok l) :
    d'.locateEntry p = .ok l := by
  obtain ⟨es, hes⟩ := hdir
  exact h.locateWith hp hes (by simp) false

theorem Kept.trans (h : Kept way d d₁ l) (h' : Kept way d₁ d' l) (hgrown : Outgrows d₁ d') :
    Kept way d d' l := by
  cases h with
  | same h =>
    cases h' with
    | same h' => exact .same (h'.trans h)
    | directory hbefore hafter =>
      obtain ⟨es, hes⟩ := hbefore
      exact .directory ⟨es, h ▸ hes⟩ hafter
    | made hfree hafter first hfirst hplace =>
      exact .made (h ▸ hfree) hafter first hfirst hplace
  | directory hbefore hafter => exact .directory hbefore (h'.dirAt hafter)
  | made hfree hafter first hfirst hplace =>
    have hdir := h'.dirAt hafter
    exact .made hfree hdir first hfirst (hgrown.locateEntry_dir hdir hplace)

namespace Preserved

theorem refl (d : Disk) : Preserved way d d := ⟨rfl, fun _ => .same rfl⟩

theorem outgrows (h : Preserved way d d') : Outgrows d d' :=
  ⟨h.working, fun l _ hc => (h.kept l).alike hc⟩

theorem trans (h : Preserved way d d₁) (h' : Preserved way d₁ d') : Preserved way d d' :=
  ⟨h'.working.trans h.working, fun l => (h.kept l).trans (h'.kept l) h'.outgrows⟩

end Preserved

theorem makeDirectory_preserved {first : List Path.Component} (hfirst : first <+: way)
    (h : d.makeDirectory (.ofComponents first) = .ok d') : Preserved way d d' := by
  obtain ⟨parent, last, hl, hparent, hmissing, hd'⟩ := makeDirectory_eq_ok h
  refine ⟨by rw [hd'], fun l => ?_⟩
  by_cases hbelow : parent ++ [last] <+: l
  · obtain ⟨rest, rfl⟩ := hbelow
    have hfind := Node.find?_put_below hparent Node.emptyDir last rest
    have hfree : d.tree.find? (parent ++ [last] ++ rest) = none := by
      rw [Node.find?_append, hmissing]
      rfl
    cases rest with
    | nil =>
      simp only [List.append_nil] at hfree hfind ⊢
      have hdir : d'.tree.DirAt (parent ++ [last]) := ⟨[], by rw [hd']; exact hfind⟩
      exact .made hfree hdir first hfirst
        ((makeDirectory_outgrows h).locateEntry_dir hdir hl)
    | cons name rest =>
      refine .same ?_
      rw [hd', hfree]
      exact hfind
  · rcases Node.find?_put_other hparent Node.emptyDir last hbelow with hsame | ⟨hbefore, hafter⟩
    · exact .same (by rw [hd']; exact hsame)
    · exact .directory hbefore (by rw [hd']; exact hafter)

theorem MakesWay.preserved (h : MakesWay way d d') : Preserved way d d' := by
  induction h with
  | nothing => exact .refl d
  | directory _ first hfirst hmake ih => exact ih.trans (makeDirectory_preserved hfirst hmake)

/-! ## Adding to a file -/

/-- Bytes were added at the end of a file, which was made if it was missing, and no other
location has changed but for directories on a way that were made. -/
structure Appended (way : List Path.Component) (file : Path) (bytes : Bytes) (place : Location)
    (d d' : Disk) : Prop where
  working : d'.working = d.working
  located : d'.locate file = .ok place
  before : d.tree.find? place = none ∨ d.tree.find? place = some (.file (d.tree.bytesAt place))
  after : d'.tree.find? place = some (.file (d.tree.bytesAt place ++ bytes))
  kept : ∀ l, l ≠ place → Kept way d d' l

namespace Appended

variable {file : Path} {bytes : Bytes} {place : Location}

theorem read (h : Appended way file bytes place d d') :
    d'.read file = .ok (d.tree.bytesAt place ++ bytes) :=
  read_of_locate h.located h.after

theorem bytesAt (h : Appended way file bytes place d d') :
    d'.tree.bytesAt place = d.tree.bytesAt place ++ bytes := by
  conv_lhs => rw [Node.bytesAt, h.after]

theorem outgrows (h : Appended way file bytes place d d') : Outgrows d d' := by
  refine ⟨h.working, fun l c hc => ?_⟩
  by_cases hl : l = place
  · subst hl
    rcases h.before with hnone | hfile
    · rw [hnone] at hc
      cases hc
    · obtain rfl := Option.some.inj (hfile.symm.trans hc)
      exact ⟨_, h.after, .file _ _⟩
  · exact (h.kept l hl).alike hc

/-- What could be read before is still there, and the new bytes come behind it. -/
theorem bytesAt_of_read (h : Appended way file bytes place d d') {old : Bytes}
    (hold : d.read file = .ok old) : d.tree.bytesAt place = old := by
  obtain ⟨l, hl, hfind⟩ := locate_of_read hold
  obtain ⟨c, hfind', halike⟩ := h.outgrows.tree l _ hfind
  have hlocate := h.outgrows.locateWith hl hfind' (by simp [hfind]) false
  obtain rfl := Except.ok.inj (hlocate.symm.trans h.located)
  simp [Node.bytesAt, hfind]

end Appended

theorem append_appended {file : Path} {bytes : Bytes} (h : d.append file bytes = .ok d') :
    ∃ place, Appended way file bytes place d d' := by
  obtain ⟨parent, last, hl, hparent, hfile, hd'⟩ := place_of_modifyFile h
  obtain ⟨place, hl', hlocate, -, -⟩ := modifyFile_eq_ok h
  obtain rfl := Except.ok.inj (hl'.symm.trans hl)
  have hbelow := Node.find?_put_below hparent
    (.file (d.tree.bytesAt (parent ++ [last]) ++ bytes)) last
  refine ⟨parent ++ [last], by rw [hd'], hlocate, hfile, ?_, fun l hne => ?_⟩
  · rw [hd']
    exact Node.find?_put_self hparent _ last
  · by_cases hprefix : parent ++ [last] <+: l
    · -- There is nothing below a file, and nothing below a free place.
      obtain ⟨rest, rfl⟩ := hprefix
      cases rest with
      | nil => exact absurd (List.append_nil _) hne
      | cons name rest =>
        refine .same ?_
        rw [hd', hbelow, Node.find?_append]
        rcases hfile with hnone | hsome
        · rw [hnone]
          rfl
        · rw [hsome]
          rfl
    · rcases Node.find?_put_other hparent _ last hprefix with hsame | ⟨hbefore, hafter⟩
      · exact .same (by rw [hd']; exact hsame)
      · exact .directory hbefore (by rw [hd']; exact hafter)

/-- Directories on the way were made first. -/
theorem Preserved.appended {file : Path} {bytes : Bytes} {place : Location}
    (h : Preserved way d d₁) (h' : Appended way file bytes place d₁ d') :
    Appended way file bytes place d d' where
  working := h'.working.trans h.working
  located := h'.located
  before := by
    have hbytes := (h.kept place).bytesAt
    have hnodir : ¬ d₁.tree.DirAt place := by
      rintro ⟨es, hes⟩
      rcases h'.before with hnone | hsome <;> simp_all
    cases h.kept place with
    | same hsame => rw [← hsame, ← hbytes]; exact h'.before
    | directory _ hafter => exact absurd hafter hnodir
    | made _ hafter => exact absurd hafter hnodir
  after := by rw [h'.after, (h.kept place).bytesAt]
  kept l hne := (h.kept l).trans (h'.kept l hne) h'.outgrows

end LintRelay.Disk
