import LintRelay.Disk.Resolve
import LintRelay.Proofs.Disk.Tree
import LintRelay.Proofs.Path
import Mathlib.Tactic.ByContra
import Mathlib.Tactic.SplitIfs
set_option autoImplicit false

/-!
# Disk: files and directories that were made

`Leads` says where the steps of a path lead, one rule for each thing that can happen on the
way.  A tree that has grown leads every path to the place where it led before
(`Leads.grow`), also when this place was missing and has been filled since.  From this
follows what can be read after a file was written, and that a directory can be made and
discarded without a trace.
-/

namespace LintRelay.Disk

open LintRelay.Text (Bytes)
open Node (Alike Grows DirAt)

/-! ## Where steps lead -/

/-- The name is not too long for a directory. -/
def ShortName (name : String) : Prop := (Text.utf8 name).length ≤ 255

instance (name : String) : Decidable (ShortName name) :=
  inferInstanceAs (Decidable ((Text.utf8 name).length ≤ 255))

/-- Steps lead from a location to another one over at most so many links. -/
inductive Leads (t : Node) (m : Manner) : Nat → Location → List Step → Location → Prop
  | done (links : Nat) (here : Location) : Leads t m links here [] here
  | stay {links : Nat} {here l : Location} {rest : List Step} (hdir : t.DirAt here)
      (hrest : Leads t m links here rest l) : Leads t m links here (.stay :: rest) l
  | up {links : Nat} {here l : Location} {rest : List Step} (hdir : t.DirAt here)
      (hrest : Leads t m links here.dropLast rest l) : Leads t m links here (.up :: rest) l
  /-- The name stands for a file or a directory. -/
  | down {links : Nat} {here l : Location} {name : String} {rest : List Step} {n : Node}
      (hdir : t.DirAt here) (hshort : ShortName name) (hchild : t.find? (here ++ [name]) = some n)
      (hplain : ∀ target, n ≠ .link target) (hrest : Leads t m links (here ++ [name]) rest l) :
      Leads t m links here (.down name :: rest) l
  /-- The last name is missing and may be. -/
  | missing {links : Nat} {here : Location} {name : String} (hmanner : m.mayBeMissing = true)
      (hdir : t.DirAt here) (hshort : ShortName name) (hchild : t.find? (here ++ [name]) = none) :
      Leads t m links here [.down name] (here ++ [name])
  /-- The last name stands for a link that is not followed. -/
  | entry {links : Nat} {here : Location} {name target : String} (hmanner : m.followLast = false)
      (hdir : t.DirAt here) (hshort : ShortName name)
      (hchild : t.find? (here ++ [name]) = some (.link target)) :
      Leads t m links here [.down name] (here ++ [name])
  | follow {links : Nat} {here l : Location} {name target : String} {rest : List Step}
      (hmanner : rest ≠ [] ∨ m.followLast = true) (hdir : t.DirAt here) (hshort : ShortName name)
      (hchild : t.find? (here ++ [name]) = some (.link target)) (htarget : target ≠ "")
      (hrest : Leads t m links (if Path.startsAtRoot target.toList then [] else here)
        (stepsOf target ++ rest) l) :
      Leads t m (links + 1) here (.down name :: rest) l

theorem takeSteps_dir {t : Node} {here : Location} (hdir : t.DirAt here) (m : Manner)
    (retry : Location → List Step → Except OsError Location) (rest : List Step) :
    (takeSteps t m retry here (.stay :: rest) = takeSteps t m retry here rest) ∧
    takeSteps t m retry here (.up :: rest) = takeSteps t m retry here.dropLast rest := by
  obtain ⟨es, hfind⟩ := hdir
  simp [takeSteps, hfind, Node.isDir]

section Down

variable {t : Node} {here : Location} {name : String} (hdir : t.DirAt here)
  (hshort : ShortName name) (m : Manner)
  (retry : Location → List Step → Except OsError Location) (rest : List Step)

include hdir hshort

/-- One step down from a directory depends on what the name stands for. -/
theorem takeSteps_missing (hchild : t.find? (here ++ [name]) = none) :
    takeSteps t m retry here (.down name :: rest) =
      if m.mayBeMissing && rest.isEmpty then .ok (here ++ [name])
      else if m.mayBeMissing && onlyStays rest then .error .isDirectory
      else .error .notFound := by
  obtain ⟨es, hfind⟩ := hdir
  have hlong : ¬ 255 < (Text.utf8 name).length := Nat.not_lt.mpr hshort
  rw [Node.find?_concat, hfind, Option.bind_some] at hchild
  simp [takeSteps, hfind, Node.isDir, hlong, hchild]

theorem takeSteps_plain {n : Node} (hchild : t.find? (here ++ [name]) = some n)
    (hplain : ∀ target, n ≠ .link target) :
    takeSteps t m retry here (.down name :: rest) =
      takeSteps t m retry (here ++ [name]) rest := by
  obtain ⟨es, hfind⟩ := hdir
  have hlong : ¬ 255 < (Text.utf8 name).length := Nat.not_lt.mpr hshort
  rw [Node.find?_concat, hfind, Option.bind_some] at hchild
  cases n with
  | link target => exact absurd rfl (hplain target)
  | file bytes => simp [takeSteps, hfind, Node.isDir, hlong, hchild]
  | dir entries => simp [takeSteps, hfind, Node.isDir, hlong, hchild]

theorem takeSteps_link {target : String}
    (hchild : t.find? (here ++ [name]) = some (.link target)) :
    takeSteps t m retry here (.down name :: rest) =
      if rest.isEmpty && !m.followLast then .ok (here ++ [name])
      else if target.isEmpty then .error .notFound
      else
        retry (if Path.startsAtRoot target.toList then [] else here) (stepsOf target ++ rest) := by
  obtain ⟨es, hfind⟩ := hdir
  have hlong : ¬ 255 < (Text.utf8 name).length := Nat.not_lt.mpr hshort
  rw [Node.find?_concat, hfind, Option.bind_some] at hchild
  simp [takeSteps, hfind, Node.isDir, hlong, hchild]

end Down

theorem Leads.walkSteps_eq {t : Node} {m : Manner} {links : Nat} {here l : Location}
    {steps : List Step} (h : Leads t m links here steps l) :
    walkSteps t m (links + 1) here steps = .ok l := by
  induction h with
  | done links here => rfl
  | stay hdir _ ih =>
    rw [walkSteps, (takeSteps_dir hdir m _ _).1]
    exact ih
  | up hdir _ ih =>
    rw [walkSteps, (takeSteps_dir hdir m _ _).2]
    exact ih
  | @down links here l name rest n hdir hshort hchild hplain _ ih =>
    rw [walkSteps, takeSteps_plain hdir hshort m _ _ hchild hplain]
    exact ih
  | missing hmanner hdir hshort hchild =>
    rw [walkSteps, takeSteps_missing hdir hshort m _ _ hchild]
    simp [hmanner]
  | entry hmanner hdir hshort hchild =>
    rw [walkSteps, takeSteps_link hdir hshort m _ _ hchild]
    simp [hmanner]
  | @follow links here l name target rest hmanner hdir hshort hchild htarget _ ih =>
    rw [walkSteps, takeSteps_link hdir hshort m _ _ hchild]
    have hfollowed : (rest.isEmpty && !m.followLast) = false := by
      rcases hmanner with hrest | hlast
      · simp [hrest]
      · simp [hlast]
    simpa [hfollowed, htarget] using ih

theorem leads_of_takeSteps {t : Node} {m : Manner} {links : Nat}
    {retry : Location → List Step → Except OsError Location}
    (hretry : ∀ here steps l, retry here steps = .ok l →
      ∃ fewer, links = fewer + 1 ∧ Leads t m fewer here steps l)
    {here l : Location} {steps : List Step} (h : takeSteps t m retry here steps = .ok l) :
    Leads t m links here steps l := by
  induction steps generalizing here with
  | nil =>
    obtain rfl := Except.ok.inj h
    exact .done links here
  | cons s rest ih =>
    -- A step is only taken from a directory.
    have hdir : t.DirAt here := by
      rw [takeSteps] at h
      cases hfind : t.find? here with
      | none => simp [hfind] at h
      | some n =>
        cases n with
        | dir es => exact ⟨es, hfind⟩
        | file bytes => simp [hfind, Node.isDir] at h
        | link target => simp [hfind, Node.isDir] at h
    cases s with
    | stay =>
      rw [(takeSteps_dir hdir m retry rest).1] at h
      exact .stay hdir (ih h)
    | up =>
      rw [(takeSteps_dir hdir m retry rest).2] at h
      exact .up hdir (ih h)
    | down name =>
      have hshort : ShortName name := by
        by_contra hlong
        obtain ⟨es, hfind⟩ := hdir
        have hlength : 255 < (Text.utf8 name).length := Nat.not_le.mp hlong
        simp [takeSteps, hfind, Node.isDir, hlength] at h
      cases hchild : t.find? (here ++ [name]) with
      | none =>
        rw [takeSteps_missing hdir hshort m retry rest hchild] at h
        split_ifs at h with hlast
        obtain ⟨hmanner, hempty⟩ := Bool.and_eq_true_iff.mp hlast
        obtain rfl : rest = [] := List.isEmpty_iff.mp hempty
        obtain rfl := Except.ok.inj h
        exact .missing hmanner hdir hshort hchild
      | some n =>
        by_cases hlink : ∃ target, n = .link target
        · obtain ⟨target, rfl⟩ := hlink
          rw [takeSteps_link hdir hshort m retry rest hchild] at h
          by_cases hlast : (rest.isEmpty && !m.followLast) = true
          · obtain ⟨hempty, hmanner⟩ := Bool.and_eq_true_iff.mp hlast
            obtain rfl : rest = [] := List.isEmpty_iff.mp hempty
            rw [if_pos hlast] at h
            obtain rfl := Except.ok.inj h
            exact .entry (by simpa using hmanner) hdir hshort hchild
          · rw [if_neg hlast] at h
            by_cases htarget : target.isEmpty = true
            · simp [htarget] at h
            · rw [if_neg htarget] at h
              obtain ⟨fewer, rfl, hleads⟩ := hretry _ _ _ h
              refine .follow ?_ hdir hshort hchild (by simpa using htarget) hleads
              by_cases hrest : rest = []
              · exact .inr (by simpa [hrest] using hlast)
              · exact .inl hrest
        · have hplain : ∀ target, n ≠ .link target := fun target heq => hlink ⟨target, heq⟩
          rw [takeSteps_plain hdir hshort m retry rest hchild hplain] at h
          exact .down hdir hshort hchild hplain (ih h)

theorem walkSteps_eq_ok_iff {t : Node} {m : Manner} {links : Nat} {here l : Location}
    {steps : List Step} :
    walkSteps t m (links + 1) here steps = .ok l ↔ Leads t m links here steps l := by
  refine ⟨fun h => ?_, Leads.walkSteps_eq⟩
  induction links generalizing here steps l with
  | zero =>
    refine leads_of_takeSteps (fun here steps l hretry => ?_) h
    cases hretry
  | succ links ih => exact leads_of_takeSteps (fun _ _ _ hretry => ⟨links, rfl, ih hretry⟩) h

/-! ## What is at the place reached -/

/-- Steps are taken from a directory. -/
theorem Leads.dirAt_start {t : Node} {m : Manner} {links : Nat} {here l : Location}
    {steps : List Step} (h : Leads t m links here steps l) (hsteps : steps ≠ []) :
    t.DirAt here := by
  cases h with
  | done => exact absurd rfl hsteps
  | stay hdir _ => exact hdir
  | up hdir _ => exact hdir
  | down hdir _ _ _ _ => exact hdir
  | missing _ hdir _ _ => exact hdir
  | entry _ hdir _ _ => exact hdir
  | follow _ hdir _ _ _ _ => exact hdir

/-- There is something at the place reached, or it is missing from its directory and may be. -/
theorem Leads.place {t : Node} {m : Manner} {links : Nat} {here l : Location}
    {steps : List Step} (h : Leads t m links here steps l) (hhere : t.find? here ≠ none) :
    t.find? l ≠ none ∨
      m.mayBeMissing = true ∧ ∃ parent last, l = parent ++ [last] ∧ t.DirAt parent := by
  induction h with
  | done links here => exact .inl hhere
  | stay _ _ ih => exact ih hhere
  | @up _ here _ _ _ _ ih =>
    refine ih fun hnone => hhere ?_
    by_cases hnil : here = []
    · rwa [hnil] at hnone ⊢
    · have hfind := t.find?_concat here.dropLast (here.getLast hnil)
      rw [List.dropLast_concat_getLast, hnone] at hfind
      exact hfind
  | down _ _ hchild _ _ ih => exact ih (by simp [hchild])
  | missing hmanner hdir _ _ => exact .inr ⟨hmanner, _, _, rfl, hdir⟩
  | entry _ _ _ hchild => exact .inl (by simp [hchild])
  | follow _ _ _ _ _ _ ih =>
    refine ih ?_
    split
    · simp [Node.find?]
    · exact hhere

/-- A request for a directory is only met by one. -/
theorem Leads.dirAt_of_stay {t : Node} {m : Manner} {links : Nat} {here l : Location}
    {steps : List Step} (h : Leads t m links here steps l)
    (hstay : steps.getLast? = some .stay) : t.DirAt l := by
  have hlast : ∀ {s : Step} {rest : List Step}, (s :: rest).getLast? = some .stay →
      rest = [] ∧ s = .stay ∨ rest.getLast? = some .stay := by
    intro s rest hs
    cases rest with
    | nil => exact .inl ⟨rfl, by simpa using hs⟩
    | cons s' rest => exact .inr (by simpa using hs)
  induction h with
  | done => cases hstay
  | stay hdir hrest ih =>
    rcases hlast hstay with ⟨rfl, -⟩ | hrest'
    · cases hrest
      exact hdir
    · exact ih hrest'
  | up hdir hrest ih =>
    rcases hlast hstay with ⟨-, hs⟩ | hrest'
    · cases hs
    · exact ih hrest'
  | down _ _ _ _ _ ih =>
    rcases hlast hstay with ⟨-, hs⟩ | hrest'
    · cases hs
    · exact ih hrest'
  | missing => simp at hstay
  | entry => simp at hstay
  | follow _ _ _ _ _ _ ih =>
    rcases hlast hstay with ⟨-, hs⟩ | hrest'
    · cases hs
    · exact ih (by simp [hrest'])

/-! ## Walks in a tree that has grown -/

theorem DirAt.grow {t t' : Node} (hgrows : Grows t t') {l : Location} (h : t.DirAt l) :
    t'.DirAt l := by
  obtain ⟨es, hfind⟩ := h
  obtain ⟨c, hfind', halike⟩ := hgrows l _ hfind
  cases halike with
  | dir _ es' => exact ⟨es', hfind'⟩

/-- When a tree has grown, steps lead to where they led before, if there is something now. -/
theorem Leads.grow {t t' : Node} {followLast missing : Bool} {links : Nat} {here l : Location}
    {steps : List Step} (h : Leads t ⟨followLast, missing⟩ links here steps l)
    (hgrows : Grows t t') {c : Node} (hfound : t'.find? l = some c)
    (hplain : t.find? l = none → ∀ target, c ≠ .link target) (missing' : Bool) :
    Leads t' ⟨followLast, missing'⟩ links here steps l := by
  induction h with
  | done links here => exact .done links here
  | stay hdir _ ih => exact .stay (DirAt.grow hgrows hdir) (ih hfound hplain)
  | up hdir _ ih => exact .up (DirAt.grow hgrows hdir) (ih hfound hplain)
  | down hdir hshort hchild hnode _ ih =>
    obtain ⟨n', hchild', halike⟩ := hgrows _ _ hchild
    refine .down (DirAt.grow hgrows hdir) hshort hchild' ?_ (ih hfound hplain)
    rintro target rfl
    cases halike
    exact hnode target rfl
  | missing _ hdir hshort hchild =>
    exact .down (DirAt.grow hgrows hdir) hshort hfound (hplain hchild) (.done _ _)
  | entry hmanner hdir hshort hchild =>
    obtain ⟨n', hchild', halike⟩ := hgrows _ _ hchild
    cases halike
    exact .entry hmanner (DirAt.grow hgrows hdir) hshort hchild'
  | follow hmanner hdir hshort hchild htarget _ ih =>
    obtain ⟨n', hchild', halike⟩ := hgrows _ _ hchild
    cases halike
    exact .follow hmanner (DirAt.grow hgrows hdir) hshort hchild' htarget (ih hfound hplain)

/-- From a directory that steps lead to, one can go on. -/
theorem Leads.append {t : Node} {followLast : Bool} {m : Manner} {links : Nat}
    {here l l' : Location} {steps more : List Step}
    (h : Leads t ⟨followLast, false⟩ links here steps l) (hdir : t.DirAt l) (hmore : more ≠ [])
    (hnext : ∀ links, Leads t m links l more l') :
    Leads t m links here (steps ++ more) l' := by
  induction h with
  | done links here => exact hnext links
  | stay hhere _ ih => exact .stay hhere (ih hdir hnext)
  | up hhere _ ih => exact .up hhere (ih hdir hnext)
  | down hhere hshort hchild hnode _ ih =>
    exact .down hhere hshort hchild hnode (ih hdir hnext)
  | missing hmanner => cases hmanner
  | entry _ _ _ hchild =>
    -- A link is no directory.
    obtain ⟨es, hfind⟩ := hdir
    rw [hchild] at hfind
    cases hfind
  | follow _ hhere hshort hchild htarget _ ih =>
    rw [List.cons_append]
    refine .follow (.inl (by simp [hmore])) hhere hshort hchild htarget ?_
    rw [← List.append_assoc]
    exact ih hdir hnext

/-! ## Steps of a path -/

theorem stepsOf_ne_nil {text : String} (h : text ≠ "") : stepsOf text ≠ [] := by
  have hcs : text.toList ≠ [] := by simpa using h
  unfold stepsOf
  simp only
  split
  · simp
  · rename_i hlast
    -- The last segment has a character, as the text does not end with a slash.
    obtain ⟨s, hs, hne⟩ := Path.exists_segment_of_getLast? hcs hlast
    have hmem : s ∈ (Path.segments text.toList).filter (· ≠ []) :=
      List.mem_filter.mpr ⟨hs, by simpa using hne⟩
    intro hnil
    rw [List.map_eq_nil_iff.mp hnil] at hmem
    cases hmem

theorem stepsOf_getLast? {text : String} (h : text.toList.getLast? = some '/') :
    (stepsOf text).getLast? = some .stay := by
  simp [stepsOf, h]

/-- A name below a path is one more step. -/
theorem stepsOf_join {text name : String} (htext : text.toList.getLast? ≠ some '/')
    (hslash : '/' ∉ name.toList) (hname : Step.ofSegment name.toList = .down name) (hne : name ≠ "") :
    stepsOf (text ++ "/" ++ name) = stepsOf text ++ [.down name] := by
  have hchars : (text ++ "/" ++ name).toList = text.toList ++ '/' :: name.toList := by simp
  have hcs : name.toList ≠ [] := by simpa using hne
  have hlast : (text.toList ++ '/' :: name.toList).getLast? ≠ some '/' := by
    intro h
    rw [List.getLast?_append, List.getLast?_cons, List.getLast?_eq_some_getLast hcs] at h
    simp only [Option.getD_some, Option.some_or, Option.some.injEq] at h
    exact hslash (h ▸ List.getLast_mem hcs)
  unfold stepsOf
  simp only [hchars, if_neg hlast, if_neg htext]
  rw [Path.segments_append, Path.segments_of_slash_notMem hslash]
  simp [hcs, hname]

/-! ## Where paths lead -/

/-- Where the steps of a path start. -/
def startOf (d : Disk) (p : Path) : Location :=
  if Path.startsAtRoot p.text.toList then [] else d.working

/-- A path leads to a location when its steps do. -/
theorem locateWith_eq_ok_iff {d : Disk} {m : Manner} {p : Path} {l : Location} :
    d.locateWith m p = .ok l ↔
      Char.ofNat 0 ∉ p.text.toList ∧ p.text ≠ "" ∧
        Leads d.tree m maxLinks (d.startOf p) (stepsOf p.text) l := by
  unfold locateWith
  by_cases hnul : Char.ofNat 0 ∈ p.text.toList
  · simp [hnul]
  · by_cases hempty : p.text = ""
    · simp [hempty]
    · rw [← walkSteps_eq_ok_iff]
      simp [hnul, hempty, startOf]

/-- A path leads from a directory to something, or to a place that is missing and may be. -/
theorem exists_of_locateWith {d : Disk} {m : Manner} {p : Path} {l : Location}
    (h : d.locateWith m p = .ok l) :
    d.tree.DirAt (d.startOf p) ∧
      ((∃ c, d.tree.find? l = some c) ∨
        m.mayBeMissing = true ∧ ∃ parent last, l = parent ++ [last] ∧ d.tree.DirAt parent) := by
  obtain ⟨-, hempty, hleads⟩ := locateWith_eq_ok_iff.mp h
  have hstart := hleads.dirAt_start (stepsOf_ne_nil hempty)
  have hhere : d.tree.find? (d.startOf p) ≠ none := by
    obtain ⟨es, hfind⟩ := hstart
    simp [hfind]
  exact ⟨hstart, (hleads.place hhere).imp_left Option.ne_none_iff_exists'.mp⟩

/-- A path leads to a directory, or to a place in one. -/
theorem place_of_locateWith {d : Disk} {m : Manner} {p : Path} {l : Location}
    (h : d.locateWith m p = .ok l) :
    d.tree.DirAt l ∨ ∃ parent last, l = parent ++ [last] ∧ d.tree.DirAt parent := by
  obtain ⟨hstart, ⟨c, hc⟩ | ⟨-, hparent⟩⟩ := exists_of_locateWith h
  · by_cases hnil : l = []
    · exact .inl (hnil ▸ hstart.root)
    · -- Whatever is below the root is in a directory.
      rw [← List.dropLast_concat_getLast hnil] at hc
      exact .inr ⟨_, _, (List.dropLast_concat_getLast hnil).symm, Node.dirAt_of_find?_concat hc⟩
  · exact .inr hparent

/-- The disk has grown: what was there is still there. -/
structure Outgrows (d d' : Disk) : Prop where
  working : d'.working = d.working
  tree : Grows d.tree d'.tree

theorem Outgrows.locateWith {d d' : Disk} (h : Outgrows d d') {followLast missing : Bool}
    {p : Path} {l : Location} (hl : d.locateWith ⟨followLast, missing⟩ p = .ok l) {c : Node}
    (hfound : d'.tree.find? l = some c)
    (hplain : d.tree.find? l = none → ∀ target, c ≠ .link target) (missing' : Bool) :
    d'.locateWith ⟨followLast, missing'⟩ p = .ok l := by
  obtain ⟨hnul, hempty, hleads⟩ := locateWith_eq_ok_iff.mp hl
  have hstart : d'.startOf p = d.startOf p := by simp [startOf, h.working]
  refine locateWith_eq_ok_iff.mpr ⟨hnul, hempty, ?_⟩
  rw [hstart]
  exact hleads.grow h.tree hfound hplain missing'

/-! ## Files -/

theorem read_of_locate {d : Disk} {p : Path} {l : Location} (hl : d.locate p = .ok l)
    {bytes : Bytes} (hfind : d.tree.find? l = some (.file bytes)) : d.read p = .ok bytes := by
  simp [read, node, hl, hfind]

theorem locate_of_read {d : Disk} {p : Path} {bytes : Bytes} (h : d.read p = .ok bytes) :
    ∃ l, d.locate p = .ok l ∧ d.tree.find? l = some (.file bytes) := by
  unfold read node at h
  cases hl : d.locate p with
  | error e => simp [hl] at h
  | ok l =>
    rcases hfind : d.tree.find? l with _ | b | es | target <;> simp [hl, hfind] at h
    exact ⟨l, rfl, by rw [hfind, h]⟩

/-- A file is written in a place of a directory where there was a file or nothing. -/
theorem place_of_modifyFile {d d' : Disk} {p : Path} {f : Bytes → Bytes}
    (h : d.modifyFile p f = .ok d') :
    ∃ parent last, d.locateTarget p = .ok (parent ++ [last]) ∧ d.tree.DirAt parent ∧
      (d.tree.find? (parent ++ [last]) = none ∨
        d.tree.find? (parent ++ [last]) = some (.file (d.tree.bytesAt (parent ++ [last])))) ∧
      d' = { d with
        tree :=
          d.tree.put (.file (f (d.tree.bytesAt (parent ++ [last])))) (parent ++ [last]) } := by
  unfold modifyFile at h
  cases hl : d.locateTarget p with
  | error e => simp [hl] at h
  | ok l =>
    have hplace : (d.tree.find? l = none ∨ d.tree.find? l = some (.file (d.tree.bytesAt l))) ∧
        d' = { d with tree := d.tree.put (.file (f (d.tree.bytesAt l))) l } := by
      simp only [hl] at h
      unfold Node.bytesAt
      rcases hfind : d.tree.find? l with _ | bytes | es | target <;> simp only [hfind] at h
      · exact ⟨.inl rfl, (Except.ok.inj h).symm⟩
      · exact ⟨.inr rfl, (Except.ok.inj h).symm⟩
      · cases h
      · cases h
    obtain ⟨hfile, hd'⟩ := hplace
    have hnodir : ¬ d.tree.DirAt l := by
      rintro ⟨es, hdir⟩
      rcases hfile with hnone | hsome <;> simp_all
    obtain ⟨parent, last, rfl, hparent⟩ := (place_of_locateWith hl).resolve_left hnodir
    exact ⟨parent, last, rfl, hparent, hfile, hd'⟩

/-- A file that was written can be read.  Its new bytes come from those that were in its
place before. -/
theorem modifyFile_eq_ok {d d' : Disk} {p : Path} {f : Bytes → Bytes}
    (h : d.modifyFile p f = .ok d') :
    ∃ l, d.locateTarget p = .ok l ∧ d'.locate p = .ok l ∧
      d'.read p = .ok (f (d.tree.bytesAt l)) ∧
      d' = { d with tree := d.tree.put (.file (f (d.tree.bytesAt l))) l } := by
  obtain ⟨parent, last, hl, hparent, hfile, hd'⟩ := place_of_modifyFile h
  have hfind : d'.tree.find? (parent ++ [last]) =
      some (.file (f (d.tree.bytesAt (parent ++ [last])))) := by
    rw [hd']
    exact Node.find?_put_self hparent _ last
  have hgrown : Outgrows d d' := by
    rw [hd']
    refine ⟨rfl, Node.grows_put hparent fun c hc => ?_⟩
    rcases hfile with hnone | hsome
    · rw [hnone] at hc
      cases hc
    · rw [hsome] at hc
      obtain rfl := Option.some.inj hc
      exact Node.grows_file _ _
  have hlocate := hgrown.locateWith hl hfind (by simp) false
  exact ⟨_, hl, hlocate, read_of_locate hlocate hfind, hd'⟩

/-- Whether a file can be changed does not depend on the change. -/
theorem modifyFile_ok_of_ok {d d' : Disk} {p : Path} {f : Bytes → Bytes}
    (h : d.modifyFile p f = .ok d') (g : Bytes → Bytes) : ∃ d'', d.modifyFile p g = .ok d'' := by
  unfold modifyFile at h ⊢
  cases hl : d.locateTarget p with
  | error e => simp [hl] at h
  | ok l =>
    simp only [hl] at h ⊢
    rcases hfind : d.tree.find? l with _ | bytes | es | target <;> simp [hfind] at h ⊢

/-! ## Directories -/

/-- A directory is made in a place that was free. -/
theorem makeDirectory_eq_ok {d d' : Disk} {p : Path} (h : d.makeDirectory p = .ok d') :
    ∃ parent last, d.locateWith ⟨false, true⟩ p = .ok (parent ++ [last]) ∧
      d.tree.DirAt parent ∧ d.tree.find? (parent ++ [last]) = none ∧
      d' = { d with tree := d.tree.put Node.emptyDir (parent ++ [last]) } := by
  unfold makeDirectory at h
  cases hl : d.locateWith ⟨false, true⟩ p with
  | error e => simp [hl] at h
  | ok l =>
    cases hfind : d.tree.find? l with
    | some c => simp [hl, hfind] at h
    | none =>
      have hnodir : ¬ d.tree.DirAt l := by
        rintro ⟨es, hdir⟩
        rw [hfind] at hdir
        cases hdir
      obtain ⟨parent, last, rfl, hparent⟩ := (place_of_locateWith hl).resolve_left hnodir
      simp only [hl, hfind] at h
      exact ⟨parent, last, rfl, hparent, hfind, (Except.ok.inj h).symm⟩

theorem makeDirectory_outgrows {d d' : Disk} {p : Path} (h : d.makeDirectory p = .ok d') :
    Outgrows d d' := by
  obtain ⟨parent, last, -, hparent, hmissing, rfl⟩ := makeDirectory_eq_ok h
  exact ⟨rfl, Node.grows_put hparent fun c hc => by simp [hmissing] at hc⟩

/-- Directories were made one after the other, each of them named by the first components of
a path. -/
inductive MakesWay (cs : List Path.Component) (d : Disk) : Disk → Prop
  | nothing : MakesWay cs d d
  | directory {made made' : Disk} (hway : MakesWay cs d made) (first : List Path.Component)
      (hfirst : first <+: cs) (hmake : made.makeDirectory (.ofComponents first) = .ok made') :
      MakesWay cs d made'

theorem MakesWay.mono {cs more : List Path.Component} {d d' : Disk} (h : MakesWay cs d d')
    (hcs : cs <+: more) : MakesWay more d d' := by
  induction h with
  | nothing => exact .nothing
  | directory _ first hfirst hmake ih => exact .directory ih first (hfirst.trans hcs) hmake

theorem prefix_of_parentComponents {cs parent : List Path.Component}
    (h : Path.parentComponents cs = some parent) : parent <+: cs := by
  unfold Path.parentComponents at h
  split at h
  · cases h
  · cases h
  · obtain rfl := Option.some.inj h
    exact List.dropLast_prefix cs

/-- Whether or not a directory could be made, only directories on the way to it were. -/
theorem makeDirectories_makesWay (fuel : Nat) (d : Disk) (cs : List Path.Component) :
    MakesWay cs d (d.makeDirectories fuel cs).2 := by
  induction fuel generalizing cs with
  | zero => exact .nothing
  | succ fuel ih =>
    rw [makeDirectories]
    split
    · exact .nothing
    · simp only
      split
      · rename_i made hmake
        exact .directory .nothing cs (List.prefix_refl cs) hmake
      · -- The directory above is missing.
        split
        · exact .nothing
        · rename_i parent hparent
          have habove : MakesWay cs d (d.makeDirectories fuel parent).2 :=
            (ih parent).mono (prefix_of_parentComponents hparent)
          split
          · rename_i e made hmade
            rwa [hmade] at habove
          · rename_i made hmade
            rw [hmade] at habove
            split
            · rename_i made' hmake
              exact .directory habove cs (List.prefix_refl cs) hmake
            · exact habove
      · exact .nothing

theorem tryDirectory_makesWay (d : Disk) (p : Path) :
    MakesWay p.components d (d.tryDirectory p).2 := by
  unfold tryDirectory
  simp only
  split
  · exact .nothing
  · exact makeDirectories_makesWay _ d p.components

theorem ensureDirectory_eq_ok_iff {d d' : Disk} {p : Path} :
    d.ensureDirectory p = .ok d' ↔ d.tryDirectory p = (.ok (), d') := by
  unfold ensureDirectory
  rcases d.tryDirectory p with ⟨_ | done, made⟩ <;> simp

end LintRelay.Disk
