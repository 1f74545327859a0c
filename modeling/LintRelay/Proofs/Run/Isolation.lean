import LintRelay.Bridge.Replay
import LintRelay.Proofs.Bridge.Context
import LintRelay.Proofs.Project.Partition
import LintRelay.Proofs.Run.Discipline
set_option autoImplicit false

/-!
# Groups are analyzed in isolation

An engine keeps the configuration of the files that it has analyzed until it is told to
forget it, so a run has to tell it between two groups and must not do so within one.  Of
the calls of a run this file keeps the turns, which are the analyses and the resets, and
shows that they are the beginning of the turns that the plan comes to.  In those the
number of resets before a file is the number of its group (`Arranged`).  What follows for
runs, and for the configurations that a client of a bridge remembers, is
`run_isolates_groups`.
-/

namespace LintRelay

open Live (Planning requestFor)
open Bridge (Client Exchanged Replay)

/-! ## Turns -/

/-- What a run does to the configuration of its engine. -/
inductive Turn where
  /-- A file is analyzed with configurations. -/
  | ask (configs : List String) (subject : Path × FileKind)
  /-- The engine forgets its configuration. -/
  | forget
  deriving DecidableEq

/-- The turn that a call is. -/
def Call.turn? : Call → Option Turn
  | .analyze request _ => some (.ask request.configs request.subject)
  | .reset _ => some .forget
  | _ => none

/-- The turn that a task is meant for. -/
def Task.turn? : Task → Option Turn
  | .file configs f => some (.ask configs f.subject)
  | .reset => some .forget
  | _ => none

/-- The turns among calls. -/
def turnsOf (calls : List Call) : List Turn := calls.filterMap Call.turn?

theorem turnsOf_append (xs ys : List Call) : turnsOf (xs ++ ys) = turnsOf xs ++ turnsOf ys :=
  List.filterMap_append

theorem turnsOf_analyze (request : Request) (result : Except EngineError Response)
    (calls : List Call) :
    turnsOf (.analyze request result :: calls) =
      .ask request.configs request.subject :: turnsOf calls := rfl

theorem turnsOf_loads {calls : List Call} (h : ∀ c ∈ calls, c.isLoad = true) :
    turnsOf calls = [] := by
  refine List.filterMap_eq_nil_iff.mpr fun c hc => ?_
  have hload := h c hc
  cases c with
  | load path result => rfl
  | _ => cases hload

theorem count_forget_turnsOf (calls : List Call) :
    (turnsOf calls).count .forget = calls.countP Call.isReset := by
  induction calls with
  | nil => rfl
  | cons c rest ih =>
    cases c <;>
      simpa [turnsOf, List.filterMap_cons, Call.turn?, Call.isReset, List.countP_cons] using ih

theorem exists_request_of_ask_mem {calls : List Call} {configs : List String}
    {subject : Path × FileKind} (h : Turn.ask configs subject ∈ turnsOf calls) :
    ∃ c ∈ calls, c.request?.isSome = true := by
  obtain ⟨c, hc, hturn⟩ := List.mem_filterMap.mp h
  refine ⟨c, hc, ?_⟩
  cases c with
  | analyze request result => rfl
  | reset result => cases hturn
  | _ => cases hturn

/-- An analysis among turns is one among the calls. -/
theorem exists_analyze_of_turnsOf {calls : List Call} (resets : List Turn)
    {configs : List String} {subject : Path × FileKind} {turns : List Turn}
    (h : turnsOf calls = resets ++ .ask configs subject :: turns) :
    ∃ before q r after, calls = before ++ .analyze q r :: after ∧ turnsOf before = resets ∧
      q.configs = configs ∧ q.subject = subject ∧ turnsOf after = turns := by
  obtain ⟨before, rest, rfl, hbefore, hrest⟩ := List.filterMap_eq_append_iff.mp h
  obtain ⟨quiet, c, after, rfl, hquiet, hturn, hafter⟩ := List.filterMap_eq_cons_iff.mp hrest
  cases c with
  | analyze q r =>
    obtain ⟨hconfigs, hsubject⟩ := Turn.ask.inj (Option.some.inj hturn)
    refine ⟨before ++ quiet, q, r, after, by simp, ?_, hconfigs, hsubject, hafter⟩
    rw [turnsOf_append, turnsOf, hbefore, turnsOf, List.filterMap_eq_nil_iff.mpr hquiet,
      List.append_nil]
  | _ => cases hturn

/-! ## The turns of a run -/

theorem Segment.turns {o : RunOptions} {t : Task} {made : List Call}
    (h : Segment o t none made) : turnsOf made = [t].filterMap Task.turn? := by
  cases h <;> rfl

/-- A task that ends the run may have had its turn. -/
theorem Segment.turns_follow {o : RunOptions} {t : Task} {made : List Call}
    {outcome : Except RunError RunState} (h : Segment o t (some outcome) made) :
    turnsOf made <+: [t].filterMap Task.turn? := by
  cases h with
  | resetFailed err => exact List.prefix_refl _
  | refused configs f content err => exact List.prefix_refl _
  | _ => exact List.nil_prefix

/-- The turns are taken in the order of the tasks, and none is passed over. -/
theorem Feed.turns_follow {o : RunOptions} {tasks : List Task}
    {outcome : Except RunError RunState} {calls : List Call} (h : Feed o tasks outcome calls) :
    turnsOf calls <+: tasks.filterMap Task.turn? := by
  induction h with
  | done => exact List.nil_prefix
  | @stop t _ _ rest segment =>
    rw [← List.singleton_append, List.filterMap_append]
    exact segment.turns_follow.trans (List.prefix_append _ _)
  | @next t rest _ _ _ segment _ ih =>
    rw [← List.singleton_append (l := rest), List.filterMap_append, turnsOf_append,
      segment.turns]
    exact (List.prefix_append_right_inj _).mpr ih

/-! ## The turns of batches -/

/-- The configurations and the files of a batch that is analyzed. -/
def Batch.asks? : Batch → Option (List String × List SourceFile)
  | .skip _ => none
  | .analyze _ configs files => some (configs, files)

/-- The turns that batches come to; `first` says that none was analyzed before. -/
def Batch.turns (first : Bool) (batches : List Batch) : List Turn :=
  (Batch.tasks first batches).filterMap Task.turn?

namespace Batch

theorem turns_analyze (first : Bool) (label : Option String) (configs : List String)
    (files : List SourceFile) (rest : List Batch) :
    turns first (.analyze label configs files :: rest) =
      (if first then [] else [.forget]) ++
        (files.map fun f => .ask configs f.subject) ++ turns false rest := by
  have hfiles : (files.map (Task.file configs)).filterMap Task.turn? =
      files.map fun f => .ask configs f.subject := by
    rw [List.filterMap_map]
    exact congrFun List.filterMap_eq_map files
  cases first <;> simp [turns, tasks, List.filterMap_cons, Task.turn?, hfiles]

/-- Of the batches that are analyzed, the one whose number is the number of resets before
a file has the file, and the file is analyzed with its configurations. -/
theorem asks?_of_turns {first : Bool} {batches : List Batch} {before after : List Turn}
    {configs : List String} {subject : Path × FileKind}
    (h : turns first batches = before ++ .ask configs subject :: after) :
    ∃ i files, (batches.filterMap asks?)[i]? = some (configs, files) ∧
      (∃ f ∈ files, f.subject = subject) ∧
      before.count .forget = i + if first then 0 else 1 := by
  induction batches generalizing first before with
  | nil => simp [turns, tasks] at h
  | cons b rest ih =>
    cases b with
    | skip files => exact ih h
    | analyze label configs' files =>
      rw [turns_analyze] at h
      rcases append_eq_split h with ⟨behind, hhead, -⟩ | ⟨start, rfl, hrest⟩
      · -- The file is one of this batch, and before it there is at most the first reset.
        rcases append_eq_split hhead with ⟨_, hfirst, -⟩ | ⟨start, rfl, hown⟩
        · have hmem : Turn.ask configs subject ∈ if first then [] else [.forget] := by
            rw [hfirst]
            simp
          cases first <;> simp at hmem
        · have hmem : Turn.ask configs subject ∈ files.map fun f => .ask configs' f.subject := by
            rw [hown]
            simp
          obtain ⟨f, hf, hask⟩ := List.mem_map.mp hmem
          obtain ⟨rfl, hsubject⟩ := Turn.ask.inj hask
          have hstart : start.count .forget = 0 := by
            refine List.count_eq_zero.mpr fun hforget => ?_
            have hfiles : Turn.forget ∈ files.map fun f => .ask configs' f.subject := by
              rw [hown]
              exact List.mem_append_left _ hforget
            simp at hfiles
          refine ⟨0, files, rfl, ⟨f, hf, hsubject⟩, ?_⟩
          rw [List.count_append, hstart]
          cases first <;> rfl
      · obtain ⟨i, files', hget, hsubject, hcount⟩ := ih hrest
        refine ⟨i + 1, files', hget, hsubject, ?_⟩
        have hown : (files.map fun f => Turn.ask configs' f.subject).count .forget = 0 :=
          List.count_eq_zero.mpr (by simp)
        rw [List.count_append, List.count_append, hown, hcount]
        cases first <;> simp
        omega

/-- If every batch has files, a file is analyzed right before the engine forgets. -/
theorem ask_before_forget {first : Bool} {batches : List Batch} {before after : List Turn}
    (hfiles : ∀ asked ∈ batches.filterMap asks?, asked.2 ≠ [])
    (h : turns first batches = before ++ .forget :: after) :
    (first = false ∧ before = []) ∨
      ∃ configs subject, before.getLast? = some (.ask configs subject) := by
  induction batches generalizing first before with
  | nil => simp [turns, tasks] at h
  | cons b rest ih =>
    cases b with
    | skip files => exact ih hfiles h
    | analyze label configs files =>
      have hown : files ≠ [] := hfiles (configs, files) List.mem_cons_self
      rw [turns_analyze] at h
      rcases append_eq_split h with ⟨behind, hhead, -⟩ | ⟨start, rfl, hrest⟩
      · rcases append_eq_split hhead with ⟨_, hfirst, -⟩ | ⟨start, -, hmap⟩
        · cases first with
          | true => simp at hfirst
          | false =>
            cases before with
            | nil => exact .inl ⟨rfl, rfl⟩
            | cons t before => simp at hfirst
        · have hforget : Turn.forget ∈ files.map fun f => .ask configs f.subject := by
            rw [hmap]
            simp
          simp at hforget
      · refine .inr ?_
        rcases ih (fun asked hasked => hfiles asked (List.mem_cons_of_mem _ hasked)) hrest with
          ⟨-, rfl⟩ | ⟨configs', subject, hlast⟩
        · -- The reset is the one in front of the next batch.
          have hlast := List.getLast?_eq_some_getLast hown
          exact ⟨configs, (files.getLast hown).subject, by simp [List.getLast?_append, hlast]⟩
        · exact ⟨configs', subject, by simp [List.getLast?_append, hlast]⟩

end Batch

/-! ## Groups -/

/-- The groups that a run analyzes if nothing stops it: one with all files, or those with
a configuration when the configurations are the given ones. -/
def plannedGroups (mode : RunMode) (configs : List ConfigFile) (files : List SourceFile) :
    List ConfigGroup :=
  match mode with
  | .plain _ => [⟨none, files⟩]
  | .configured _ =>
    match partition configs files with
    | .error _ => []
    | .ok groups => groups.filter fun g => g.config.isSome

/-- The group with the number `i` has the file. -/
def InGroup (groups : List ConfigGroup) (i : Nat) (subject : Path × FileKind) : Prop :=
  ∃ g ∈ groups[i]?, ∃ f ∈ g.files, f.subject = subject

instance (groups : List ConfigGroup) (i : Nat) (subject : Path × FileKind) :
    Decidable (InGroup groups i subject) :=
  decidable_of_iff ((groups[i]?.any fun g => g.files.any fun f => f.subject = subject) = true)
    (by simp [InGroup, Option.any_eq_true])

/-- The configurations with which a group is analyzed: its own one, or `given` if it has
none. -/
def ConfigGroup.carried (given : List String) (g : ConfigGroup) : List String :=
  match g.config with
  | some c => [c.path.text]
  | none => given

/-- The configurations with which all groups without one are analyzed can be `configs`:
those that the caller gave, unless there were none. -/
def RunMode.Gives (mode : RunMode) (configs : List String) : Prop :=
  ∀ given, mode = .plain given → given ≠ [] → configs = given

theorem RunMode.exists_gives (mode : RunMode) : ∃ configs, mode.Gives configs := by
  cases mode with
  | plain given => exact ⟨given, fun _ hmode _ => RunMode.plain.inj hmode⟩
  | configured seeds =>
    refine ⟨[], ?_⟩
    intro given hmode
    cases hmode

theorem asks?_ofGroup (given : List String) (groups : List ConfigGroup) :
    (groups.map Batch.ofGroup).filterMap Batch.asks? =
      (groups.filter fun g => g.config.isSome).map fun g => (g.carried given, g.files) := by
  induction groups with
  | nil => rfl
  | cons g rest ih =>
    cases hconfig : g.config with
    | none =>
      rw [List.map_cons, List.filterMap_cons_none (by simp [Batch.ofGroup, Batch.asks?, hconfig]),
        List.filter_cons_of_neg (by simp [hconfig]), ih]
    | some c =>
      have hasks : (Batch.ofGroup g).asks? = some (g.carried given, g.files) := by
        simp [Batch.ofGroup, Batch.asks?, ConfigGroup.carried, hconfig]
      rw [List.map_cons, List.filterMap_cons_some hasks,
        List.filter_cons_of_pos (by simp [hconfig]), List.map_cons, ih]

/-- Files of a group are to be analyzed with these configurations: with the ones that the
caller gave, unless there were none, or with the one of the group. -/
def RunMode.Wants (mode : RunMode) (g : ConfigGroup) (configs : List String) : Prop :=
  match mode with
  | .plain given => given ≠ [] → configs = given
  | .configured _ => ∃ c, g.config = some c ∧ configs = [c.path.text]

theorem RunMode.wants_carried {mode : RunMode} {given : List String} (hgiven : mode.Gives given)
    {configs : List ConfigFile} {files : List SourceFile} {g : ConfigGroup}
    (h : g ∈ plannedGroups mode configs files) : mode.Wants g (g.carried given) := by
  cases mode with
  | plain given' =>
    intro hne
    obtain rfl := List.mem_singleton.mp h
    exact hgiven given' rfl hne
  | configured seeds =>
    simp only [plannedGroups] at h
    split at h
    · cases h
    · obtain ⟨c, hc⟩ := Option.isSome_iff_exists.mp (List.mem_filter.mp h).2
      exact ⟨c, hc, by simp [ConfigGroup.carried, hc]⟩

/-- Files of different groups have different paths. -/
theorem pairwise_plannedGroups (mode : RunMode) (configs : List ConfigFile)
    (files : List SourceFile) :
    (plannedGroups mode configs files).Pairwise fun g g' =>
      ∀ f ∈ g.files, ∀ f' ∈ g'.files, f.path ≠ f'.path := by
  cases mode with
  | plain given => exact List.pairwise_singleton _ _
  | configured seeds =>
    simp only [plannedGroups]
    split
    · exact .nil
    · rename_i hpartition
      rw [eq_firstMatchGroups_of_partition hpartition]
      exact (pairwise_firstMatchGroups configs files).filter _

/-- A file is in one group at most. -/
theorem InGroup.unique {mode : RunMode} {configs : List ConfigFile} {files : List SourceFile}
    {subject : Path × FileKind} {i j : Nat}
    (hi : InGroup (plannedGroups mode configs files) i subject)
    (hj : InGroup (plannedGroups mode configs files) j subject) : i = j := by
  obtain ⟨g, hg, f, hf, hsubject⟩ := hi
  obtain ⟨g', hg', f', hf', hsubject'⟩ := hj
  have hpath : f.path = f'.path := congrArg Prod.fst (hsubject.trans hsubject'.symm)
  obtain ⟨hi, rfl⟩ := List.getElem?_eq_some_iff.mp hg
  obtain ⟨hj, rfl⟩ := List.getElem?_eq_some_iff.mp hg'
  have happart := List.pairwise_iff_getElem.mp (pairwise_plannedGroups mode configs files)
  rcases Nat.lt_trichotomy i j with hlt | heq | hgt
  · exact absurd hpath (happart i j hi hj hlt f hf f' hf')
  · exact heq
  · exact absurd hpath.symm (happart j i hj hi hgt f' hf' f hf)

/-! ## Turns that are arranged by groups -/

/-- Before a file of a group the engine has forgotten as often as there are groups before
that one, and it forgets only right after a file. -/
structure Arranged (given : List String) (groups : List ConfigGroup) (turns : List Turn) :
    Prop where
  ask : ∀ before configs subject after, turns = before ++ .ask configs subject :: after →
    ∃ g, groups[before.count .forget]? = some g ∧ (∃ f ∈ g.files, f.subject = subject) ∧
      configs = g.carried given
  forget : ∀ before after, turns = before ++ .forget :: after →
    ∃ configs subject, before.getLast? = some (.ask configs subject)

namespace Arranged

variable {given : List String} {groups : List ConfigGroup}

theorem nil : Arranged given groups [] where
  ask := by simp
  forget := by simp

/-- A run that is left early is arranged as far as it got. -/
theorem of_isPrefix {turns planned : List Turn} (h : Arranged given groups planned)
    (hfollow : turns <+: planned) : Arranged given groups turns := by
  obtain ⟨rest, rfl⟩ := hfollow
  constructor
  · rintro before configs subject after rfl
    exact h.ask before configs subject (after ++ rest) (by simp)
  · rintro before after rfl
    exact h.forget before (after ++ rest) (by simp)

theorem of_batches {batches : List Batch}
    (hasks : batches.filterMap Batch.asks? =
      groups.map fun g => (ConfigGroup.carried given g, g.files))
    (hforget : ∀ before after, Batch.turns true batches = before ++ .forget :: after →
      ∃ configs subject, before.getLast? = some (.ask configs subject)) :
    Arranged given groups (Batch.turns true batches) where
  ask := by
    intro before configs subject after h
    obtain ⟨i, files, hget, hsubject, hcount⟩ := Batch.asks?_of_turns h
    rw [hasks, List.getElem?_map, Option.map_eq_some_iff] at hget
    obtain ⟨g, hg, hpair⟩ := hget
    obtain ⟨rfl, rfl⟩ := Prod.mk.inj hpair
    exact ⟨g, by rw [hcount]; exact hg, hsubject, rfl⟩
  forget := hforget

variable {calls : List Call} (h : Arranged given groups (turnsOf calls))

include h

/-- The analysis of a file of a group. -/
theorem analyze {before after : List Call} {request : Request}
    {result : Except EngineError Response}
    (hcalls : calls = before ++ .analyze request result :: after) :
    ∃ g, groups[before.countP Call.isReset]? = some g ∧
      (∃ f ∈ g.files, f.subject = request.subject) ∧ request.configs = g.carried given := by
  rw [← count_forget_turnsOf]
  exact h.ask (turnsOf before) _ _ (turnsOf after) (by rw [hcalls, turnsOf_append]; rfl)

/-- A file has been analyzed before the engine forgets. -/
theorem request_before_reset {before after : List Call} {result : Except EngineError Unit}
    (hcalls : calls = before ++ .reset result :: after) :
    ∃ c ∈ before, c.request?.isSome = true := by
  obtain ⟨configs, subject, hlast⟩ := h.forget (turnsOf before) (turnsOf after)
    (by rw [hcalls, turnsOf_append]; rfl)
  exact exists_request_of_ask_mem (List.mem_of_getLast? hlast)

/-- Between two analyses that follow on each other the engine forgets once at most. -/
theorem resets_le_one {before middle after : List Call} {q q' : Request}
    {r r' : Except EngineError Response}
    (hcalls : calls = before ++ .analyze q r :: (middle ++ .analyze q' r' :: after))
    (hmiddle : ∀ c ∈ middle, c.request? = none) : middle.countP Call.isReset ≤ 1 := by
  have hforget : ∀ t ∈ turnsOf middle, t = .forget := by
    intro t ht
    cases t with
    | forget => rfl
    | ask configs subject =>
      obtain ⟨c, hc, hsome⟩ := exists_request_of_ask_mem ht
      rw [hmiddle c hc] at hsome
      cases hsome
  rw [← count_forget_turnsOf]
  match hturns : turnsOf middle with
  | [] => simp
  | [t] => exact List.count_le_length
  | t :: t' :: rest =>
    -- A second reset would have the first one right before it.
    rw [hturns] at hforget
    obtain rfl := hforget t (by simp)
    obtain rfl := hforget t' (by simp)
    obtain ⟨configs, subject, hlast⟩ := h.forget
      (turnsOf before ++ [.ask q.configs q.subject, .forget])
      (rest ++ turnsOf (.analyze q' r' :: after))
      (by rw [hcalls, turnsOf_append, turnsOf_analyze, turnsOf_append, hturns]; simp)
    simp [List.getLast?_append] at hlast

/-- Without a reset between them, files are analyzed with the same configurations. -/
theorem configs_eq {before middle after : List Call} {q q' : Request}
    {r r' : Except EngineError Response}
    (hcalls : calls = before ++ .analyze q r :: (middle ++ .analyze q' r' :: after))
    (hmiddle : ∀ c ∈ middle, c.isReset = false) : q.configs = q'.configs := by
  obtain ⟨g, hg, -, hconfigs⟩ := h.analyze hcalls
  have hsecond : calls = (before ++ .analyze q r :: middle) ++ .analyze q' r' :: after := by
    rw [hcalls]
    simp
  obtain ⟨g', hg', -, hconfigs'⟩ := h.analyze hsecond
  have hnone : middle.countP Call.isReset = 0 :=
    List.countP_eq_zero.mpr fun c hc => by simp [hmiddle c hc]
  rw [List.countP_append, List.countP_cons_of_neg (by simp [Call.isReset]), hnone,
    Nat.add_zero, hg] at hg'
  obtain rfl := Option.some.inj hg'
  rw [hconfigs, hconfigs']

end Arranged

/-! ## Conversations -/

/-- The turns of a plan are arranged by the groups planned with the configurations that
were loaded. -/
theorem Live.Planning.arranged {files : List SourceFile} {mode : RunMode} {loads : List Call}
    {batches : List Batch} (h : Planning files mode (some (.ok (.batches batches))) loads) :
    ∃ given, mode.Gives given ∧
      Arranged given (plannedGroups mode (loads.filterMap Call.config?) files)
        (Batch.turns true batches) := by
  cases h with
  | plain given configs hgiven =>
    refine ⟨configs, fun _ hmode hne => ?_, .of_batches rfl ?_⟩
    · obtain rfl := RunMode.plain.inj hmode
      exact hgiven hne
    · intro before after hturns
      have hmem : Turn.forget ∈ Batch.turns true [.analyze none configs files] := by
        rw [hturns]
        simp
      rw [Batch.turns_analyze] at hmem
      simp [Batch.turns, Batch.tasks] at hmem
  | groups seeds loads configs groups hloads hpartition =>
    have hplanned : plannedGroups (.configured seeds) configs files =
        groups.filter fun g => g.config.isSome := by
      simp only [plannedGroups, hpartition]
    rw [filterMap_config?_of_map hloads, hplanned]
    have hfiles : ∀ asked ∈ (groups.map Batch.ofGroup).filterMap Batch.asks?,
        asked.2 ≠ [] := by
      intro asked hasked
      rw [asks?_ofGroup []] at hasked
      obtain ⟨g, hg, rfl⟩ := List.mem_map.mp hasked
      have hmem := (List.mem_filter.mp hg).1
      rw [eq_firstMatchGroups_of_partition hpartition] at hmem
      exact files_ne_nil_of_mem_firstMatchGroups hmem
    refine ⟨[], ?_, .of_batches (asks?_ofGroup [] groups) ?_⟩
    · intro given hmode
      cases hmode
    · intro before after hturns
      rcases Batch.ask_before_forget hfiles hturns with ⟨hfirst, -⟩ | hask
      · cases hfirst
      · exact hask

theorem Conversation.arranged {o : RunOptions} {mode : RunMode} {files : List SourceFile}
    {outcome : Option (Except RunError RunState)} {calls : List Call}
    (h : Conversation o mode files outcome calls) :
    ∃ given, mode.Gives given ∧
      Arranged given (plannedGroups mode (calls.filterMap Call.config?) files)
        (turnsOf calls) := by
  have hloads {result : Option (Except RunError Live.Plan)} {loads : List Call}
      (planning : Planning files mode result loads) :
      turnsOf (.setUp o.setup (.ok ()) :: loads) = [] := by
    have hnone : turnsOf loads = [] := turnsOf_loads planning.kinds
    exact hnone
  have hnothing {calls : List Call} (hturns : turnsOf calls = []) :
      ∃ given, mode.Gives given ∧
        Arranged given (plannedGroups mode (calls.filterMap Call.config?) files)
          (turnsOf calls) := by
    obtain ⟨given, hgiven⟩ := mode.exists_gives
    rw [hturns]
    exact ⟨given, hgiven, .nil⟩
  cases h with
  | setUpFailed err => exact hnothing rfl
  | endless loads planning => exact hnothing (hloads planning)
  | planFailed err loads planning => exact hnothing (hloads planning)
  | nothing loads planning => exact hnothing (hloads planning)
  | fed batches loads made outcome planning feed =>
    obtain ⟨given, hgiven, harranged⟩ := planning.arranged
    have hturns : turnsOf (.setUp o.setup (.ok ()) :: (loads ++ made)) = turnsOf made := by
      rw [← List.cons_append, turnsOf_append, hloads planning, List.nil_append]
    rw [feed.filterMap_config?, hturns]
    exact ⟨given, hgiven, harranged.of_isPrefix feed.turns_follow⟩

/-! ## Runs -/

/-- A file is analyzed after as many resets as its group has groups before it. -/
theorem Arranged.countP_isReset {given : List String} {mode : RunMode}
    {configs : List ConfigFile} {files : List SourceFile} {calls before after : List Call}
    {request : Request} {result : Except EngineError Response} {i : Nat}
    (h : Arranged given (plannedGroups mode configs files) (turnsOf calls))
    (hcalls : calls = before ++ .analyze request result :: after)
    (hi : InGroup (plannedGroups mode configs files) i request.subject) :
    before.countP Call.isReset = i := by
  obtain ⟨g, hg, hsubject, -⟩ := h.analyze hcalls
  exact InGroup.unique ⟨g, hg, hsubject⟩ hi

/-- What a client remembers before an analysis is nothing or what the analysis is for. -/
theorem Conversation.context {o : RunOptions} {mode : RunMode} {files : List SourceFile}
    {outcome : Option (Except RunError RunState)} {before after : List Call}
    {request : Request} {result : Except EngineError Response}
    (h : Conversation o mode files outcome (before ++ .analyze request result :: after)) :
    before.foldl Call.contextAfter [] = [] ∨
      before.foldl Call.contextAfter [] = request.configs := by
  rcases foldl_contextAfter_cases before with
    hnil | ⟨start, request', response, since, rfl, hsince, hcontext⟩
  · exact .inl hnil
  · obtain ⟨given, -, harranged⟩ := h.arranged
    have hunreset : ∀ c ∈ since, c.isReset = false := by
      intro c hc
      refine Bool.eq_false_iff.mpr fun hreset => ?_
      -- A reset would have failed, and the analysis would not have come after it.
      obtain ⟨since₁, since₂, rfl⟩ := List.append_of_mem hc
      obtain ⟨hlast, -⟩ := h.contained
        (start ++ .analyze request' (.ok response) :: since₁) c
        (since₂ ++ .analyze request result :: after) (by simp) (hsince c hc hreset)
      simp at hlast
    rw [hcontext]
    exact .inr (harranged.configs_eq (List.append_assoc _ _ _) hunreset)

/-- The first run of a session, with the groups that it has planned, never mixes their
configurations, whatever the engine answers and whenever the run is interrupted:

* a file that is analyzed is in a group, and is analyzed with the one configuration of
  that group, or with those that the caller gave;
* between two analyses the engine is reset once for every group that lies between them,
  so it is reset if and only if the groups are different; between analyses that follow on
  each other that is once at most;
* without a reset between them two analyses are for the same configurations;
* no reset comes before the first analysis.

If the engine is a client of a bridge that was just built, then at every analysis it
remembers nothing or the configurations of that analysis. -/
theorem run_isolates_groups {τ : Type} (s : Sink τ) (around : Surroundings) (o : RunOptions)
    (mode : RunMode) (files : List SourceFile) :
    (∀ {σ : Type} (e : Engine σ) {n : Session σ τ} {calls : List Call}
        {groups : List ConfigGroup}, n.state = .notStarted →
      n.callsMade e s around o mode files = calls →
      plannedGroups mode (calls.filterMap Call.config?) files = groups →
      (∀ fin, n.run e s around o mode files = some fin → fin.calls = calls) ∧
      (∀ before q r after, calls = before ++ .analyze q r :: after →
        (∃ i, InGroup groups i q.subject) ∧
          ∀ i, ∀ g ∈ groups[i]?, InGroup groups i q.subject → mode.Wants g q.configs) ∧
      (∀ before q r middle q' r' after,
        calls = before ++ .analyze q r :: (middle ++ .analyze q' r' :: after) →
        (∀ i j, InGroup groups i q.subject → InGroup groups j q'.subject →
          i ≤ j ∧ middle.countP Call.isReset = j - i ∧
          ((∃ c ∈ middle, c.isReset = true) ↔ i ≠ j) ∧
          ((∀ c ∈ middle, c.request? = none) → j ≤ i + 1)) ∧
        ((∀ c ∈ middle, c.isReset = false) → q.configs = q'.configs)) ∧
      (∀ before r after, calls = before ++ .reset r :: after →
        ∃ c ∈ before, c.request?.isSome = true)) ∧
    (∀ {ρ : Type} (host : Bridge.Host ρ) {n : Session (Client ρ) τ},
      Client.FreshlyBuilt host n.engine →
      ∀ before q r after,
        n.callsMade (Client.engine host) s around o mode files =
          before ++ .analyze q r :: after →
        (∃ client, (Client.engine host).History n.engine before client ∧
          (Client.engine host).History client (.analyze q r :: after)
            ((n.begin_ around o).execute (Client.engine host) s around o mode files).2.engine) ∧
        ∀ client, (Client.engine host).History n.engine before client →
          client.context = [] ∨ client.context = q.configs) := by
  constructor
  · rintro σ e n calls groups hfirst hcalls rfl
    obtain ⟨hconversation, -⟩ := Session.execute_conversation e s around o mode files n
    rw [hcalls] at hconversation
    obtain ⟨given, hgiven, harranged⟩ := hconversation.arranged
    refine ⟨?_, ?_, ?_, fun before r after => harranged.request_before_reset⟩
    · intro fin hrun
      rw [← hcalls]
      exact (Session.calls_of_run hfirst hrun).1
    · intro before q r after hsplit
      obtain ⟨g, hg, hsubject, hconfigs⟩ := harranged.analyze hsplit
      refine ⟨⟨_, g, hg, hsubject⟩, ?_⟩
      intro i g' hg' hi
      obtain rfl : before.countP Call.isReset = i := harranged.countP_isReset hsplit hi
      obtain rfl : g = g' := Option.some.inj (hg.symm.trans hg')
      rw [hconfigs]
      exact RunMode.wants_carried hgiven (List.mem_of_getElem? hg)
    · intro before q r middle q' r' after hsplit
      refine ⟨?_, harranged.configs_eq hsplit⟩
      intro i j hi hj
      have hsecond : calls = (before ++ .analyze q r :: middle) ++ .analyze q' r' :: after := by
        rw [hsplit]
        simp
      have hbefore := harranged.countP_isReset hsplit hi
      have hboth := harranged.countP_isReset hsecond hj
      have hresets : j = i + middle.countP Call.isReset := by
        rw [List.countP_append, List.countP_cons_of_neg (by simp [Call.isReset])] at hboth
        omega
      refine ⟨by omega, by omega, ?_, ?_⟩
      · rw [← List.countP_pos_iff]
        omega
      · intro hmiddle
        have hone := harranged.resets_le_one hsplit hmiddle
        omega
  · intro ρ host n hfresh before q r after hsplit
    obtain ⟨hconversation, hhistory⟩ :=
      Session.execute_conversation (Client.engine host) s around o mode files n
    rw [hsplit] at hconversation hhistory
    refine ⟨hhistory.split, ?_⟩
    intro client hclient
    rw [Client.history_context hclient, hfresh.context_eq_nil]
    exact hconversation.context

/-- A bridge has answered with a text. -/
def Bridge.Exchanged.said (text : String) : Exchanged := ⟨.reply 200 text, false⟩

/-- A client of a bridge that goes along with everything: the linter is set up, two
configurations are loaded, and a file is analyzed, the bridge forgets, and two more files
are analyzed. -/
def obligingClient : Client Replay :=
  .connect "http://localhost:1" 5 <| .ofList <| List.map .said
    ["OK!", "\x7b\x7d", "\x7b\x7d", "OK!", "\x7b\x7d", "OK!", "OK!", "\x7b\x7d",
      "OK!", "\x7b\x7d"]

/-- Files for two groups. -/
def obligingFiles : List SourceFile :=
  [.main ⟨"/p/y.ts"⟩, .main ⟨"/p/a/x.ts"⟩, .main ⟨"/p/z.ts"⟩]

/-- The calls of a run with that client. -/
def obligingCalls : List Call :=
  (Session.new obligingClient 0 default).callsMade (Client.engine Replay.host) .counting
    { (default : Surroundings) with loads := 2 } default
    (.configured [⟨"/p/a/t.json"⟩, ⟨"/p/t.json"⟩]) obligingFiles

/-- The groups are kept apart by one reset, and the client remembers nothing of the first
when it comes to the second. -/
theorem run_obligingClient_isolates_groups :
    ∃ before q r middle q' r' after,
      obligingCalls = before ++ .analyze q r :: (middle ++ .analyze q' r' :: after) ∧
      q.configs = ["/p/a/t.json"] ∧ q'.configs = ["/p/t.json"] ∧
      middle.countP Call.isReset = 1 ∧
      Client.FreshlyBuilt Replay.host obligingClient ∧
      ∃ client,
        (Client.engine Replay.host).History obligingClient (before ++ .analyze q r :: middle)
          client ∧
        (client.context = [] ∨ client.context = ["/p/t.json"]) := by
  obtain ⟨hruns, hbridge⟩ := run_isolates_groups .counting
    { (default : Surroundings) with loads := 2 } default
    (.configured [⟨"/p/a/t.json"⟩, ⟨"/p/t.json"⟩]) obligingFiles
  obtain ⟨hturns, hx, hy⟩ :
      turnsOf obligingCalls =
        [.ask ["/p/a/t.json"] (⟨"/p/a/x.ts"⟩, .main), .forget,
          .ask ["/p/t.json"] (⟨"/p/y.ts"⟩, .main), .ask ["/p/t.json"] (⟨"/p/z.ts"⟩, .main)] ∧
      InGroup (plannedGroups (.configured [⟨"/p/a/t.json"⟩, ⟨"/p/t.json"⟩])
        (obligingCalls.filterMap Call.config?) obligingFiles) 0 (⟨"/p/a/x.ts"⟩, .main) ∧
      InGroup (plannedGroups (.configured [⟨"/p/a/t.json"⟩, ⟨"/p/t.json"⟩])
        (obligingCalls.filterMap Call.config?) obligingFiles) 1 (⟨"/p/y.ts"⟩, .main) := by
    decide +kernel
  obtain ⟨before, q, r, rest, hcalls, -, hconfigs, hsubject, hrest⟩ :=
    exists_analyze_of_turnsOf [] hturns
  obtain ⟨middle, q', r', after, rfl, -, hconfigs', hsubject', -⟩ :=
    exists_analyze_of_turnsOf [.forget] hrest
  have hfresh : Client.FreshlyBuilt Replay.host obligingClient := .connected _ _ _
  obtain ⟨-, -, hpairs, -⟩ := hruns (Client.engine Replay.host)
    (n := Session.new obligingClient 0 default) rfl rfl rfl
  obtain ⟨-, hresets, -, -⟩ := (hpairs before q r middle q' r' after hcalls).1 0 1
    (hsubject ▸ hx) (hsubject' ▸ hy)
  obtain ⟨⟨client, hhistory, -⟩, hcontext⟩ := hbridge Replay.host
    (n := Session.new obligingClient 0 default) hfresh (before ++ .analyze q r :: middle) q' r'
    after (by rw [List.append_assoc]; exact hcalls)
  refine ⟨before, q, r, middle, q', r', after, hcalls, hconfigs, hconfigs', hresets, hfresh,
    client, hhistory, ?_⟩
  rw [← hconfigs']
  exact hcontext client hhistory

end LintRelay
