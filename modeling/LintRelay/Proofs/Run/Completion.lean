import LintRelay.Proofs.Project.Partition
import LintRelay.Proofs.Run.Accounting
import LintRelay.Proofs.Run.Discipline
set_option autoImplicit false

/-!
# What a completed run has dealt with

A run that ends as completed has performed all its tasks, so every file was either sent
to the engine or passed over with the files that no configuration claims.  The files are
followed from the plan to the calls: the tasks are those of the batches, the batches are
the groups, and the groups are a partition of the files given
(`run_completed_accounts_for_every_file`).

There is one way to complete without looking at any file: no seed was given, and the
configuration that would have stood in for it could not be generated.
-/

namespace LintRelay

open Live (Planning)

/-! ## Files that are passed over -/

/-- The files that a task passes over. -/
def Task.passedOver : Task → List SourceFile
  | .skip files => files
  | _ => []

/-- The files of a batch that are passed over. -/
def Batch.passedOver : Batch → List SourceFile
  | .skip files => files
  | .analyze _ _ _ => []

/-- The files of the groups without a configuration. -/
def unmatchedFiles (groups : List ConfigGroup) : List SourceFile :=
  (groups.filter fun g => g.config.isNone).flatMap ConfigGroup.files

theorem flatMap_passedOver_tasks (first : Bool) (batches : List Batch) :
    (Batch.tasks first batches).flatMap Task.passedOver = batches.flatMap Batch.passedOver := by
  induction batches generalizing first with
  | nil => rfl
  | cons b rest ih =>
    cases b with
    | skip files => simp [Batch.tasks, Task.passedOver, Batch.passedOver, ih]
    | analyze label configs files =>
      have hfiles : (files.map (Task.file configs)).flatMap Task.passedOver = [] := by
        simp [List.flatMap_map, Task.passedOver]
      cases first <;> simp [Batch.tasks, Task.passedOver, Batch.passedOver, ih, hfiles]

theorem passedOver_ofGroup (groups : List ConfigGroup) :
    (groups.map Batch.ofGroup).flatMap Batch.passedOver = unmatchedFiles groups := by
  unfold unmatchedFiles
  induction groups with
  | nil => rfl
  | cons g rest ih =>
    cases hconfig : g.config with
    | none => simp [Batch.ofGroup, Batch.passedOver, hconfig, ih]
    | some c => simp [Batch.ofGroup, Batch.passedOver, hconfig, ih]

/-! ## Calls of a completed feeding -/

namespace Segment

variable {o : RunOptions} {t : Task} {made : List Call}

/-- No single task completes a run. -/
theorem not_completed {outcome : Except RunError RunState}
    (h : Segment o t (some outcome) made) : outcome ≠ .ok .completed := by
  cases h <;> simp

/-- A task that does not end the run has its requests answered. -/
theorem answered_subjects (h : Segment o t none made) :
    (made.filterMap Call.response?).length = (subjectsOf made).length := by
  cases h <;> rfl

end Segment

namespace Feed

variable {o : RunOptions} {tasks : List Task} {outcome : Except RunError RunState}
  {calls : List Call}

/-- When all tasks are performed, their files are analyzed. -/
theorem subjects_of_completed (h : Feed o tasks outcome calls)
    (hcompleted : outcome = .ok .completed) :
    subjectsOf calls = (tasks.filterMap Task.target?).map SourceFile.subject := by
  induction h with
  | done => rfl
  | stop rest segment => exact absurd hcompleted segment.not_completed
  | next segment _ ih =>
    rw [filterMap_target?_cons, List.map_append, subjectsOf_append, segment.subjects,
      ih hcompleted]

theorem answered_of_completed (h : Feed o tasks outcome calls)
    (hcompleted : outcome = .ok .completed) :
    (calls.filterMap Call.response?).length = (subjectsOf calls).length := by
  induction h with
  | done => rfl
  | stop rest segment => exact absurd hcompleted segment.not_completed
  | next segment _ ih =>
    rw [List.filterMap_append, List.length_append, subjectsOf_append, List.length_append,
      segment.answered_subjects, ih hcompleted]

end Feed

namespace Live

variable {σ τ : Type}

/-! ## The count of files passed over -/

theorem deliver_skippedUnmatched (s : Sink τ) (f : SourceFile) (r : Response) (l : Live σ τ) :
    (l.deliver s f r).summary.skippedUnmatched = l.summary.skippedUnmatched := by
  unfold deliver
  cases r.error with
  | some error => rfl
  | none => cases r.parsingError <;> rfl

theorem Step.skippedUnmatched {e : Engine σ} {s : Sink τ} {o : RunOptions} {l l' : Live σ τ}
    {t : Task} {outcome : Option (Except RunError RunState)} (h : Step e s o l t outcome l') :
    l'.summary.skippedUnmatched = l.summary.skippedUnmatched + t.passedOver.length := by
  cases h with
  | answered configs f content r hcancelled halive hread hvalue =>
    exact deliver_skippedUnmatched s f r _
  | _ => rfl

theorem Performs.skippedUnmatched_of_completed {e : Engine σ} {s : Sink τ} {o : RunOptions}
    {tasks : List Task} {l l' : Live σ τ} {outcome : Except RunError RunState}
    (h : Performs e s o tasks l outcome l') (hcompleted : outcome = .ok .completed) :
    l'.summary.skippedUnmatched =
      l.summary.skippedUnmatched + (tasks.flatMap Task.passedOver).length := by
  induction h with
  | done l => simp
  | stop rest step =>
    obtain ⟨made, -, hsegment⟩ := step.segment
    exact absurd hcompleted hsegment.not_completed
  | next step _ ih =>
    rw [ih hcompleted, step.skippedUnmatched, List.flatMap_cons, List.length_append,
      Nat.add_assoc]

/-! ## Runs without a plan -/

/-- No seed was given, and no configuration can be generated in its place. -/
def Ungenerated (around : Surroundings) (o : RunOptions) (mode : RunMode)
    (files : List SourceFile) (d : Disk) : Prop :=
  mode = .configured [] ∧ ∃ f, Generated.create d around.fresh o.language files = .error f

theorem setUpLinter_disk (e : Engine σ) (o : RunOptions) (l : Live σ τ) :
    (l.setUpLinter e o).2.disk = l.disk := by
  unfold setUpLinter
  simp only
  split <;> rfl

theorem generate_fst_eq_error_iff (around : Surroundings) (o : RunOptions)
    (files : List SourceFile) (l : Live σ τ) (f : Generated.Failure) :
    (l.generate around o files).1 = .error f ↔
      Generated.create l.disk around.fresh o.language files = .error f := by
  unfold generate
  simp only [say_eq_emitAll, emitAll_disk]
  cases Generated.create l.disk around.fresh o.language files <;> simp

theorem planGroups_ne_nothing (e : Engine σ) (around : Surroundings) (seeds : List Path)
    (files : List SourceFile) (l : Live σ τ) :
    (l.planGroups e around seeds files).1 ≠ some (.ok .nothing) := by
  unfold planGroups
  rcases resolveGroups e l.disk around.loads seeds files l.engine with ⟨_ | err | groups, s⟩ <;>
    simp

theorem plan_eq_nothing_iff (e : Engine σ) (around : Surroundings) (o : RunOptions)
    (mode : RunMode) (files : List SourceFile) (l : Live σ τ) :
    (l.plan e around o mode files).1 = some (.ok .nothing) ↔
      Ungenerated around o mode files l.disk := by
  unfold Ungenerated
  cases mode with
  | plain given =>
    have hplan := (planPlain_cases e around o given files l).2
    constructor
    · intro hnothing
      rw [show (l.plan e around o (.plain given) files).1 =
        some (.ok (l.planPlain around o given files).1) from rfl] at hnothing
      rw [hnothing] at hplan
      cases hplan
    · rintro ⟨hmode, -⟩
      cases hmode
  | configured seeds =>
    have hgroups := planGroups_ne_nothing (τ := τ) e around
    unfold plan
    simp only [← generate_fst_eq_error_iff]
    split
    · rename_i hnone
      obtain rfl : seeds = [] := List.isEmpty_iff.mp hnone
      rcases hgenerate : l.generate around o files with ⟨f | done, l'⟩
      · simp
      · simp [hgroups]
    · rename_i hsome
      have hseeds : seeds ≠ [] := fun h => hsome (by simp [h])
      simp [hgroups, hseeds]

/-- A run that completes had nothing to analyze with, or has performed all its tasks. -/
theorem execute_completed_cases {e : Engine σ} {s : Sink τ} {around : Surroundings}
    {o : RunOptions} {mode : RunMode} {files : List SourceFile} {l l' : Live σ τ}
    (hidle : l.recorder.current = none)
    (h : l.execute e s around o mode files = (some (.ok .completed), l')) :
    (Ungenerated around o mode files l.disk ∧ Prepared e [.setUp o.setup (.ok ())] l l') ∨
    (¬ Ungenerated around o mode files l.disk ∧
      ∃ batches loads l₁, Prepared e (.setUp o.setup (.ok ()) :: loads) l l₁ ∧
        Planning files mode (some (.ok (.batches batches))) loads ∧
        Performs e s o (Batch.tasks true batches) (l₁.startProgress o batches)
          (.ok .completed) l') := by
  have hpasses := execute_passes e s around o mode files hidle
  rw [h] at hpasses
  have hnothing : ∀ {l₁ l₂ : Live σ τ} {result : Option (Except RunError Plan)},
      l.setUpLinter e o = (.ok (), l₁) → l₁.plan e around o mode files = (result, l₂) →
      (result = some (.ok .nothing) ↔ Ungenerated around o mode files l.disk) := by
    intro l₁ l₂ result hsetUp hplan
    have hdisk := setUpLinter_disk e o l
    have hiff := plan_eq_nothing_iff e around o mode files l₁
    rw [hsetUp] at hdisk
    rwa [hplan, hdisk] at hiff
  cases hpasses with
  | nothing hsetUp hplan =>
    obtain ⟨loads, hprepared, hplanning⟩ := prepared_of_plan hsetUp hplan
    cases hplanning with
    | nothing => exact .inl ⟨(hnothing hsetUp hplan).mp rfl, hprepared⟩
  | fed hsetUp hplan hperforms =>
    obtain ⟨loads, hprepared, hplanning⟩ := prepared_of_plan hsetUp hplan
    exact .inr ⟨by simp [← hnothing hsetUp hplan], _, loads, _, hprepared, hplanning, hperforms⟩

end Live

/-! ## Plans -/

/-- The files of groups are those of the groups with a configuration and the others. -/
theorem perm_matched_unmatched (groups : List ConfigGroup) :
    ((groups.filter fun g => g.config.isSome).flatMap ConfigGroup.files ++
      unmatchedFiles groups).Perm (groups.flatMap ConfigGroup.files) := by
  have hsplit := List.filter_append_perm (fun g : ConfigGroup => g.config.isSome) groups
  have hnone : (groups.filter fun g => !g.config.isSome) =
      groups.filter fun g => g.config.isNone := by
    simp
  rw [hnone] at hsplit
  rw [unmatchedFiles, ← List.flatMap_append]
  exact hsplit.flatMap_right _

/-- The files that batches have analyzed or pass over are the files given. -/
theorem perm_targets_passedOver {files : List SourceFile} {mode : RunMode}
    {batches : List Batch} {loads : List Call}
    (h : Planning files mode (some (.ok (.batches batches))) loads) :
    (batches.flatMap Batch.targets ++ batches.flatMap Batch.passedOver).Perm files := by
  cases h with
  | plain given configs hgiven => simp [Batch.targets, Batch.passedOver]
  | groups seeds loads configs groups hloads hpartition =>
    rw [targets_ofGroup, passedOver_ofGroup]
    refine (perm_matched_unmatched groups).trans ?_
    rw [eq_firstMatchGroups_of_partition hpartition]
    exact perm_firstMatchGroups configs files

/-! ## Runs -/

/-- The calls and the summary of a run that has performed the tasks of batches, which come
from loads. -/
structure Dealt (batches : List Batch) (loads calls : List Call) (summary : RunSummary) :
    Prop where
  configs : calls.filterMap Call.config? = loads.filterMap Call.config?
  subjects : subjectsOf calls = (batches.flatMap Batch.targets).map SourceFile.subject
  issued : summary.requestsIssued = (batches.flatMap Batch.targets).length
  skipped : summary.skippedUnmatched = (batches.flatMap Batch.passedOver).length

theorem Dealt.length_files {batches : List Batch} {loads calls : List Call}
    {summary : RunSummary} {files : List SourceFile} {mode : RunMode}
    (h : Dealt batches loads calls summary)
    (hplanning : Planning files mode (some (.ok (.batches batches))) loads) :
    summary.requestsIssued + summary.skippedUnmatched = files.length := by
  rw [h.issued, h.skipped, ← List.length_append]
  exact (perm_targets_passedOver hplanning).length_eq

namespace Live

variable {σ τ : Type}

theorem dealt_of_completed {e : Engine σ} {s : Sink τ} {o : RunOptions} {mode : RunMode}
    {files : List SourceFile} {batches : List Batch} {loads : List Call} {l l₁ l' : Live σ τ}
    {start : τ} {recording : Bool} (hcalls : l.calls = []) (hsummary : l.summary = .empty)
    (hopening : l.ledger = .opening start recording)
    (hprepared : Prepared e (.setUp o.setup (.ok ()) :: loads) l l₁)
    (hplanning : Planning files mode (some (.ok (.batches batches))) loads)
    (hperforms : Performs e s o (Batch.tasks true batches) (l₁.startProgress o batches)
      (.ok .completed) l') : Dealt batches loads l'.calls l'.summary := by
  obtain ⟨made, hmade, hfeed⟩ := hperforms.feed
  have htraced := (hprepared.toTraced.trans (traced_startProgress e o batches l₁)).trans hmade
  have htrace : l'.calls = (.setUp o.setup (.ok ()) :: loads) ++ made := by
    rw [htraced.calls, hcalls, List.nil_append, List.append_nil]
  -- Before the first task no file is sent.
  have hquiet := hplanning.no_request o
  have hunanswered : (Call.setUp o.setup (.ok ()) :: loads).filterMap Call.response? = [] :=
    List.filterMap_eq_nil_iff.mpr fun c hc => Call.response?_of_no_request (hquiet c hc)
  have hsubjects : subjectsOf l'.calls =
      (batches.flatMap Batch.targets).map SourceFile.subject := by
    rw [htrace, subjectsOf_append, subjectsOf_eq_nil hquiet, List.nil_append,
      hfeed.subjects_of_completed rfl, filterMap_target?_tasks]
  have hbalanced := (Executed.fed batches loads l₁ hprepared hplanning _ _ hperforms).balanced
    hopening
  refine ⟨?_, hsubjects, ?_, ?_⟩
  · rw [htrace]
    exact hfeed.filterMap_config? loads
  · calc l'.summary.requestsIssued
        = (l'.calls.filterMap Call.response?).length := hbalanced.issued
      _ = (made.filterMap Call.response?).length := by
          rw [htrace, List.filterMap_append, hunanswered, List.nil_append]
      _ = (subjectsOf made).length := hfeed.answered_of_completed rfl
      _ = (batches.flatMap Batch.targets).length := by
          rw [hfeed.subjects_of_completed rfl, filterMap_target?_tasks, List.length_map]
  · have hstart : (l₁.startProgress o batches).summary = .empty := by
      simp [startProgress, hprepared.summary, hsummary]
    rw [hperforms.skippedUnmatched_of_completed rfl, hstart, flatMap_passedOver_tasks]
    exact Nat.zero_add _

end Live

namespace Session

variable {σ τ : Type} {e : Engine σ} {s : Sink τ} {around : Surroundings} {o : RunOptions}
  {mode : RunMode} {files : List SourceFile} {n : Session σ τ} {fin : Finished σ τ}
  {summary : RunSummary}

/-- Only the first run of a session gives a summary, and it has gone through all its
phases. -/
theorem execute_of_run_ok (hrun : n.run e s around o mode files = some fin)
    (hresult : fin.result = .ok summary) :
    ∃ state l, (n.begin_ around o).execute e s around o mode files = (some (.ok state), l) ∧
      fin.calls = l.calls ∧
      summary = { l.summary with
        progressTally := l.tally
        metricRecords := l.recorder.files.length
        state := state } := by
  by_cases hfirst : n.state = .notStarted
  · obtain ⟨outcome, l, hexecute, rfl⟩ := (run_eq_some_iff hfirst).mp hrun
    have hclosed := l.finish_closed around outcome
    cases outcome with
    | error err => cases hresult
    | ok state =>
      refine ⟨state, l, hexecute, hclosed.calls, ?_⟩
      rw [← Except.ok.inj hresult]
      exact hclosed.summary
  · unfold run at hrun
    rw [if_pos hfirst] at hrun
    obtain rfl := Option.some.inj hrun
    cases hresult

/-- A run that completes has counted nothing, or has dealt with the batches of its plan. -/
theorem completed_cases (hrun : n.run e s around o mode files = some fin)
    (hresult : fin.result = .ok summary) (hcompleted : summary.state = .completed) :
    (Live.Ungenerated around o mode files n.disk ∧
      summary = { RunSummary.empty with state := .completed } ∧
      fin.calls = [.setUp o.setup (.ok ())]) ∨
    (¬ Live.Ungenerated around o mode files n.disk ∧
      ∃ batches loads, Planning files mode (some (.ok (.batches batches))) loads ∧
        Dealt batches loads fin.calls summary) := by
  obtain ⟨state, l, hexecute, hcalls, hsummary⟩ := execute_of_run_ok hrun hresult
  obtain rfl : state = .completed := by rwa [hsummary] at hcompleted
  obtain ⟨timed, hrecorder⟩ := n.begin_recorder around o
  have hidle : (n.begin_ around o).recorder.current = none := by rw [hrecorder]; rfl
  rcases Live.execute_completed_cases hidle hexecute with
    ⟨hnothing, hprepared⟩ | ⟨hplanned, batches, loads, l₁, hprepared, hplanning, hperforms⟩
  · refine .inl ⟨hnothing, ?_, ?_⟩
    · have htally : l.tally = 0 := by
        simp [Live.tally, hprepared.progress, hprepared.summary, begin_, RunSummary.empty]
      rw [hsummary, htally, hprepared.summary, hprepared.recorder, hrecorder]
      rfl
    · rw [hcalls, hprepared.calls]
      rfl
  · have hdealt := Live.dealt_of_completed rfl rfl (n.begin_ledger around o) hprepared hplanning
      hperforms
    refine .inr ⟨hplanned, batches, loads, hplanning, ?_⟩
    rw [hcalls, hsummary]
    exact ⟨hdealt.configs, hdealt.subjects, hdealt.issued, hdealt.skipped⟩

end Session

/-- A run that returns a summary and has completed has dealt with every file: as many
requests were answered and files passed over as there are files, and the files that were
sent and the files that no configuration claims are the files given, each as often as it
was given.  With one group nothing is passed over, and the files are sent in their order.

The only exception is a run without seeds for which no configuration can be generated:
it sets up the linter and counts nothing. -/
theorem run_completed_accounts_for_every_file {σ τ : Type} {e : Engine σ} {s : Sink τ}
    {around : Surroundings} {o : RunOptions} {mode : RunMode} {files : List SourceFile}
    {n : Session σ τ} {fin : Finished σ τ} {summary : RunSummary}
    (hrun : n.run e s around o mode files = some fin) (hresult : fin.result = .ok summary)
    (hcompleted : summary.state = .completed) :
    (Live.Ungenerated around o mode files n.disk →
      summary = { RunSummary.empty with state := .completed } ∧
        fin.calls = [.setUp o.setup (.ok ())]) ∧
    (¬ Live.Ungenerated around o mode files n.disk →
      summary.requestsIssued + summary.skippedUnmatched = files.length ∧
      match mode with
      | .plain _ =>
        summary.skippedUnmatched = 0 ∧ subjectsOf fin.calls = files.map SourceFile.subject
      | .configured _ =>
        ∃ groups, partition (fin.calls.filterMap Call.config?) files = .ok groups ∧
          summary.skippedUnmatched = (unmatchedFiles groups).length ∧
          (subjectsOf fin.calls ++ (unmatchedFiles groups).map SourceFile.subject).Perm
            (files.map SourceFile.subject)) := by
  rcases Session.completed_cases hrun hresult hcompleted with
    ⟨hnothing, hcounts⟩ | ⟨hplanned, batches, loads, hplanning, hdealt⟩
  · exact ⟨fun _ => hcounts, fun hplanned => absurd hnothing hplanned⟩
  · refine ⟨fun hnothing => absurd hnothing hplanned, fun _ => ⟨hdealt.length_files hplanning, ?_⟩⟩
    have hperm := (perm_targets_passedOver hplanning).map SourceFile.subject
    rw [hdealt.skipped, hdealt.subjects]
    cases hplanning with
    | plain given configs hgiven => simp [Batch.targets, Batch.passedOver]
    | groups seeds loads configs groups hloads hpartition =>
      rw [List.map_append, passedOver_ofGroup] at hperm
      refine ⟨groups, ?_, by rw [passedOver_ofGroup], hperm⟩
      rw [hdealt.configs, filterMap_config?_of_map hloads]
      exact hpartition

/-- An engine that loads a configuration for any path and answers every request. -/
def willingEngine : Engine Unit :=
  .ofTables (fun p => .ok ⟨p, [], [], [], none, []⟩) fun _ => .ok .empty

/-- Two groups, a file that is given twice, and a file that belongs to no group. -/
theorem run_willingEngine_accounts_for_every_file :
    ∃ fin summary,
      (Session.new () 0 default).run willingEngine .counting
        { (default : Surroundings) with loads := 2 } default
        (.configured [⟨"/p/a/t.json"⟩, ⟨"/p/t.json"⟩])
        [.main ⟨"/p/y.ts"⟩, .main ⟨"/q/w.ts"⟩, .main ⟨"/p/a/x.ts"⟩, .main ⟨"/p/y.ts"⟩] =
          some fin ∧
      fin.result = .ok summary ∧ summary.state = .completed ∧ summary.skippedUnmatched = 1 ∧
      summary.requestsIssued + summary.skippedUnmatched = 4 ∧
      ∃ groups, partition (fin.calls.filterMap Call.config?)
          [.main ⟨"/p/y.ts"⟩, .main ⟨"/q/w.ts"⟩, .main ⟨"/p/a/x.ts"⟩, .main ⟨"/p/y.ts"⟩] =
            .ok groups ∧
        (subjectsOf fin.calls ++ (unmatchedFiles groups).map SourceFile.subject).Perm
          [(⟨"/p/y.ts"⟩, .main), (⟨"/q/w.ts"⟩, .main), (⟨"/p/a/x.ts"⟩, .main),
            (⟨"/p/y.ts"⟩, .main)] := by
  have hsummary : ((Session.new () 0 default).run willingEngine .counting
      { (default : Surroundings) with loads := 2 } default
      (.configured [⟨"/p/a/t.json"⟩, ⟨"/p/t.json"⟩])
      [.main ⟨"/p/y.ts"⟩, .main ⟨"/q/w.ts"⟩, .main ⟨"/p/a/x.ts"⟩, .main ⟨"/p/y.ts"⟩]).bind
        (fun fin => fin.result.toOption) = some ⟨.completed, 3, 3, 0, 1, 3, 0⟩ := by
    decide +kernel
  obtain ⟨fin, hrun, hresult⟩ := Option.bind_eq_some_iff.mp hsummary
  have hok : fin.result = .ok ⟨.completed, 3, 3, 0, 1, 3, 0⟩ := by
    cases hfin : fin.result with
    | error err => simp [hfin, Except.toOption] at hresult
    | ok summary => simpa [hfin, Except.toOption] using hresult
  obtain ⟨hlength, groups, hpartition, -, hperm⟩ :=
    (run_completed_accounts_for_every_file hrun hok rfl).2 fun hnothing => by cases hnothing.1
  exact ⟨fin, _, hrun, hok, rfl, rfl, hlength, groups, hpartition, hperm⟩

end LintRelay
