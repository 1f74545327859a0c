import LintRelay.Proofs.Run.Conversation
set_option autoImplicit false

/-!
# What the calls of a run obey

A run sets the linter up once and first, loads before it analyzes, looks before every
analysis whether the engine is alive, follows its plan, and after a failure leaves the
engine alone.  Each of these is a property of the conversation: it is shown for the
segment of a task, then for the feeding of tasks by induction, and then for whole runs,
where the loads come in (`run_call_discipline`).
-/

namespace LintRelay

open Live (Planning requestFor)

/-! ## Properties of lists of calls -/

/-- The element at which two lists are divided is in one or in the other. -/
theorem append_eq_split {α : Type} {xs ys before after : List α} {c : α}
    (h : xs ++ ys = before ++ c :: after) :
    (∃ rest, xs = before ++ c :: rest ∧ after = rest ++ ys) ∨
      ∃ start, before = xs ++ start ∧ ys = start ++ c :: after := by
  rcases List.append_eq_append_iff.mp h with ⟨start, hbefore, hys⟩ | ⟨middle, hxs, hmiddle⟩
  · exact .inr ⟨start, hbefore, hys⟩
  · cases middle with
    | nil =>
      rw [List.append_nil] at hxs
      exact .inr ⟨[], by rw [hxs, List.append_nil], hmiddle.symm⟩
    | cons c' rest =>
      obtain ⟨rfl, hafter⟩ := List.cons.inj hmiddle
      exact .inl ⟨rest, hxs, hafter⟩

/-- Every analysis follows right after the engine has said that it is alive. -/
def Guarded (calls : List Call) : Prop :=
  ∀ before request result after, calls = before ++ .analyze request result :: after →
    before.getLast? = some (.probe true)

/-- No call comes after one that failed, and then something else holds. -/
def Contained (calls : List Call) (Fails : Prop) : Prop :=
  ∀ before c after, calls = before ++ c :: after → c.failed = true → after = [] ∧ Fails

theorem guarded_of_no_request {calls : List Call} (h : ∀ c ∈ calls, c.request? = none) :
    Guarded calls := by
  rintro before request result after rfl
  have hnone := h (.analyze request result) (by simp)
  cases hnone

theorem guarded_turn (request : Request) (result : Except EngineError Response) :
    Guarded [.probe true, .analyze request result] := by
  intro before request' result' after h
  cases before with
  | nil => cases h
  | cons first before =>
    obtain ⟨rfl, hrest⟩ := List.cons.inj h
    cases before with
    | nil => rfl
    | cons second before => simp at hrest

theorem Guarded.append {xs ys : List Call} (hxs : Guarded xs) (hys : Guarded ys) :
    Guarded (xs ++ ys) := by
  intro before request result after h
  rcases append_eq_split h with ⟨rest, hleft, -⟩ | ⟨start, rfl, hright⟩
  · exact hxs before request result rest hleft
  · have hlast := hys start request result after hright
    rw [List.getLast?_append, hlast]
    rfl

theorem contained_of_unfailed {calls : List Call} {Fails : Prop}
    (h : ∀ c ∈ calls, c.failed = false) : Contained calls Fails := by
  rintro before c after rfl hfailed
  have hunfailed := h c (by simp)
  rw [hunfailed] at hfailed
  cases hfailed

theorem contained_singleton {Fails : Prop} (c : Call) (hfails : Fails) :
    Contained [c] Fails := by
  intro before c' after h _
  cases before with
  | nil =>
    obtain ⟨-, hafter⟩ := List.cons.inj h
    exact ⟨hafter.symm, hfails⟩
  | cons _ before => cases before <;> cases h

/-- In front of a list may stand calls that did not fail. -/
theorem Contained.append {xs ys : List Call} {Fails : Prop}
    (hxs : ∀ c ∈ xs, c.failed = false) (hys : Contained ys Fails) :
    Contained (xs ++ ys) Fails := by
  intro before c after h hfailed
  rcases append_eq_split h with ⟨rest, hleft, -⟩ | ⟨start, -, hright⟩
  · have hunfailed := hxs c (by simp [hleft])
    rw [hunfailed] at hfailed
    cases hfailed
  · exact hys start c after hright hfailed

/-! ## Which file is meant -/

/-- The file that a request is about. -/
def Request.subject (q : Request) : Path × FileKind := (q.filePath, q.fileKind)

/-- A file as requests are about it. -/
def SourceFile.subject (f : SourceFile) : Path × FileKind := (f.path, f.kind)

/-- The files that calls have had analyzed. -/
def subjectsOf (calls : List Call) : List (Path × FileKind) :=
  (calls.filterMap Call.request?).map Request.subject

@[simp] theorem subjectsOf_append (xs ys : List Call) :
    subjectsOf (xs ++ ys) = subjectsOf xs ++ subjectsOf ys := by
  simp [subjectsOf]

theorem subjectsOf_eq_nil {calls : List Call} (h : ∀ c ∈ calls, c.request? = none) :
    subjectsOf calls = [] := by
  rw [subjectsOf, List.filterMap_eq_nil_iff.mpr h]
  rfl

theorem filterMap_target?_cons (t : Task) (rest : List Task) :
    (t :: rest).filterMap Task.target? = t.target?.toList ++ rest.filterMap Task.target? := by
  cases htarget : t.target? with
  | none => simp [htarget]
  | some f => simp [htarget]

/-! ## Segments -/

namespace Segment

variable {o : RunOptions} {t : Task} {made : List Call}

theorem kinds {outcome : Option (Except RunError RunState)} (h : Segment o t outcome made) :
    ∀ c ∈ made, c.isSetUp = false ∧ c.isLoad = false := by
  cases h <;> simp [Call.isSetUp, Call.isLoad]

theorem guarded {outcome : Option (Except RunError RunState)} (h : Segment o t outcome made) :
    Guarded made := by
  cases h with
  | refused configs f content err => exact guarded_turn _ _
  | answered configs f content r => exact guarded_turn _ _
  | _ => exact guarded_of_no_request (by simp [Call.request?])

theorem unfailed (h : Segment o t none made) : ∀ c ∈ made, c.failed = false := by
  cases h <;> simp [Call.failed, Except.isOk, Except.toBool]

/-- A task that ends the run ends it with an error, if a call has failed. -/
theorem contained {outcome : Except RunError RunState} (h : Segment o t (some outcome) made) :
    Contained made (∃ err, outcome = .error err) := by
  have halive : ∀ c ∈ [Call.probe true], c.failed = false := by simp [Call.failed]
  cases h with
  | resetFailed err => exact contained_singleton _ ⟨_, rfl⟩
  | interrupted configs f => exact contained_of_unfailed (by simp)
  | dead configs f => exact contained_singleton _ ⟨_, rfl⟩
  | unread configs f err => exact contained_of_unfailed halive
  | refused configs f content err =>
    exact Contained.append halive (contained_singleton _ ⟨_, rfl⟩)

theorem subjects (h : Segment o t none made) :
    subjectsOf made = t.target?.toList.map SourceFile.subject := by
  cases h <;> rfl

/-- A task that ends the run may have had its file analyzed. -/
theorem subjects_follow {outcome : Except RunError RunState}
    (h : Segment o t (some outcome) made) :
    subjectsOf made <+: t.target?.toList.map SourceFile.subject := by
  cases h with
  | refused configs f content err => exact List.prefix_refl _
  | _ => exact List.nil_prefix

end Segment

/-! ## Feeding -/

namespace Feed

variable {o : RunOptions} {tasks : List Task} {outcome : Except RunError RunState}
  {calls : List Call}

theorem kinds (h : Feed o tasks outcome calls) :
    ∀ c ∈ calls, c.isSetUp = false ∧ c.isLoad = false := by
  induction h with
  | done => simp
  | stop rest segment => exact segment.kinds
  | next segment _ ih =>
    intro c hc
    rcases List.mem_append.mp hc with hmade | hrest
    · exact segment.kinds c hmade
    · exact ih c hrest

/-- All configurations are loaded before the feeding. -/
theorem filterMap_config? (h : Feed o tasks outcome calls) (loads : List Call) :
    (Call.setUp o.setup (.ok ()) :: (loads ++ calls)).filterMap Call.config? =
      loads.filterMap Call.config? := by
  have hnone : calls.filterMap Call.config? = [] :=
    List.filterMap_eq_nil_iff.mpr fun c hc => Call.config?_of_not_load (h.kinds c hc).2
  rw [List.filterMap_cons_none rfl, List.filterMap_append, hnone, List.append_nil]

theorem guarded (h : Feed o tasks outcome calls) : Guarded calls := by
  induction h with
  | done => exact guarded_of_no_request (by simp)
  | stop rest segment => exact segment.guarded
  | next segment _ ih => exact segment.guarded.append ih

theorem contained (h : Feed o tasks outcome calls) :
    Contained calls (∃ err, outcome = .error err) := by
  induction h with
  | done => exact contained_of_unfailed (by simp)
  | stop rest segment => exact segment.contained
  | next segment _ ih => exact Contained.append segment.unfailed ih

/-- Files are analyzed in the order of the tasks, and none is passed over. -/
theorem subjects_follow (h : Feed o tasks outcome calls) :
    subjectsOf calls <+: (tasks.filterMap Task.target?).map SourceFile.subject := by
  induction h with
  | done => exact List.nil_prefix
  | stop rest segment =>
    rw [filterMap_target?_cons, List.map_append]
    exact segment.subjects_follow.trans (List.prefix_append _ _)
  | next segment _ ih =>
    rw [filterMap_target?_cons, List.map_append, subjectsOf_append, segment.subjects]
    exact (List.prefix_append_right_inj _).mpr ih

end Feed

/-! ## Plans -/

/-- The files that a run analyzes if nothing stops it: all of them, or those of the
groups with a configuration, group by group, when the configurations are the given ones. -/
def plannedFiles (mode : RunMode) (configs : List ConfigFile) (files : List SourceFile) :
    List SourceFile :=
  match mode with
  | .plain _ => files
  | .configured _ =>
    match partition configs files with
    | .error _ => []
    | .ok groups => (groups.filter fun g => g.config.isSome).flatMap ConfigGroup.files

theorem targets_ofGroup (groups : List ConfigGroup) :
    (groups.map Batch.ofGroup).flatMap Batch.targets =
      (groups.filter fun g => g.config.isSome).flatMap ConfigGroup.files := by
  induction groups with
  | nil => rfl
  | cons g rest ih =>
    cases hconfig : g.config with
    | none => simp [Batch.ofGroup, Batch.targets, hconfig, ih]
    | some c => simp [Batch.ofGroup, Batch.targets, hconfig, ih]

theorem filterMap_config?_of_map {calls : List Call} {configs : List ConfigFile}
    (h : calls.map Call.config? = configs.map some) : calls.filterMap Call.config? = configs := by
  have hmap : calls.filterMap Call.config? = (calls.map Call.config?).filterMap id := by
    rw [List.filterMap_map]
    rfl
  rw [hmap, h, List.filterMap_map]
  exact List.filterMap_some

namespace Live.Planning

variable {files : List SourceFile} {mode : RunMode} {loads : List Call}

/-- Of the loads only the last can have failed, and then there is no plan. -/
theorem contained {result : Option (Except RunError Plan)}
    (h : Planning files mode result loads) :
    Contained loads (∃ err, result = some (.error err)) := by
  rcases h.loads_cases with hloads | ⟨before, p, err, rfl, hbefore, hresult⟩
  · exact contained_of_unfailed fun c hc => (hloads c hc).2
  · exact Contained.append (fun c hc => (hbefore c hc).2) (contained_singleton _ ⟨_, hresult⟩)

theorem unfailed {plan : Plan} (h : Planning files mode (some (.ok plan)) loads) :
    ∀ c ∈ loads, c.failed = false := by
  intro c hc
  rcases h.loads_cases with hloads | ⟨_, _, _, -, -, hresult⟩
  · exact (hloads c hc).2
  · cases hresult

/-- The targets of the batches are the files planned with the configurations loaded. -/
theorem targets {batches : List Batch}
    (h : Planning files mode (some (.ok (.batches batches))) loads) :
    batches.flatMap Batch.targets = plannedFiles mode (loads.filterMap Call.config?) files := by
  cases h with
  | plain given configs hgiven => simp [Batch.targets, plannedFiles]
  | groups seeds loads configs groups hloads hpartition =>
    rw [filterMap_config?_of_map hloads]
    simp only [plannedFiles, hpartition]
    exact targets_ofGroup groups

end Live.Planning

/-! ## Conversations -/

namespace Conversation

variable {o : RunOptions} {mode : RunMode} {files : List SourceFile}
  {outcome : Option (Except RunError RunState)} {calls : List Call}

/-- A conversation has three parts. -/
theorem parts (h : Conversation o mode files outcome calls) :
    ∃ result loads fed, calls = .setUp o.setup result :: (loads ++ fed) ∧
      (∀ c ∈ loads, c.isLoad = true) ∧
      ∀ c ∈ fed, c.isSetUp = false ∧ c.isLoad = false := by
  cases h with
  | setUpFailed err => exact ⟨_, [], [], rfl, by simp, by simp⟩
  | endless loads planning =>
    exact ⟨_, loads, [], by rw [List.append_nil], planning.kinds, by simp⟩
  | planFailed err loads planning =>
    exact ⟨_, loads, [], by rw [List.append_nil], planning.kinds, by simp⟩
  | nothing loads planning =>
    exact ⟨_, loads, [], by rw [List.append_nil], planning.kinds, by simp⟩
  | fed batches loads made outcome planning feed =>
    exact ⟨_, loads, made, rfl, planning.kinds, feed.kinds⟩

theorem guarded (h : Conversation o mode files outcome calls) : Guarded calls := by
  have hsetUp : ∀ result, Guarded [.setUp o.setup result] := fun result =>
    guarded_of_no_request (by simp [Call.request?])
  have hloads : ∀ {result : Option (Except RunError Live.Plan)} {loads : List Call},
      Planning files mode result loads → Guarded loads := fun planning =>
    guarded_of_no_request fun c hc => Call.request?_of_load (planning.kinds c hc)
  cases h with
  | setUpFailed err => exact hsetUp _
  | endless loads planning => exact (hsetUp _).append (hloads planning)
  | planFailed err loads planning => exact (hsetUp _).append (hloads planning)
  | nothing loads planning => exact (hsetUp _).append (hloads planning)
  | fed batches loads made outcome planning feed =>
    exact (hsetUp _).append ((hloads planning).append feed.guarded)

theorem contained (h : Conversation o mode files outcome calls) :
    Contained calls (∃ err, outcome = some (.error err)) := by
  have hsetUp : ∀ c ∈ [Call.setUp o.setup (.ok ())], c.failed = false := by
    simp [Call.failed, Except.isOk, Except.toBool]
  cases h with
  | setUpFailed err => exact contained_singleton _ ⟨_, rfl⟩
  | endless loads planning =>
    refine Contained.append hsetUp ?_
    intro before c after hsplit hfailed
    obtain ⟨-, err, hnone⟩ := planning.contained before c after hsplit hfailed
    cases hnone
  | planFailed err loads planning =>
    refine Contained.append hsetUp ?_
    intro before c after hsplit hfailed
    exact ⟨(planning.contained before c after hsplit hfailed).1, err, rfl⟩
  | nothing loads planning =>
    exact Contained.append hsetUp (contained_of_unfailed planning.unfailed)
  | fed batches loads made outcome planning feed =>
    refine Contained.append hsetUp (Contained.append planning.unfailed ?_)
    intro before c after hsplit hfailed
    obtain ⟨hlast, err, herr⟩ := feed.contained before c after hsplit hfailed
    exact ⟨hlast, err, congrArg some herr⟩

/-- The files analyzed are those planned, as far as the run gets. -/
theorem subjects_follow (h : Conversation o mode files outcome calls) :
    subjectsOf calls <+:
      (plannedFiles mode (calls.filterMap Call.config?) files).map SourceFile.subject := by
  have hsetUp : ∀ result, subjectsOf [.setUp o.setup result] = [] := fun _ => rfl
  have hloads : ∀ {result : Option (Except RunError Live.Plan)} {loads : List Call},
      Planning files mode result loads →
        subjectsOf (.setUp o.setup (.ok ()) :: loads) = [] := by
    intro result loads planning
    have hnone : subjectsOf loads = [] :=
      subjectsOf_eq_nil fun c hc => Call.request?_of_load (planning.kinds c hc)
    exact hnone
  cases h with
  | setUpFailed err =>
    rw [hsetUp]
    exact List.nil_prefix
  | endless loads planning =>
    rw [hloads planning]
    exact List.nil_prefix
  | planFailed err loads planning =>
    rw [hloads planning]
    exact List.nil_prefix
  | nothing loads planning =>
    rw [hloads planning]
    exact List.nil_prefix
  | fed batches loads made outcome planning feed =>
    rw [feed.filterMap_config?, ← planning.targets, ← filterMap_target?_tasks true batches,
      ← List.cons_append, subjectsOf_append, hloads planning, List.nil_append]
    exact feed.subjects_follow

end Conversation

/-! ## Runs -/

/-- A run whose phases end with an error returns that error, and has failed. -/
theorem Session.run_failed {σ τ : Type} {e : Engine σ} {s : Sink τ} {around : Surroundings}
    {o : RunOptions} {mode : RunMode} {files : List SourceFile} {n : Session σ τ}
    {err : RunError} (hfirst : n.state = .notStarted)
    (herror : ((n.begin_ around o).execute e s around o mode files).1 = some (.error err)) :
    ∃ fin, n.run e s around o mode files = some fin ∧ fin.result = .error err ∧
      fin.session.state = .failed := by
  rcases hexecute : (n.begin_ around o).execute e s around o mode files with ⟨outcome, l⟩
  rw [hexecute] at herror
  obtain rfl : outcome = some (.error err) := herror
  have hclosed := l.finish_closed around (.error err)
  refine ⟨_, (Session.run_eq_some_iff hfirst).mpr ⟨_, l, hexecute, rfl⟩, rfl, ?_⟩
  show (l.finish around (.error err)).summary.state = .failed
  rw [hclosed.summary]
  rfl

/-- The calls of the first run of a session, whatever the engine answers:

* they are what the trace of the run shows, and a history of the engine;
* first the linter is set up, then come the loads, and then everything else;
* the call right before an analysis is one to which the engine answered that it lives;
* after a call that failed there is no other, and the run returns an error and has
  failed;
* the files that are analyzed are those planned from the start on. -/
theorem run_call_discipline {σ τ : Type} (e : Engine σ) (s : Sink τ) (around : Surroundings)
    (o : RunOptions) (mode : RunMode) (files : List SourceFile) {n : Session σ τ}
    (hfirst : n.state = .notStarted) {calls : List Call}
    (hcalls : n.callsMade e s around o mode files = calls) :
    (∃ final, e.History n.engine calls final ∧
      ∀ fin, n.run e s around o mode files = some fin →
        fin.calls = calls ∧ fin.session.engine = final) ∧
    (∃ result loads fed, calls = .setUp o.setup result :: (loads ++ fed) ∧
      (∀ c ∈ loads, c.isLoad = true) ∧ ∀ c ∈ fed, c.isSetUp = false ∧ c.isLoad = false) ∧
    (∀ before request result after, calls = before ++ .analyze request result :: after →
      before.getLast? = some (.probe true)) ∧
    (∀ before c after, calls = before ++ c :: after → c.failed = true →
      after = [] ∧ ∃ fin err, n.run e s around o mode files = some fin ∧
        fin.result = .error err ∧ fin.session.state = .failed) ∧
    subjectsOf calls <+:
      (plannedFiles mode (calls.filterMap Call.config?) files).map SourceFile.subject := by
  obtain ⟨hconversation, hhistory⟩ := Session.execute_conversation e s around o mode files n
  rw [hcalls] at hconversation hhistory
  refine ⟨⟨_, hhistory, ?_⟩, hconversation.parts, hconversation.guarded, ?_,
    hconversation.subjects_follow⟩
  · intro fin hrun
    rw [← hcalls]
    exact Session.calls_of_run hfirst hrun
  · intro before c after hsplit hfailed
    obtain ⟨hlast, err, herror⟩ := hconversation.contained before c after hsplit hfailed
    obtain ⟨fin, hrun, hresult, hstate⟩ := Session.run_failed hfirst herror
    exact ⟨hlast, fin, err, hrun, hresult, hstate⟩

/-- An engine that can load everything and breaks down over one file. -/
def breakingEngine : Engine Unit :=
  .ofTables (fun p => .ok ⟨p, [], [], [], none, []⟩) fun request =>
    if request.filePath = ⟨"/p/y.ts"⟩ then .error .timeout else .ok .empty

/-- Files for two groups, and one that belongs to none. -/
def breakingFiles : List SourceFile :=
  [.main ⟨"/p/y.ts"⟩, .main ⟨"/q/w.ts"⟩, .main ⟨"/p/a/x.ts"⟩, .main ⟨"/p/z.ts"⟩]

/-- The run breaks off at the second group, whose last file is never asked for. -/
theorem run_breakingEngine_contained :
    ∃ calls,
      (Session.new () 0 default).callsMade breakingEngine .counting
        { (default : Surroundings) with loads := 2 } default
        (.configured [⟨"/p/a/t.json"⟩, ⟨"/p/t.json"⟩]) breakingFiles = calls ∧
      subjectsOf calls = [(⟨"/p/a/x.ts"⟩, .main), (⟨"/p/y.ts"⟩, .main)] ∧
      subjectsOf calls <+:
        (plannedFiles (.configured [⟨"/p/a/t.json"⟩, ⟨"/p/t.json"⟩])
          (calls.filterMap Call.config?) breakingFiles).map SourceFile.subject ∧
      ∃ fin err,
        (Session.new () 0 default).run breakingEngine .counting
          { (default : Surroundings) with loads := 2 } default
          (.configured [⟨"/p/a/t.json"⟩, ⟨"/p/t.json"⟩]) breakingFiles = some fin ∧
        fin.result = .error err ∧ fin.session.state = .failed := by
  refine ⟨_, rfl, by decide +kernel, ?_⟩
  obtain ⟨-, -, -, hcontained, hplanned⟩ := run_call_discipline breakingEngine .counting
    { (default : Surroundings) with loads := 2 } default
    (.configured [⟨"/p/a/t.json"⟩, ⟨"/p/t.json"⟩]) breakingFiles
    (n := Session.new () 0 default) rfl rfl
  refine ⟨hplanned, ?_⟩
  have hfails : ((Session.new () 0 default).callsMade breakingEngine .counting
      { (default : Surroundings) with loads := 2 } default
      (.configured [⟨"/p/a/t.json"⟩, ⟨"/p/t.json"⟩]) breakingFiles).any Call.failed = true := by
    decide +kernel
  obtain ⟨c, hmem, hfailed⟩ := List.any_eq_true.mp hfails
  obtain ⟨before, after, hsplit⟩ := List.append_of_mem hmem
  exact (hcontained before c after hsplit hfailed).2

end LintRelay
