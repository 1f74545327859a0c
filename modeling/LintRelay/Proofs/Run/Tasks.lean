import LintRelay.Proofs.Run.Trace
set_option autoImplicit false

/-!
# The feeding of batches as one loop

Batches are fed in a loop over batches around a loop over files, and either loop may be
left early.  What a run is going to do is known beforehand all the same: it is the list
of tasks that the batches come to.  This file defines that list and shows that feeding
the batches is performing the tasks one after the other until one of them ends the run
(`feedBatches_eq_performAll`).  Every statement about whole runs is then an induction
over one list, and what is said about the list holds of the run as far as it gets.
-/

namespace LintRelay

/-- One thing that a run does. -/
inductive Task where
  /-- Files without a configuration are counted and passed over. -/
  | skip (files : List SourceFile)
  /-- The engine forgets its configuration. -/
  | reset
  /-- A batch is announced in the log. -/
  | announce (label : Option String) (files : List SourceFile)
  /-- One file is analyzed. -/
  | file (configs : List String) (f : SourceFile)

/-- The file that a task has analyzed, if it does. -/
def Task.target? : Task → Option SourceFile
  | .file _ f => some f
  | _ => none

/-- The tasks that batches come to; `first` says that none was analyzed before. -/
def Batch.tasks : Bool → List Batch → List Task
  | _, [] => []
  | first, .skip files :: rest => .skip files :: tasks first rest
  | first, .analyze label configs files :: rest =>
    (if first then [] else [.reset]) ++ .announce label files :: files.map (.file configs) ++
      tasks false rest

/-- The files that tasks analyze are the targets of the batches, in their order. -/
theorem filterMap_target?_tasks (first : Bool) (batches : List Batch) :
    (Batch.tasks first batches).filterMap Task.target? = batches.flatMap Batch.targets := by
  induction batches generalizing first with
  | nil => rfl
  | cons b rest ih =>
    cases b with
    | skip files => simp [Batch.tasks, List.filterMap_cons, Task.target?, Batch.targets, ih]
    | analyze label configs files =>
      have hfiles : (files.map (Task.file configs)).filterMap Task.target? = files := by
        simp [List.filterMap_map, Function.comp_def, Task.target?]
      cases first <;>
        simp [Batch.tasks, List.filterMap_cons, Task.target?, Batch.targets, ih, hfiles]

namespace Live

variable {σ τ : Type}

/-- Performs one task.  The outcome is that of the run when the task ends it. -/
def perform (e : Engine σ) (s : Sink τ) (o : RunOptions) :
    Task → Live σ τ → Option (Except RunError RunState) × Live σ τ
  | .skip files, l => (none, l.skipFiles files)
  | .reset, l =>
    match l.resetBetween e false with
    | (.error err, l) => (some (.error err), l)
    | (.ok (), l) => (none, l)
  | .announce label files, l => (none, l.say .info (batchLine label files))
  | .file configs f, l =>
    match l.feedFiles e s o configs [f] with
    | (.error err, l) => (some (.error err), l)
    | (.ok .interrupted, l) => (some (.ok .cancelled), l)
    | (.ok .done, l) => (none, l)

/-- Performs tasks until one of them ends the run. -/
def performAll (e : Engine σ) (s : Sink τ) (o : RunOptions) :
    List Task → Live σ τ → Except RunError RunState × Live σ τ
  | [], l => (.ok .completed, l)
  | t :: rest, l =>
    match l.perform e s o t with
    | (some outcome, l) => (outcome, l)
    | (none, l) => performAll e s o rest l

theorem performAll_cons_some {e : Engine σ} {s : Sink τ} {o : RunOptions} {t : Task}
    {l l' : Live σ τ} {outcome : Except RunError RunState} (rest : List Task)
    (h : l.perform e s o t = (some outcome, l')) :
    l.performAll e s o (t :: rest) = (outcome, l') := by
  simp [performAll, h]

theorem performAll_cons_none {e : Engine σ} {s : Sink τ} {o : RunOptions} {t : Task}
    {l l' : Live σ τ} (rest : List Task) (h : l.perform e s o t = (none, l')) :
    l.performAll e s o (t :: rest) = l'.performAll e s o rest := by
  simp [performAll, h]

/-! ## The two loops as one -/

/-- Feeding files is feeding the first one and then the others. -/
theorem feedFiles_cons (e : Engine σ) (s : Sink τ) (o : RunOptions) (configs : List String)
    (f : SourceFile) (rest : List SourceFile) (l : Live σ τ) :
    l.feedFiles e s o configs (f :: rest) =
      match l.feedFiles e s o configs [f] with
      | (.ok .done, l) => l.feedFiles e s o configs rest
      | stopped => stopped := by
  simp only [feedFiles]
  split
  · rfl
  · split
    · cases hfile : (l.answered (.probe (e.isAlive l.disk l.engine).value)
          (e.isAlive l.disk l.engine)).analyzeFile e s o configs f with
      | mk result l' =>
        cases result with
        | error err => rfl
        | ok done => rfl
    · rfl

theorem performAll_files (e : Engine σ) (s : Sink τ) (o : RunOptions) (configs : List String)
    (files : List SourceFile) (rest : List Task) (l : Live σ τ) :
    l.performAll e s o (files.map (.file configs) ++ rest) =
      match l.feedFiles e s o configs files with
      | (.error err, l) => (.error err, l)
      | (.ok .interrupted, l) => (.ok .cancelled, l)
      | (.ok .done, l) => l.performAll e s o rest := by
  induction files generalizing l with
  | nil => rfl
  | cons f files ih =>
    rw [feedFiles_cons, List.map_cons, List.cons_append]
    simp only [performAll, perform]
    cases hone : l.feedFiles e s o configs [f] with
    | mk result l' =>
      cases result with
      | error err => rfl
      | ok fed =>
        cases fed with
        | done => exact ih l'
        | interrupted => rfl

/-- Feeding batches is performing the tasks that they come to. -/
theorem feedBatches_eq_performAll (e : Engine σ) (s : Sink τ) (o : RunOptions) (first : Bool)
    (batches : List Batch) (l : Live σ τ) :
    l.feedBatches e s o first batches = l.performAll e s o (Batch.tasks first batches) := by
  induction batches generalizing first l with
  | nil => rfl
  | cons b rest ih =>
    cases b with
    | skip files => exact ih first (l.skipFiles files)
    | analyze label configs files =>
      -- Behind the reset the two agree whatever the batch before was.
      have hfeed : ∀ l : Live σ τ,
          l.performAll e s o
              (.announce label files :: files.map (.file configs) ++ Batch.tasks false rest) =
            match (l.say .info (batchLine label files)).feedFiles e s o configs files with
            | (.error err, l) => (.error err, l)
            | (.ok .interrupted, l) => (.ok .cancelled, l)
            | (.ok .done, l) => l.feedBatches e s o false rest := by
        intro l
        rw [List.cons_append, performAll_cons_none _ rfl, performAll_files]
        simp only [ih]
      cases first with
      | true =>
        simp only [feedBatches, Batch.tasks, resetBetween, if_true, List.nil_append]
        exact (hfeed l).symm
      | false =>
        simp only [feedBatches, Batch.tasks, List.cons_append, List.nil_append, performAll,
          perform, Bool.false_eq_true, if_false]
        cases hreset : l.resetBetween e false with
        | mk result l' =>
          cases result with
          | error err => rfl
          | ok done => exact (hfeed l').symm

end Live

end LintRelay
