import LintRelay.Proofs.Progress
import LintRelay.Proofs.Project.Partition
import LintRelay.Proofs.Run.Discipline
set_option autoImplicit false

/-!
# What the ticker can report

The targets of the reporter are listed before the first file is fed, and the count is
taken file by file in the loops that feed them.  The ticker puts the two together: it
names the target at the position of the count, at any instant of its own choosing.

An instant lies between two moments of a run.  The count is the one of the moment before
or of the moment after it, or it goes from one to the other in between.  `Told` keeps,
along the moments of a run, that every count that could be read is right of the calls and
deliveries made so far (`UnderWay`): that many files of the plan have been processed, and
the next one has not been asked for or is the one that the last call asks for.  Steps keep
it (`Step.ready`, `Step.tells`), so it holds until the reporter is closed
(`reports_name_the_file_under_way`).
-/

namespace LintRelay

/-! ## Reports at an instant -/

/-- The reporter of a run at its start. -/
def RunOptions.reporter (o : RunOptions) (plan : List SourceFile) : Progress :=
  ⟨o.language.component, plan.map SourceFile.display, 0, true, o.progressInterval ≠ 0⟩

namespace RunOptions

variable {o : RunOptions} {plan : List SourceFile} {n : Nat}

theorem report_of_target {f : SourceFile} (hfile : plan[n]? = some f) :
    ((o.reporter plan).showing n).report =
      Progress.line .info (o.language.component ++ ": " ++ Decimal.natText n ++ "/" ++
        Decimal.natText plan.length ++ " files analyzed, current file: " ++ f.display) := by
  -- The text is put together in two pieces.
  have hpieces : " files analyzed, current file: " = " files analyzed" ++ ", current file: " := rfl
  have htarget : (plan.map SourceFile.display)[n]? = some f.display := by simp [hfile]
  simp only [Progress.report, Progress.share, Progress.showing, reporter, htarget,
    List.length_map, hpieces, String.append_assoc]

theorem report_of_all (hall : n = plan.length) :
    ((o.reporter plan).showing n).report =
      Progress.line .info (o.language.component ++ ": " ++ Decimal.natText n ++ "/" ++
        Decimal.natText plan.length ++ " files analyzed") := by
  simp [Progress.report, Progress.share, Progress.showing, reporter, hall, String.append_assoc]

end RunOptions

/-! ## Files that have been processed -/

/-- The requests that were answered, with the responses, in their order. -/
def answersOf (calls : List Call) : List (Request × Response) := calls.filterMap Call.answer?

/-- What the sink is handed of the response to a file: all, unless it reports an error. -/
def handedOn (path : Path) (r : Response) : Option (Path × Response) :=
  if r.error.isNone then some (path, r) else none

/-- The first files of a plan, so many, have been processed: they have been asked for and
answered in the order of the plan, and the answers have been handed on.  No other file has
been asked for. -/
structure Settled (plan : List SourceFile) (calls : List Call)
    (deliveries : List (Path × Response)) (n : Nat) : Prop where
  planned : n ≤ plan.length
  asked : subjectsOf calls = (plan.take n).map SourceFile.subject
  answered : (answersOf calls).map (fun a => a.1.subject) = (plan.take n).map SourceFile.subject
  delivered : deliveries = (answersOf calls).filterMap fun a => handedOn a.1.filePath a.2

/-- The last call asks for the file of the plan at the given position, and before it the
files in front of that position have been processed. -/
def InFlight (plan : List SourceFile) (calls : List Call) (deliveries : List (Path × Response))
    (n : Nat) : Prop :=
  ∃ f request result earlier delivered, plan[n]? = some f ∧ request.subject = f.subject ∧
    calls = earlier ++ [.analyze request result] ∧ Settled plan earlier delivered n ∧
    delivered <+: deliveries

/-- So many files have been processed, and one more is in flight or none is. -/
def UnderWay (plan : List SourceFile) (calls : List Call) (deliveries : List (Path × Response))
    (n : Nat) : Prop :=
  Settled plan calls deliveries n ∨ InFlight plan calls deliveries n

@[simp] theorem answersOf_append (xs ys : List Call) :
    answersOf (xs ++ ys) = answersOf xs ++ answersOf ys :=
  List.filterMap_append

theorem answersOf_eq_nil {calls : List Call} (h : ∀ c ∈ calls, c.request? = none) :
    answersOf calls = [] :=
  List.filterMap_eq_nil_iff.mpr fun c hc => Call.answer?_of_no_request (h c hc)

theorem map_take_succ {plan : List SourceFile} {n : Nat} {f : SourceFile}
    (hfile : plan[n]? = some f) :
    (plan.take (n + 1)).map SourceFile.subject =
      (plan.take n).map SourceFile.subject ++ [f.subject] := by
  rw [List.take_add_one, hfile, List.map_append]
  rfl

theorem lt_length_of_getElem? {plan : List SourceFile} {n : Nat} {f : SourceFile}
    (hfile : plan[n]? = some f) : n < plan.length :=
  (List.getElem?_eq_some_iff.mp hfile).1

namespace Settled

variable {plan : List SourceFile} {calls : List Call} {deliveries : List (Path × Response)}
  {n : Nat}

theorem of_no_request (plan : List SourceFile) (h : ∀ c ∈ calls, c.request? = none) :
    Settled plan calls [] 0 where
  planned := Nat.zero_le _
  asked := subjectsOf_eq_nil h
  answered := by rw [answersOf_eq_nil h]; rfl
  delivered := by rw [answersOf_eq_nil h]; rfl

/-- A call that asks for no file changes nothing. -/
theorem call (h : Settled plan calls deliveries n) {c : Call} (hc : c.request? = none) :
    Settled plan (calls ++ [c]) deliveries n := by
  have hone : ∀ c' ∈ [c], c'.request? = none := by
    intro c' hc'
    rw [List.mem_singleton.mp hc']
    exact hc
  have hanswers : answersOf (calls ++ [c]) = answersOf calls := by
    rw [answersOf_append, answersOf_eq_nil hone, List.append_nil]
  exact
    { planned := h.planned
      asked := by rw [subjectsOf_append, subjectsOf_eq_nil hone, List.append_nil, h.asked]
      answered := by rw [hanswers, h.answered]
      delivered := by rw [hanswers, h.delivered] }

/-- The next file of the plan is asked for. -/
theorem request (h : Settled plan calls deliveries n) {f : SourceFile} {q : Request}
    (hfile : plan[n]? = some f) (hsubject : q.subject = f.subject)
    (result : Except EngineError Response) :
    InFlight plan (calls ++ [.analyze q result]) deliveries n :=
  ⟨f, q, result, calls, deliveries, hfile, hsubject, rfl, h, List.prefix_refl _⟩

/-- The next file of the plan has been answered, and the answer handed on. -/
theorem answer (h : Settled plan calls deliveries n) {f : SourceFile} {q : Request}
    (hfile : plan[n]? = some f) (hsubject : q.subject = f.subject) (r : Response) :
    Settled plan (calls ++ [.analyze q (.ok r)])
      (deliveries ++ (handedOn f.path r).toList) (n + 1) := by
  have hanswers : answersOf (calls ++ [.analyze q (.ok r)]) = answersOf calls ++ [(q, r)] := by
    rw [answersOf_append]
    rfl
  have hasked : subjectsOf [.analyze q (.ok r)] = [f.subject] := by
    rw [← hsubject]
    rfl
  have hpath : q.filePath = f.path := congrArg Prod.fst hsubject
  exact
    { planned := lt_length_of_getElem? hfile
      asked := by rw [subjectsOf_append, hasked, h.asked, map_take_succ hfile]
      answered := by
        rw [hanswers, List.map_append, h.answered, map_take_succ hfile, ← hsubject]
        rfl
      delivered := by
        rw [hanswers, List.filterMap_append, ← h.delivered, ← hpath]
        cases hhanded : handedOn q.filePath r <;> simp [hhanded] }

end Settled

theorem InFlight.deliver {plan : List SourceFile} {calls : List Call}
    {deliveries : List (Path × Response)} {n : Nat} (h : InFlight plan calls deliveries n)
    (more : List (Path × Response)) : InFlight plan calls (deliveries ++ more) n := by
  obtain ⟨f, request, result, earlier, delivered, hfile, hsubject, hcalls, hsettled, hbefore⟩ := h
  exact ⟨f, request, result, earlier, delivered, hfile, hsubject, hcalls, hsettled,
    hbefore.trans (List.prefix_append _ _)⟩

theorem UnderWay.planned {plan : List SourceFile} {calls : List Call}
    {deliveries : List (Path × Response)} {n : Nat} (h : UnderWay plan calls deliveries n) :
    n ≤ plan.length := by
  rcases h with hsettled | ⟨_, _, _, _, _, _, _, _, hsettled, _⟩
  · exact hsettled.planned
  · exact hsettled.planned

/-! ## Moments and the counts between them -/

/-- The count that can be read after moments is right of what has happened in them. -/
abbrev RightAfter (plan : List SourceFile) (moments : List Moment) (n : Nat) : Prop :=
  UnderWay plan (callsAt moments) (deliveriesAt moments) n

/-- The moments of a run whose reporter has come to a count: whenever something happened
or was counted, the count was right. -/
inductive Told (plan : List SourceFile) (p : Progress) : List Moment → Nat → Prop
  | started (before : List Moment) (hbefore : ∀ m ∈ before, m.progress = none)
      (hright : RightAfter plan before 0) : Told plan p before 0
  | happens {moments : List Moment} {n : Nat} (e : Event) (h : Told plan p moments n)
      (hright : RightAfter plan (moments ++ [⟨e, some (p.showing n)⟩]) n) :
      Told plan p (moments ++ [⟨e, some (p.showing n)⟩]) n
  | counts {moments : List Moment} {n : Nat} (h : Told plan p moments n)
      (hright : RightAfter plan moments (n + 1)) : Told plan p moments (n + 1)

/-- What the next moment shows; behind the last one, what is shown now. -/
def nextShown (now : Option Progress) : List Moment → Option Progress
  | [] => now
  | m :: _ => m.progress

theorem nextShown_append (now shown : Option Progress) (rest : List Moment) (e : Event)
    (more : List Moment) :
    nextShown now (rest ++ ⟨e, shown⟩ :: more) = nextShown shown rest := by
  cases rest <;> rfl

namespace Told

variable {plan : List SourceFile} {p : Progress} {moments : List Moment} {n : Nat}

theorem right (h : Told plan p moments n) : RightAfter plan moments n := by
  cases h with
  | started before hbefore hright => exact hright
  | happens e h hright => exact hright
  | counts h hright => exact hright

/-- Between a moment and the next one, every count from the one to the other is right. -/
theorem between (h : Told plan p moments n) {before rest : List Moment} {m : Moment}
    {shown : Progress} (hsplit : moments = before ++ m :: rest)
    (hshown : m.progress = some shown) :
    ∃ j k, shown = p.showing j ∧ nextShown (some (p.showing n)) rest = some (p.showing k) ∧
      j ≤ k ∧ ∀ i, j ≤ i → i ≤ k → RightAfter plan (before ++ [m]) i := by
  induction h generalizing before rest with
  | started start hstart hright =>
    have hnone := hstart m (by simp [hsplit])
    rw [hnone] at hshown
    cases hshown
  | @happens moments n e h hright ih =>
    rcases append_eq_split hsplit with ⟨rest', hinside, rfl⟩ | ⟨start, rfl, hlast⟩
    · obtain ⟨j, k, hj, hk, hjk, hrange⟩ := ih hinside
      refine ⟨j, k, hj, ?_, hjk, hrange⟩
      rw [nextShown_append, hk]
    · -- The moment is the one that has just come.
      obtain ⟨rfl, hmoment⟩ : start = [] ∧ [⟨e, some (p.showing n)⟩] = m :: rest := by
        cases start with
        | nil => exact ⟨rfl, hlast⟩
        | cons _ start => cases start <;> cases hlast
      obtain ⟨rfl, rfl⟩ := List.cons.inj hmoment
      obtain rfl := Option.some.inj hshown
      refine ⟨n, n, rfl, rfl, Nat.le_refl n, ?_⟩
      intro i hle hge
      obtain rfl := Nat.le_antisymm hge hle
      rwa [List.append_nil]
  | @counts moments n h hright ih =>
    obtain ⟨j, k, hj, hk, hjk, hrange⟩ := ih hsplit
    cases rest with
    | cons m' after => exact ⟨j, k, hj, hk, hjk, hrange⟩
    | nil =>
      have hkn : n = k := congrArg Progress.processed (Option.some.inj hk)
      subst hkn
      refine ⟨j, n + 1, hj, rfl, Nat.le_succ_of_le hjk, ?_⟩
      intro i hle hge
      rcases Nat.lt_or_eq_of_le hge with hlt | rfl
      · exact hrange i hle (Nat.lt_succ_iff.mp hlt)
      · rwa [hsplit] at hright

end Told

namespace Live

variable {σ τ : Type} {plan : List SourceFile} {p : Progress} {n : Nat}

/-- A run whose reporter has come to a count, and all counts were right. -/
structure Tells (plan : List SourceFile) (p : Progress) (n : Nat) (l : Live σ τ) : Prop where
  progress : l.progress = some (p.showing n)
  told : Told plan p l.moments n

/-- A run between two tasks: no file is in flight. -/
structure Ready (plan : List SourceFile) (p : Progress) (n : Nat) (l : Live σ τ) : Prop
    extends Tells plan p n l where
  settled : Settled plan l.calls l.deliveries n

/-! ## Emissions -/

theorem emitAll_cons (l : Live σ τ) (e : Event) (es : List Event) :
    l.emitAll (e :: es) = (l.emitAll [e]).emitAll es := by
  simp [emitAll]

theorem Tells.emit {l : Live σ τ} (h : Tells plan p n l) (e : Event)
    (hright : UnderWay plan (l.calls ++ callsOf [e]) (l.deliveries ++ deliveriesOf [e]) n) :
    Tells plan p n (l.emitAll [e]) where
  progress := h.progress
  told := by
    have hmoments : (l.emitAll [e]).moments = l.moments ++ [⟨e, some (p.showing n)⟩] := by
      rw [emitAll, h.progress]
      rfl
    have hcalls := callsAt_emitAll l [e]
    have hdeliveries := deliveriesAt_emitAll l [e]
    rw [hmoments] at hcalls hdeliveries ⊢
    refine .happens e h.told ?_
    rw [RightAfter, hcalls, hdeliveries]
    exact hright

theorem Tells.logs {l : Live σ τ} (h : Tells plan p n l) (lines : List Log.Line) :
    Tells plan p n (l.emitAll (lines.map .log)) := by
  induction lines generalizing l with
  | nil =>
    have hnothing : l.emitAll [] = l := by simp [emitAll]
    rwa [List.map_nil, hnothing]
  | cons line rest ih =>
    rw [List.map_cons, emitAll_cons]
    have hright : UnderWay plan l.calls l.deliveries n := h.told.right
    exact ih (h.emit (.log line) (by simpa using hright))

theorem Ready.logs {l : Live σ τ} (h : Ready plan p n l) (lines : List Log.Line) :
    Ready plan p n (l.emitAll (lines.map .log)) where
  toTells := h.toTells.logs lines
  settled := by simpa [calls, deliveries] using h.settled

theorem Tells.answered {α : Type} {l : Live σ τ} (h : Tells plan p n l) {call : Call}
    (hright : UnderWay plan (l.calls ++ [call]) l.deliveries n) (a : Answer σ α) :
    Tells plan p n (l.answered call a) := by
  have hasked : Tells plan p n
      { l with engine := a.state, cancelled := l.cancelled || a.interrupted } :=
    ⟨h.progress, h.told⟩
  rw [answered_eq_emitAll, emitAll_cons]
  refine (hasked.emit (.call call) ?_).logs a.log
  rw [deliveriesOf_call, deliveriesOf_nil, List.append_nil]
  exact hright

/-- A call that asks for no file leaves the run ready. -/
theorem Ready.answered {α : Type} {l : Live σ τ} (h : Ready plan p n l) {call : Call}
    (hcall : call.request? = none) (a : Answer σ α) : Ready plan p n (l.answered call a) where
  toTells := h.toTells.answered (.inl (h.settled.call hcall)) a
  settled := by simpa [calls, deliveries] using h.settled.call hcall

/-! ## The parts of a turn -/

theorem Ready.probed {l : Live σ τ} (h : Ready plan p n l) (e : Engine σ) :
    Ready plan p n (l.probed e) :=
  h.answered rfl _

theorem Ready.resetDone {l : Live σ τ} (h : Ready plan p n l) (e : Engine σ) :
    Ready plan p n (l.resetDone e) :=
  h.answered rfl _

theorem asked_calls (e : Engine σ) (request : Request) (f : SourceFile) (l : Live σ τ) :
    (l.asked e request f).calls =
      l.calls ++ [.analyze request (e.analyze l.disk request l.engine).value] := by
  simp [asked, calls]

theorem asked_deliveries (e : Engine σ) (request : Request) (f : SourceFile) (l : Live σ τ) :
    (l.asked e request f).deliveries = l.deliveries := by
  simp [asked, deliveries]

/-- The next file of the plan is asked for. -/
theorem Ready.asked {l : Live σ τ} (h : Ready plan p n l) {f : SourceFile} {request : Request}
    (hfile : plan[n]? = some f) (hsubject : request.subject = f.subject) (e : Engine σ) :
    Tells plan p n (l.asked e request f) :=
  have hopened : Tells plan p n { l with recorder := l.recorder.opened f.display } :=
    ⟨h.progress, h.told⟩
  hopened.answered (.inr (h.settled.request hfile hsubject _)) _

theorem deliver_calls (s : Sink τ) (f : SourceFile) (r : Response) (l : Live σ τ) :
    (l.deliver s f r).calls = l.calls := by
  unfold deliver
  cases r.error with
  | some error => simp [calls]
  | none => cases r.parsingError <;> simp [calls]

theorem deliver_deliveries (s : Sink τ) (f : SourceFile) (r : Response) (l : Live σ τ) :
    (l.deliver s f r).deliveries = l.deliveries ++ (handedOn f.path r).toList := by
  unfold deliver handedOn
  cases r.error with
  | some error => simp [deliveries]
  | none => cases r.parsingError <;> simp [deliveries]

/-- A response is handed on while its file is in flight. -/
theorem Tells.deliver {l : Live σ τ} (h : Tells plan p n l)
    (hflight : InFlight plan l.calls l.deliveries n) (s : Sink τ) (f : SourceFile)
    (r : Response) : Tells plan p n (l.deliver s f r) := by
  have hcounted : Tells plan p n
      { l with summary := { l.summary with requestsIssued := l.summary.requestsIssued + 1 } } :=
    ⟨h.progress, h.told⟩
  unfold Live.deliver
  cases r.error with
  | some error =>
    have hsaid := hcounted.logs
      [⟨.error, .run, "Engine failed to analyze " ++ f.display ++ ": " ++ error⟩]
    exact ⟨hsaid.progress, hsaid.told⟩
  | none =>
    cases r.parsingError with
    | none =>
      have hhanded := hcounted.emit (.deliver f.path r)
        (.inr (by simpa [calls, deliveries] using hflight.deliver [(f.path, r)]))
      exact ⟨hhanded.progress, hhanded.told⟩
    | some err =>
      have hwarned := hcounted.logs [⟨.warn, .run, parsingLine f err⟩]
      have hhanded := hwarned.emit (.deliver f.path r)
        (.inr (by simpa [calls, deliveries] using hflight.deliver [(f.path, r)]))
      exact ⟨hhanded.progress, hhanded.told⟩

/-- A turn that comes to its end has processed the next file of the plan. -/
theorem Ready.turned {e : Engine σ} {l : Live σ τ} (h : Ready plan p n l) {f : SourceFile}
    {request : Request} {r : Response} (hfile : plan[n]? = some f)
    (hsubject : request.subject = f.subject)
    (hvalue : (e.analyze l.disk request l.engine).value = .ok r) (s : Sink τ) :
    Ready plan p (n + 1) ((l.asked e request f).turned s f r) := by
  have hcalls := asked_calls e request f l
  rw [hvalue] at hcalls
  have hflight : InFlight plan (l.asked e request f).calls (l.asked e request f).deliveries n := by
    rw [hcalls, asked_deliveries]
    exact h.settled.request hfile hsubject _
  have hdelivered := (h.asked hfile hsubject e).deliver hflight s f r
  have hsettled : Settled plan ((l.asked e request f).deliver s f r).calls
      ((l.asked e request f).deliver s f r).deliveries (n + 1) := by
    rw [deliver_calls, hcalls, deliver_deliveries, asked_deliveries]
    exact h.settled.answer hfile hsubject r
  have hprogress : (l.asked e request f).progress = some (p.showing n) := h.progress
  exact
    { progress := by
        show ((l.asked e request f).progress.map Progress.nextFile) = some (p.showing (n + 1))
        rw [hprogress]
        rfl
      told := .counts hdelivered.told (.inl hsettled)
      settled := hsettled }

/-! ## Steps and runs of steps -/

theorem getElem?_of_drop {f : SourceFile} {rest : List SourceFile}
    (h : f :: rest = plan.drop n) : plan[n]? = some f ∧ rest = plan.drop (n + 1) := by
  constructor
  · rw [← List.head?_drop, ← h]
    rfl
  · rw [← List.tail_drop, ← h]
    rfl

/-- A task that does not end the run leaves it ready for the rest of the plan. -/
theorem Step.ready {e : Engine σ} {s : Sink τ} {o : RunOptions} {l l' : Live σ τ} {t : Task}
    {rest : List SourceFile} (h : Step e s o l t none l') (hready : Ready plan p n l)
    (hplan : t.target?.toList ++ rest = plan.drop n) :
    ∃ n', Ready plan p n' l' ∧ rest = plan.drop n' := by
  cases h with
  | skip files =>
    have hcounted : Ready plan p n
        { l with
          summary :=
            { l.summary with skippedUnmatched := l.summary.skippedUnmatched + files.length } } :=
      ⟨⟨hready.progress, hready.told⟩, hready.settled⟩
    exact ⟨n, (hcounted.logs [_]).logs [_], hplan⟩
  | announce label files => exact ⟨n, hready.logs [_], hplan⟩
  | reset hvalue => exact ⟨n, hready.resetDone e, hplan⟩
  | answered configs f content r hcancelled halive hread hvalue =>
    obtain ⟨hfile, hrest⟩ := getElem?_of_drop hplan
    exact ⟨n + 1, (hready.probed e).turned hfile rfl hvalue s, hrest⟩

/-- A task that ends the run leaves the count where it was, and right. -/
theorem Step.tells {e : Engine σ} {s : Sink τ} {o : RunOptions} {l l' : Live σ τ} {t : Task}
    {outcome : Except RunError RunState} {rest : List SourceFile}
    (h : Step e s o l t (some outcome) l') (hready : Ready plan p n l)
    (hplan : t.target?.toList ++ rest = plan.drop n) : Tells plan p n l' := by
  cases h with
  | resetFailed err hvalue => exact (hready.resetDone e).toTells
  | interrupted configs f hcancelled => exact hready.toTells.logs [_]
  | dead configs f hcancelled halive => exact (hready.probed e).toTells
  | unread configs f err hcancelled halive hread => exact (hready.probed e).toTells
  | refused configs f content err hcancelled halive hread hvalue =>
    obtain ⟨hfile, -⟩ := getElem?_of_drop hplan
    exact ((hready.probed e).asked hfile rfl e).logs [_]

theorem Performs.tells {e : Engine σ} {s : Sink τ} {o : RunOptions} {tasks : List Task}
    {l l' : Live σ τ} {outcome : Except RunError RunState}
    (h : Performs e s o tasks l outcome l') (hready : Ready plan p n l)
    (hplan : tasks.filterMap Task.target? = plan.drop n) : ∃ n', Tells plan p n' l' := by
  induction h generalizing n with
  | done l => exact ⟨n, hready.toTells⟩
  | stop rest step =>
    rw [filterMap_target?_cons] at hplan
    exact ⟨n, step.tells hready hplan⟩
  | next step _ ih =>
    rw [filterMap_target?_cons] at hplan
    obtain ⟨n', hready', hrest⟩ := step.ready hready hplan
    exact ih hready' hrest

/-! ## Phases -/

/-- There is no reporter, and at no moment was there one. -/
structure Silent (l : Live σ τ) : Prop where
  progress : l.progress = none
  moments : ∀ m ∈ l.moments, m.progress = none

theorem Prepared.silent {e : Engine σ} {made : List Call} {l l' : Live σ τ}
    (h : Prepared e made l l') (hsilent : Silent l) : Silent l' where
  progress := h.progress.trans hsilent.progress
  moments := by
    obtain ⟨es, hes⟩ := h.shown
    intro m hm
    rw [hes] at hm
    rcases List.mem_append.mp hm with hbefore | hnew
    · exact hsilent.moments m hbefore
    · obtain ⟨e, -, rfl⟩ := List.mem_map.mp hnew
      exact hsilent.progress

/-- The reporter starts over the files that the batches have to be analyzed. -/
theorem startProgress_ready (o : RunOptions) (batches : List Batch) {l : Live σ τ}
    (hsilent : Silent l) (hcalls : ∀ c ∈ l.calls, c.request? = none)
    (hdeliveries : l.deliveries = []) :
    Ready (batches.flatMap Batch.targets) (o.reporter (batches.flatMap Batch.targets)) 0
      (l.startProgress o batches) := by
  have hsettled : Settled (batches.flatMap Batch.targets) l.calls l.deliveries 0 := by
    rw [hdeliveries]
    exact .of_no_request _ hcalls
  have hstarted : Ready (batches.flatMap Batch.targets)
      (o.reporter (batches.flatMap Batch.targets)) 0
      { l with progress := some (o.reporter (batches.flatMap Batch.targets)) } :=
    { progress := rfl
      told := .started l.moments hsilent.moments (.inl hsettled)
      settled := hsettled }
  have hreporter : o.reporter (batches.flatMap Batch.targets) =
      (Progress.start o.language.component
        (batches.flatMap fun b => b.targets.map SourceFile.display)
        o.progressInterval).1 := by
    simp [RunOptions.reporter, Progress.start, List.map_flatMap]
  unfold startProgress
  simp only [← hreporter]
  exact hstarted.logs _

/-- A run has no reporter, or one that has told the truth about its plan. -/
theorem Executed.tells {e : Engine σ} {s : Sink τ} {o : RunOptions} {mode : RunMode}
    {files : List SourceFile} {l l' : Live σ τ} {outcome : Option (Except RunError RunState)}
    (h : Executed e s o mode files l outcome l') (hsilent : Silent l) (hnew : l.moments = []) :
    Silent l' ∨ ∃ n plan, plannedFiles mode (l'.calls.filterMap Call.config?) files = plan ∧
      Tells plan (o.reporter plan) n l' := by
  have hnone : l.calls = [] ∧ l.deliveries = [] := by
    rw [calls, deliveries, hnew]
    exact ⟨rfl, rfl⟩
  cases h with
  | setUpFailed err _ hsetUp => exact .inl (hsetUp.silent hsilent)
  | endless loads _ hprepared hplanning => exact .inl (hprepared.silent hsilent)
  | planFailed err loads _ hprepared hplanning => exact .inl (hprepared.silent hsilent)
  | nothing loads _ hprepared hplanning => exact .inl (hprepared.silent hsilent)
  | fed batches loads l₁ hprepared hplanning outcome _ hperforms =>
    right
    have hcalls : l₁.calls = .setUp o.setup (.ok ()) :: loads := by
      rw [hprepared.calls, hnone.1, List.nil_append]
    have hready := startProgress_ready o batches (hprepared.silent hsilent)
      (by rw [hcalls]; exact hplanning.no_request o) (hprepared.deliveries.trans hnone.2)
    obtain ⟨n', htells⟩ := hperforms.tells hready (filterMap_target?_tasks true batches)
    refine ⟨n', batches.flatMap Batch.targets, ?_, htells⟩
    -- All loads come before the feeding.
    obtain ⟨made, htraced, hfeed⟩ := hperforms.feed
    have hmade : l'.calls = .setUp o.setup (.ok ()) :: (loads ++ made) := by
      rw [htraced.calls, (traced_startProgress e o batches l₁).calls, hcalls, List.append_nil,
        List.cons_append]
    rw [hmade, hfeed.filterMap_config?, hplanning.targets]

/-! ## Closing -/

theorem closeProgress_moments (completed : Bool) (l : Live σ τ) :
    (l.closeProgress completed).progress = l.progress.map Progress.closed ∧
      ∃ es : List Event, (l.closeProgress completed).moments =
          l.moments ++ es.map (fun e => ⟨e, l.progress.map Progress.closed⟩) ∧
        ∀ p, l.progress = some p → p.running = true → es ≠ [] := by
  unfold closeProgress
  cases hprogress : l.progress with
  | none => exact ⟨hprogress, [], by simp, by simp⟩
  | some p =>
    have hclose : ∃ last, (if completed then p.stop else p.cancel) = p.close last := by
      cases completed with
      | true => exact ⟨_, rfl⟩
      | false => exact ⟨_, rfl⟩
    obtain ⟨last, hclose⟩ := hclose
    simp only [hclose]
    refine ⟨congrArg some (p.close_fst last), (p.close last).2.map .log, ?_, ?_⟩
    · simp [emitAll, p.close_fst last]
    · intro p' hp' hrunning
      obtain rfl := Option.some.inj hp'
      simpa using Progress.close_snd_ne_nil hrunning last

theorem closeMetrics_moments (around : Surroundings) (l : Live σ τ) :
    ∃ es : List Event, (l.closeMetrics around).progress = l.progress ∧
      (l.closeMetrics around).moments = l.moments ++ es.map (fun e => ⟨e, l.progress⟩) := by
  obtain ⟨recorder, disk, lines, hmetrics⟩ := closeMetrics_eq around l
  rw [hmetrics]
  exact ⟨lines.map .log, rfl, rfl⟩

/-- Closing shows the closed reporter, and it is seen when the reporter was running. -/
theorem finish_moments (around : Surroundings) (outcome : Except RunError RunState)
    (l : Live σ τ) :
    ∃ es : List Event, (l.finish around outcome).moments =
        l.moments ++ es.map (fun e => ⟨e, l.progress.map Progress.closed⟩) ∧
      ∀ p, l.progress = some p → p.running = true → es ≠ [] := by
  obtain ⟨disk, hdiscard⟩ := discardGenerated_eq l
  obtain ⟨hprogress, es, hes, hclosed⟩ :=
    closeProgress_moments (finalState outcome = .completed) { l with disk }
  unfold finish
  simp only [hdiscard]
  generalize closeProgress (finalState outcome = .completed) { l with disk } = l₁ at *
  obtain ⟨es', hprogress', hes'⟩ := closeMetrics_moments around l₁
  generalize l₁.closeMetrics around = l₂ at *
  rw [hprogress] at hprogress' hes'
  cases outcome with
  | ok state =>
    refine ⟨es ++ es', ?_, ?_⟩
    · rw [List.map_append, ← List.append_assoc, ← hes]
      exact hes'
    · intro p hp hrunning
      simp [hclosed p hp hrunning]
  | error err =>
    refine ⟨es ++ es' ++ [.log ⟨.error, .run, "Analysis failed: " ++ err.message⟩], ?_, ?_⟩
    · rw [List.map_append, List.map_append, ← List.append_assoc, ← List.append_assoc, ← hes,
        ← hes', ← hprogress']
      rfl
    · intro p hp hrunning
      simp [hclosed p hp hrunning]

end Live

/-! ## Files that no configuration claims -/

theorem eq_of_mem_firstMatchGroups_of_none {configs : List ConfigFile} {files : List SourceFile}
    {g : ConfigGroup} (hg : g ∈ firstMatchGroups configs files) (hnone : g.config = none) :
    firstMatchGroups configs files =
      (configs.zipIdx.map (groupAt configs files)).filter (fun g => !g.files.isEmpty) ++ [g] := by
  rw [firstMatchGroups_eq_append] at hg ⊢
  rcases List.mem_append.mp hg with hclaimed | hlast
  · have hsome := config_isSome_of_mem_groupAt hclaimed
    rw [hnone] at hsome
    cases hsome
  · split at hlast
    · cases hlast
    · rename_i hleft
      rw [if_neg hleft, List.mem_singleton.mp hlast]

/-- The files that no configuration claims are not planned, and none that is planned has
the name of one of them. -/
theorem plannedFiles_without_unclaimed {seeds : List Path} {configs : List ConfigFile}
    {files : List SourceFile} {groups : List ConfigGroup} {g : ConfigGroup}
    (hpartition : partition configs files = .ok groups) (hg : g ∈ groups)
    (hnone : g.config = none) :
    (plannedFiles (.configured seeds) configs files).length + g.files.length = files.length ∧
      ∀ f ∈ g.files,
        f.display ∉ (plannedFiles (.configured seeds) configs files).map SourceFile.display := by
  obtain rfl := eq_firstMatchGroups_of_partition hpartition
  have hgroups := eq_of_mem_firstMatchGroups_of_none hg hnone
  generalize hclaimed : (configs.zipIdx.map (groupAt configs files)).filter
    (fun g => !g.files.isEmpty) = claimed at hgroups
  have hplanned : plannedFiles (.configured seeds) configs files =
      claimed.flatMap ConfigGroup.files := by
    have hall : claimed.filter (fun g => g.config.isSome) = claimed := by
      refine List.filter_eq_self.mpr fun g' hg' => ?_
      rw [← hclaimed] at hg'
      exact config_isSome_of_mem_groupAt hg'
    simp only [plannedFiles, hpartition, hgroups, List.filter_append, hall]
    simp [hnone]
  have hperm := perm_firstMatchGroups configs files
  have hapart := pairwise_firstMatchGroups configs files
  rw [hgroups] at hperm hapart
  rw [hplanned]
  constructor
  · simpa using hperm.length_eq
  · intro f hf hnamed
    obtain ⟨f', hf', hname⟩ := List.mem_map.mp hnamed
    obtain ⟨g', hg', hmem⟩ := List.mem_flatMap.mp hf'
    refine (List.pairwise_append.mp hapart).2.2 g' hg' g List.mem_cons_self f' hmem f hf ?_
    exact congrArg Path.mk hname

/-! ## Whole runs -/

/-- After files have been processed, the next one asked for is the next one of the plan. -/
theorem Settled.next {plan : List SourceFile} {calls later : List Call}
    {deliveries : List (Path × Response)} {n : Nat} (h : Settled plan calls deliveries n)
    (hfollow : subjectsOf (calls ++ later) <+: plan.map SourceFile.subject) {request : Request}
    (hnext : (later.filterMap Call.request?).head? = some request) :
    ∃ f, plan[n]? = some f ∧ request.subject = f.subject := by
  have hparts : plan.map SourceFile.subject =
      (plan.take n).map SourceFile.subject ++ (plan.drop n).map SourceFile.subject := by
    rw [← List.map_append, List.take_append_drop]
  rw [subjectsOf_append, h.asked, hparts, List.prefix_append_right_inj] at hfollow
  obtain ⟨rest, hrest⟩ := hfollow
  have hhead : (subjectsOf later).head? = some request.subject := by
    rw [subjectsOf, List.head?_map, hnext]
    rfl
  have hfirst : ((plan.drop n).map SourceFile.subject).head? = some request.subject := by
    rw [← hrest, List.head?_append, hhead]
    rfl
  rw [List.head?_map, List.head?_drop] at hfirst
  obtain ⟨f, hfile, hsubject⟩ := Option.map_eq_some_iff.mp hfirst
  exact ⟨f, hfile, hsubject.symm⟩

theorem callsAt_append (ms ms' : List Moment) :
    callsAt (ms ++ ms') = callsAt ms ++ callsAt ms' := by
  simp [callsAt]

/-- Behind a moment comes another one, if only from the closing. -/
theorem exists_next {p : Progress} {count k : Nat} {rest closing : List Moment}
    (hnext : nextShown (some (p.showing count)) rest = some (p.showing k)) (hclosing : closing ≠ [])
    (hclosed : ∀ m ∈ closing, m.progress = some (p.showing count).closed) :
    ∃ m' more p', rest ++ closing = m' :: more ∧ m'.progress = some p' ∧ p'.processed = k := by
  cases rest with
  | cons m' more => exact ⟨m', more ++ closing, _, rfl, hnext, rfl⟩
  | nil =>
    obtain ⟨m', more, rfl⟩ := List.exists_cons_of_ne_nil hclosing
    exact ⟨m', more, _, rfl, hclosed m' List.mem_cons_self,
      congrArg Progress.processed (Option.some.inj hnext)⟩

/-- What a report with a count that is right says. -/
theorem UnderWay.report {o : RunOptions} {plan : List SourceFile} {calls later : List Call}
    {deliveries : List (Path × Response)} {i : Nat} (h : UnderWay plan calls deliveries i)
    (hfollow : subjectsOf (calls ++ later) <+: plan.map SourceFile.subject) :
    i ≤ plan.length ∧
    (i < plan.length → ∃ f, plan[i]? = some f ∧
      ((o.reporter plan).showing i).report = Progress.line .info
        (o.language.component ++ ": " ++ Decimal.natText i ++ "/" ++
          Decimal.natText plan.length ++ " files analyzed, current file: " ++ f.display) ∧
      (InFlight plan calls deliveries i ∨ Settled plan calls deliveries i ∧
        ∀ request, (later.filterMap Call.request?).head? = some request →
          request.subject = f.subject)) ∧
    (i = plan.length →
      ((o.reporter plan).showing i).report = Progress.line .info
        (o.language.component ++ ": " ++ Decimal.natText i ++ "/" ++
          Decimal.natText plan.length ++ " files analyzed") ∧
      Settled plan calls deliveries i) := by
  refine ⟨h.planned, ?_, ?_⟩
  · intro hbelow
    have hfile := List.getElem?_eq_getElem hbelow
    refine ⟨plan[i], hfile, RunOptions.report_of_target hfile, ?_⟩
    rcases h with hsettled | hflight
    · refine .inr ⟨hsettled, ?_⟩
      intro request hnext
      obtain ⟨f, hf, hsubject⟩ := hsettled.next hfollow hnext
      rw [hsubject, Option.some.inj (hf.symm.trans hfile)]
    · exact .inl hflight
  · intro hall
    refine ⟨RunOptions.report_of_all hall, ?_⟩
    rcases h with hsettled | ⟨f, _, _, _, _, hfile, _⟩
    · exact hsettled
    · -- A file in flight is one of the plan.
      have hbelow := lt_length_of_getElem? hfile
      omega

/-- A run has no reporter at any moment, or one that tells the truth until it is closed,
and the files that are asked for follow its plan. -/
theorem Session.run_tells {σ τ : Type} {e : Engine σ} {s : Sink τ} {around : Surroundings}
    {o : RunOptions} {mode : RunMode} {files : List SourceFile} {n : Session σ τ}
    {fin : Finished σ τ} (hrun : n.run e s around o mode files = some fin) {plan : List SourceFile}
    (hplan : plannedFiles mode (fin.calls.filterMap Call.config?) files = plan) :
    (∀ m ∈ fin.moments, m.progress = none) ∨
      ∃ moments closing count, fin.moments = moments ++ closing ∧ closing ≠ [] ∧
        Told plan (o.reporter plan) moments count ∧
        (∀ m ∈ closing, m.progress = some ((o.reporter plan).showing count).closed) ∧
        subjectsOf fin.calls <+: plan.map SourceFile.subject := by
  by_cases hfirst : n.state = .notStarted
  · obtain ⟨hcalls, -⟩ := Session.calls_of_run hfirst hrun
    have hfollow := (Session.execute_conversation e s around o mode files n).1.subjects_follow
    rw [← hcalls, hplan] at hfollow
    obtain ⟨outcome, l, hexecute, rfl⟩ := (Session.run_eq_some_iff hfirst).mp hrun
    have hexecuted := n.begin_executed e s around o mode files
    rw [hexecute] at hexecuted
    obtain ⟨es, hmoments, hclosing⟩ := l.finish_moments around outcome
    have hfin : (Session.after outcome (l.finish around outcome)).moments =
        l.moments ++ es.map (fun e => ⟨e, l.progress.map Progress.closed⟩) := hmoments
    have hconfigs : (Session.after outcome (l.finish around outcome)).calls = l.calls :=
      (l.finish_closed around outcome).calls
    rw [hconfigs] at hplan
    rcases hexecuted.tells ⟨rfl, by simp [Session.begin_]⟩ rfl with
      hsilent | ⟨count, plan', hplan', htells⟩
    · left
      intro m hm
      rw [hfin] at hm
      rcases List.mem_append.mp hm with hbefore | hclosed
      · exact hsilent.moments m hbefore
      · obtain ⟨event, -, rfl⟩ := List.mem_map.mp hclosed
        rw [hsilent.progress]
        rfl
    · right
      obtain rfl := hplan'.symm.trans hplan
      refine ⟨l.moments, _, count, hfin, ?_, htells.told, ?_, hfollow⟩
      · simpa using hclosing _ htells.progress rfl
      · intro m hm
        obtain ⟨event, -, rfl⟩ := List.mem_map.mp hm
        rw [htells.progress]
        rfl
  · -- A second run is refused before anything happens.
    left
    unfold Session.run at hrun
    rw [if_pos hfirst] at hrun
    obtain rfl := Option.some.inj hrun
    simp

/-- The reports that the ticker can make in a run, at whatever instants it makes them.
The plan has the files that are to be analyzed, in the order in which they are; files that
no configuration claims are not counted in it and bear no name of a file in it.

An instant when the reporter runs comes after a moment that shows it and before another
one, and the counts that can be read then lie between what the two show.  With any such
count,

* it is not above the number of files planned;
* when it is below, the report names the file of the plan at that position.  Just the files
  in front of it have been processed; it is asked for by the last call made, or none is
  in flight and the next request, if there is one, asks for it;
* when all files are counted, all have been processed, and the report names none. -/
theorem reports_name_the_file_under_way {σ τ : Type} {e : Engine σ} {s : Sink τ}
    {around : Surroundings} {o : RunOptions} {mode : RunMode} {files : List SourceFile}
    {n : Session σ τ} {fin : Finished σ τ} (hrun : n.run e s around o mode files = some fin)
    {plan : List SourceFile}
    (hplan : plannedFiles mode (fin.calls.filterMap Call.config?) files = plan) :
    (∀ seeds groups g, mode = .configured seeds →
      partition (fin.calls.filterMap Call.config?) files = .ok groups → g ∈ groups →
      g.config = none →
        plan.length + g.files.length = files.length ∧
          ∀ f ∈ g.files, f.display ∉ plan.map SourceFile.display) ∧
    ∀ before m after p, fin.moments = before ++ m :: after → m.progress = some p →
      p.running = true →
      ∃ m' rest p', after = m' :: rest ∧ m'.progress = some p' ∧ p.processed ≤ p'.processed ∧
        ∀ i, p.processed ≤ i → i ≤ p'.processed →
          i ≤ plan.length ∧
          (i < plan.length → ∃ f, plan[i]? = some f ∧
            (p.showing i).report = Progress.line .info
              (o.language.component ++ ": " ++ Decimal.natText i ++ "/" ++
                Decimal.natText plan.length ++ " files analyzed, current file: " ++ f.display) ∧
            (InFlight plan (callsAt (before ++ [m])) (deliveriesAt (before ++ [m])) i ∨
              Settled plan (callsAt (before ++ [m])) (deliveriesAt (before ++ [m])) i ∧
                ∀ request, ((callsAt after).filterMap Call.request?).head? = some request →
                  request.subject = f.subject)) ∧
          (i = plan.length →
            (p.showing i).report = Progress.line .info
              (o.language.component ++ ": " ++ Decimal.natText i ++ "/" ++
                Decimal.natText plan.length ++ " files analyzed") ∧
            Settled plan (callsAt (before ++ [m])) (deliveriesAt (before ++ [m])) i) := by
  constructor
  · rintro seeds groups g rfl hpartition hg hnone
    rw [← hplan]
    exact plannedFiles_without_unclaimed hpartition hg hnone
  · intro before m after p hsplit hshown hrunning
    rcases Session.run_tells hrun hplan with
      hsilent | ⟨moments, closing, count, hmoments, hclosing, htold, hclosed, hfollow⟩
    · rw [hsilent m (by simp [hsplit])] at hshown
      cases hshown
    · have hcalls : callsAt (before ++ [m]) ++ callsAt after = fin.calls := by
        rw [← callsAt_append, Finished.calls, hsplit, List.append_assoc]
        rfl
      rw [← hcalls] at hfollow
      rw [hmoments] at hsplit
      rcases append_eq_split hsplit with ⟨rest, hinside, rfl⟩ | ⟨start, rfl, hlate⟩
      · obtain ⟨j, k, rfl, hnext, hjk, hright⟩ := htold.between hinside hshown
        obtain ⟨m', more, p', hafter, hshown', hcount⟩ := exists_next hnext hclosing hclosed
        refine ⟨m', more, p', hafter, hshown', hcount ▸ hjk, ?_⟩
        intro i hji hik
        exact (hright i hji (hcount ▸ hik)).report hfollow
      · -- While it is being closed, the reporter no longer runs.
        have hlast := hclosed m (by simp [hlate])
        rw [hlast] at hshown
        obtain rfl := Option.some.inj hshown
        cases hrunning

/-- A run whose ticker works, and in which the engine breaks down over the second file. -/
def tickingRun : Option (Finished Unit Nat) :=
  (Session.new () 0 default).run breakingEngine .counting
    { (default : Surroundings) with loads := 2 }
    { (default : RunOptions) with progressInterval := 10000000000 }
    (.configured [⟨"/p/a/t.json"⟩, ⟨"/p/t.json"⟩]) breakingFiles

/-- The second file is named when the engine has been asked for it; the file that no
configuration claims is not counted. -/
theorem tickingRun_reports :
    ∃ fin plan, tickingRun = some fin ∧
      plannedFiles (.configured [⟨"/p/a/t.json"⟩, ⟨"/p/t.json"⟩])
        (fin.calls.filterMap Call.config?) breakingFiles = plan ∧
      plan = [.main ⟨"/p/a/x.ts"⟩, .main ⟨"/p/y.ts"⟩, .main ⟨"/p/z.ts"⟩] ∧
      ∃ before m after p, fin.moments = before ++ m :: after ∧ m.progress = some p ∧
        p.running = true ∧ p.processed = 1 ∧
        (p.showing 1).report = Progress.line .info
          "JavaScript analysis: 1/3 files analyzed, current file: /p/y.ts" ∧
        InFlight plan (callsAt (before ++ [m])) (deliveriesAt (before ++ [m])) 1 := by
  -- Eleven moments come before the request for the second file.
  have hplanned : tickingRun.map (fun fin =>
      plannedFiles (.configured [⟨"/p/a/t.json"⟩, ⟨"/p/t.json"⟩])
        (fin.calls.filterMap Call.config?) breakingFiles) =
      some [.main ⟨"/p/a/x.ts"⟩, .main ⟨"/p/y.ts"⟩, .main ⟨"/p/z.ts"⟩] := by
    decide +kernel
  have hmoment : tickingRun.map (fun fin => fin.moments[11]?.bind Moment.progress) =
      some (some ⟨"JavaScript analysis", ["/p/a/x.ts", "/p/y.ts", "/p/z.ts"], 1, true, true⟩) := by
    decide +kernel
  have hasked : tickingRun.map (fun fin => subjectsOf (callsAt (fin.moments.take 12))) =
      some [(⟨"/p/a/x.ts"⟩, .main), (⟨"/p/y.ts"⟩, .main)] := by
    decide +kernel
  obtain ⟨fin, hrun, hplan⟩ := Option.map_eq_some_iff.mp hplanned
  rw [hrun, Option.map_some, Option.some_inj] at hmoment hasked
  obtain ⟨m, hm, hshown⟩ := Option.bind_eq_some_iff.mp hmoment
  obtain ⟨hlt, hget⟩ := List.getElem?_eq_some_iff.mp hm
  have htake : fin.moments.take 12 = fin.moments.take 11 ++ [m] := by
    rw [List.take_add_one, hm]
    rfl
  have hsplit : fin.moments = fin.moments.take 11 ++ m :: fin.moments.drop 12 := by
    rw [← hget, ← List.drop_eq_getElem_cons hlt, List.take_append_drop]
  refine ⟨fin, _, hrun, hplan, rfl, _, m, _, _, hsplit, hshown, rfl, rfl, ?_⟩
  obtain ⟨m', rest, p', -, -, hcount, hreports⟩ :=
    (reports_name_the_file_under_way hrun hplan).2 _ m _ _ hsplit hshown rfl
  obtain ⟨f, hf, hreport, hstanding⟩ := (hreports 1 (Nat.le_refl 1) hcount).2.1 (by decide)
  obtain rfl := Option.some.inj hf
  refine ⟨hreport, hstanding.resolve_right ?_⟩
  rintro ⟨hsettled, -⟩
  have hone := congrArg List.length hsettled.asked
  rw [← htake, hasked] at hone
  cases hone

end LintRelay
