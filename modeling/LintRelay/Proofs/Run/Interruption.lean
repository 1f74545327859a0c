import LintRelay.Proofs.Run.Completion
set_option autoImplicit false

/-!
# Interrupting a run cuts it short

Two runs are compared here that have the same engine, sink and files: one that nobody
interrupts, and one that is interrupted before it begins, during some analysis or during
the delivery of its answer.  The second run does what the first one does, up to the first
file that it comes to when it has been interrupted; there it stops.  If it comes to no
such file, the two cannot be told apart (`interrupted_run_is_cut_short`).

The engine and the sink of the second run are those of the first one with a count beside
their state, which tells them when the user interrupts.  So the second run, as long as it
lasts, is the first one `counted`: nothing differs but the counts and whether it has been
interrupted.
-/

namespace LintRelay

/-! ## Interruptions -/

/-- An answer with a count beside the state of the engine; the user may have interrupted
meanwhile. -/
def Answer.counted {σ α : Type} (a : Answer σ α) (count : Nat) (interrupted : Bool) :
    Answer (σ × Nat) α :=
  ⟨a.value, (a.state, count), a.log, interrupted⟩

/-- The engine when nobody interrupts. -/
def Engine.undisturbed {σ : Type} (e : Engine σ) : Engine σ where
  setUp d setup a := { e.setUp d setup a with interrupted := false }
  isAlive d a := { e.isAlive d a with interrupted := false }
  loadConfig d p a := { e.loadConfig d p a with interrupted := false }
  analyze d request a := { e.analyze d request a with interrupted := false }
  reset d a := { e.reset d a with interrupted := false }

/-- The engine with a count of the analyses it has been asked for.  The user interrupts
during analyses, as told by the number of analyses before. -/
def Engine.interruptedAt {σ : Type} (e : Engine σ) (during : Nat → Bool) : Engine (σ × Nat) where
  setUp d setup a := (e.setUp d setup a.1).counted a.2 false
  isAlive d a := (e.isAlive d a.1).counted a.2 false
  loadConfig d p a := (e.loadConfig d p a.1).counted a.2 false
  analyze d request a := (e.analyze d request a.1).counted (a.2 + 1) (during a.2)
  reset d a := (e.reset d a.1).counted a.2 false

/-- The sink when nobody interrupts. -/
def Sink.undisturbed {τ : Type} (s : Sink τ) : Sink τ :=
  ⟨fun f r t => ((s.accept f r t).1, false)⟩

/-- The sink with a count of what it was handed.  The user interrupts during deliveries,
as told by the number of deliveries before. -/
def Sink.interruptedAt {τ : Type} (s : Sink τ) (during : Nat → Bool) : Sink (τ × Nat) :=
  ⟨fun f r t => (((s.accept f r t.1).1, t.2 + 1), during t.2)⟩

/-- When the user interrupts a run. -/
structure Interruptions where
  /-- Before the run begins. -/
  before : Bool
  /-- During an analysis, by the number of analyses before it. -/
  analysis : Nat → Bool
  /-- During a delivery, by the number of deliveries before it. -/
  delivery : Nat → Bool

/-- A response that is handed to the sink. -/
def Response.isDelivered (r : Response) : Bool := r.error.isNone

namespace Interruptions

/-- The user interrupts during the analysis with the given number or during the delivery
of its response, when the responses of the run are the given ones. -/
def strikes (w : Interruptions) (responses : List Response) (i : Nat) : Bool :=
  w.analysis i ||
    responses[i]?.any fun r =>
      r.isDelivered && w.delivery ((responses.take i).countP Response.isDelivered)

/-- In a run with the given calls the user interrupts for the first time before the run,
and then the number is zero, or during the analysis with this number, counted from one,
or its delivery. -/
inductive FirstAt (w : Interruptions) (calls : List Call) : Nat → Prop
  | before (hbefore : w.before = true) : FirstAt w calls 0
  | during (i : Nat) (hbefore : w.before = false)
      (hearlier : ∀ j < i, w.strikes (calls.filterMap Call.response?) j = false)
      (hhere : w.strikes (calls.filterMap Call.response?) i = true) : FirstAt w calls (i + 1)

theorem FirstAt.before_eq {w : Interruptions} {calls : List Call} {k : Nat}
    (h : w.FirstAt calls k) : w.before = decide (k ≤ 0) := by
  cases h with
  | before hbefore => simpa using hbefore
  | during i hbefore hearlier hhere => simpa using hbefore

/-- Up to the first interruption an analysis is struck when it is the one. -/
theorem FirstAt.strikes_eq {w : Interruptions} {calls : List Call} {k a : Nat}
    (h : w.FirstAt calls k) (ha : a < k) :
    w.strikes (calls.filterMap Call.response?) a = decide (k ≤ a + 1) := by
  cases h with
  | before hbefore => cases ha
  | during i hbefore hearlier hhere =>
    rcases Nat.lt_succ_iff_lt_or_eq.mp ha with hless | rfl
    · rw [hearlier a hless]
      symm
      rw [decide_eq_false_iff_not]
      omega
    · rw [hhere]
      simp

end Interruptions

/-- The session when nobody has interrupted it. -/
def Session.undisturbed {σ τ : Type} (n : Session σ τ) : Session σ τ :=
  { n with cancelled := false }

/-- The session with counts that begin at nothing. -/
def Session.counted {σ τ : Type} (n : Session σ τ) (interrupted : Bool) :
    Session (σ × Nat) (τ × Nat) :=
  ⟨(n.engine, 0), (n.sink, 0), n.disk, interrupted, n.state, n.summary⟩

theorem Task.target?_eq_none_or_file (t : Task) :
    t.target? = none ∨ ∃ configs f, t = .file configs f := by
  cases t with
  | file configs f => exact .inr ⟨configs, f, rfl⟩
  | _ => exact .inl rfl

namespace Live

variable {σ τ : Type}

/-- The run with counts beside the states of engine and sink. -/
def counted (l : Live σ τ) (analyses deliveries : Nat) (interrupted : Bool) :
    Live (σ × Nat) (τ × Nat) where
  engine := (l.engine, analyses)
  sink := (l.sink, deliveries)
  disk := l.disk
  recorder := l.recorder
  progress := l.progress
  summary := l.summary
  cancelled := interrupted
  generated := l.generated
  moments := l.moments

/-! ## The parts of a turn -/

theorem counted_probed (e : Engine σ) (w : Interruptions) (l : Live σ τ) (a d : Nat) :
    (l.counted a d false).probed (e.interruptedAt w.analysis) =
      (l.probed e.undisturbed).counted a d false := rfl

theorem counted_resetDone (e : Engine σ) (w : Interruptions) (l : Live σ τ) (a d : Nat)
    (b : Bool) :
    (l.counted a d b).resetDone (e.interruptedAt w.analysis) =
      (l.resetDone e.undisturbed).counted a d b := by
  cases b <;> rfl

theorem counted_asked (e : Engine σ) (w : Interruptions) (request : Request) (f : SourceFile)
    (l : Live σ τ) (a d : Nat) :
    (l.counted a d false).asked (e.interruptedAt w.analysis) request f =
      (l.asked e.undisturbed request f).counted (a + 1) d (w.analysis a) := rfl

theorem counted_turned (s : Sink τ) (w : Interruptions) (f : SourceFile) (r : Response)
    (l : Live σ τ) (a d : Nat) (b : Bool) :
    (l.counted a d b).turned (s.interruptedAt w.delivery) f r =
      (l.turned s.undisturbed f r).counted a (d + if r.isDelivered then 1 else 0)
        (b || (r.isDelivered && w.delivery d)) := by
  have hdelivered : r.isDelivered = r.error.isNone := rfl
  unfold turned deliver
  rw [hdelivered]
  cases r.error with
  | some error => cases b <;> rfl
  | none => cases r.parsingError <;> rfl

/-! ## Steps -/

/-- A task that analyzes no file takes no notice of interruptions. -/
theorem Step.counted_of_no_target {e : Engine σ} {s : Sink τ} {o : RunOptions}
    {l l' : Live σ τ} {t : Task} {outcome : Option (Except RunError RunState)}
    (h : Step e.undisturbed s.undisturbed o l t outcome l') (ht : t.target? = none)
    (w : Interruptions) (a d : Nat) (b : Bool) :
    Step (e.interruptedAt w.analysis) (s.interruptedAt w.delivery) o (l.counted a d b) t outcome
      (l'.counted a d b) := by
  have hreset := counted_resetDone e w l a d b
  cases h with
  | skip files => exact .skip files
  | announce label files => exact .announce label files
  | reset hvalue =>
    rw [← hreset]
    exact .reset hvalue
  | resetFailed err hvalue =>
    rw [← hreset]
    exact .resetFailed err hvalue
  | _ => cases ht

/-- As long as nobody has interrupted, a file is treated alike, and interruptions during
its turn are noted. -/
theorem Step.counted_of_file {e : Engine σ} {s : Sink τ} {o : RunOptions} {l l' : Live σ τ}
    {configs : List String} {f : SourceFile} {outcome : Option (Except RunError RunState)}
    (h : Step e.undisturbed s.undisturbed o l (.file configs f) outcome l')
    (hcancelled : l.cancelled = false) (hstarted : l.progress.isSome = true)
    (w : Interruptions) (a d : Nat) :
    ∃ a' d' b', Step (e.interruptedAt w.analysis) (s.interruptedAt w.delivery) o
        (l.counted a d false) (.file configs f) outcome (l'.counted a' d' b') ∧
      (outcome = none → ∃ r, l'.ledger = l.ledger.book s.undisturbed f r ∧ a' = a + 1 ∧
        d' = (d + if r.isDelivered then 1 else 0) ∧
        b' = (w.analysis a || (r.isDelivered && w.delivery d))) := by
  cases h with
  | interrupted configs f hinterrupted =>
    rw [hcancelled] at hinterrupted
    cases hinterrupted
  | dead configs f _ halive => exact ⟨a, d, false, .dead configs f rfl halive, by simp⟩
  | unread configs f err _ halive hread =>
    exact ⟨a, d, false, .unread configs f err rfl halive hread, by simp⟩
  | refused configs f content err _ halive hread hvalue =>
    exact ⟨a + 1, d, w.analysis a, .refused configs f content err rfl halive hread hvalue,
      by simp⟩
  | answered configs f content r _ halive hread hvalue =>
    refine ⟨a + 1, _, _, ?_, fun _ => ⟨r, ?_, rfl, rfl, rfl⟩⟩
    · rw [← counted_turned, ← counted_asked, ← counted_probed]
      exact .answered configs f content r rfl halive hread hvalue
    · have hstartedProbed : (l.probed e.undisturbed).progress.isSome = true := hstarted
      rw [ledger_turned s.undisturbed f hstartedProbed hvalue, ledger_probed]

/-- A run that was not interrupted does not stop for that reason. -/
theorem Step.not_interrupted {e : Engine σ} {s : Sink τ} {o : RunOptions} {l l' : Live σ τ}
    {t : Task} {outcome : Option (Except RunError RunState)} (h : Step e s o l t outcome l')
    (hcancelled : l.cancelled = false) : outcome ≠ some (.ok .cancelled) := by
  cases h with
  | interrupted configs f hinterrupted =>
    rw [hcancelled] at hinterrupted
    cases hinterrupted
  | _ => simp

/-- Nobody interrupts in a step of the run that is left alone. -/
theorem Step.undisturbed {e : Engine σ} {s : Sink τ} {o : RunOptions} {l l' : Live σ τ}
    {t : Task} {outcome : Option (Except RunError RunState)}
    (h : Step e.undisturbed s.undisturbed o l t outcome l') (hcancelled : l.cancelled = false) :
    l'.cancelled = false := by
  have hflag : (l.cancelled || false) = false := by rw [hcancelled]; rfl
  have hasked : ((l.cancelled || false) || false) = false := by rw [hflag]; rfl
  cases h with
  | reset hvalue => exact hflag
  | resetFailed err hvalue => exact hflag
  | dead configs f _ halive => exact hflag
  | unread configs f err _ halive hread => exact hflag
  | refused configs f content err _ halive hread hvalue => exact hasked
  | answered configs f content r _ halive hread hvalue =>
    unfold turned deliver
    cases r.error with
    | some error => exact hasked
    | none =>
      have hdelivered : (((l.cancelled || false) || false) || false) = false := by rw [hasked]; rfl
      cases r.parsingError <;> exact hdelivered
  | _ => exact hcancelled

theorem Step.ledger_of_no_target {e : Engine σ} {s : Sink τ} {o : RunOptions}
    {l l' : Live σ τ} {t : Task} {outcome : Option (Except RunError RunState)}
    (h : Step e s o l t outcome l') (ht : t.target? = none) : l'.ledger = l.ledger := by
  cases h with
  | skip files => exact ledger_skipFiles files l
  | announce label files => exact ledger_say .info _ l
  | reset hvalue => exact ledger_resetDone e l
  | resetFailed err hvalue => exact ledger_resetDone e l
  | _ => cases ht

/-! ## Runs only grow -/

/-- A run that was not interrupted turns to a file by asking whether the engine is alive. -/
theorem Step.length_calls_lt {e : Engine σ} {s : Sink τ} {o : RunOptions} {l l' : Live σ τ}
    {configs : List String} {f : SourceFile} {outcome : Option (Except RunError RunState)}
    (h : Step e s o l (.file configs f) outcome l') (hcancelled : l.cancelled = false) :
    l.calls.length < l'.calls.length := by
  obtain ⟨made, htraced, hsegment⟩ := h.segment
  rw [htraced.calls, List.length_append]
  cases hsegment with
  | interrupted configs f => exact absurd rfl (h.not_interrupted hcancelled)
  | _ => simp

theorem Performs.calls_prefix {e : Engine σ} {s : Sink τ} {o : RunOptions}
    {tasks : List Task} {l l' : Live σ τ} {outcome : Except RunError RunState}
    (h : Performs e s o tasks l outcome l') : l.calls <+: l'.calls := by
  obtain ⟨made, htraced, -⟩ := h.feed
  rw [htraced.calls]
  exact List.prefix_append _ _

theorem deliveries_prefix_book (s : Sink τ) (f : SourceFile) (r : Response) (k : Ledger τ) :
    k.deliveries <+: (k.book s f r).deliveries := by
  unfold Ledger.book
  cases r.error with
  | some err => exact List.prefix_refl _
  | none => exact List.prefix_append _ _

theorem Step.deliveries_prefix {e : Engine σ} {s : Sink τ} {o : RunOptions} {l l' : Live σ τ}
    {t : Task} {outcome : Option (Except RunError RunState)} (h : Step e s o l t outcome l')
    (hstarted : l.progress.isSome = true) : l.deliveries <+: l'.deliveries := by
  rcases h.ledger hstarted with hsame | ⟨f, r, hbooked⟩
  · have hdeliveries : l.deliveries = l'.deliveries := congrArg Ledger.deliveries hsame.symm
    exact hdeliveries ▸ List.prefix_refl _
  · have hdeliveries : l'.deliveries = (l.ledger.book s f r).deliveries :=
      congrArg Ledger.deliveries hbooked
    rw [hdeliveries]
    exact deliveries_prefix_book s f r l.ledger

theorem Performs.deliveries_prefix {e : Engine σ} {s : Sink τ} {o : RunOptions}
    {tasks : List Task} {l l' : Live σ τ} {outcome : Except RunError RunState}
    (h : Performs e s o tasks l outcome l') (hstarted : l.progress.isSome = true) :
    l.deliveries <+: l'.deliveries := by
  induction h with
  | done l => exact List.prefix_refl _
  | stop rest step => exact step.deliveries_prefix hstarted
  | next step _ ih => exact (step.deliveries_prefix hstarted).trans (ih (step.started hstarted))

/-! ## Performing tasks -/

/-- Where the run that is left alone stands, and the other one beside it: it has counted
what was asked for and delivered, and it knows of an interruption when it has come as far
as the first one. -/
structure InStep (k : Nat) (l : Live σ τ) (a d : Nat) (b : Bool) : Prop where
  cancelled : l.cancelled = false
  started : l.progress.isSome = true
  requests : (subjectsOf l.calls).length = a
  issued : l.ledger.issued = a
  answered : l.ledger.responses.length = a
  handed : l.ledger.responses.countP Response.isDelivered = d
  bound : a ≤ k
  flag : b = decide (k ≤ a)

/-- A run that was cut short after some requests, beside the whole run. -/
structure CutShort (k : Nat) (cut whole : Live σ τ) : Prop where
  calls : cut.calls <+: whole.calls
  shorter : cut.calls ≠ whole.calls
  deliveries : cut.deliveries <+: whole.deliveries
  requests : (subjectsOf cut.calls).length = k
  issued : cut.summary.requestsIssued = k

/-- Tasks that analyze no file change nothing of what is counted. -/
theorem InStep.of_no_target {e : Engine σ} {s : Sink τ} {o : RunOptions} {l l' : Live σ τ}
    {t : Task} {k a d : Nat} {b : Bool} (h : InStep k l a d b)
    (hstep : Step e.undisturbed s.undisturbed o l t none l') (ht : t.target? = none) :
    InStep k l' a d b := by
  have hledger := hstep.ledger_of_no_target ht
  have hsubjects : subjectsOf l'.calls = subjectsOf l.calls := by
    obtain ⟨made, htraced, hsegment⟩ := hstep.segment
    rw [htraced.calls, subjectsOf_append, hsegment.subjects, ht]
    simp
  refine ⟨hstep.undisturbed h.cancelled, hstep.started h.started, ?_, ?_, ?_, ?_, h.bound, h.flag⟩
  · rw [hsubjects, h.requests]
  · rw [hledger, h.issued]
  · rw [hledger, h.answered]
  · rw [hledger, h.handed]

/-- A turn that has come to its end is counted, and the interruption noted that is due. -/
theorem InStep.of_turn {e : Engine σ} {s : Sink τ} {o : RunOptions} {l l' : Live σ τ}
    {configs : List String} {f : SourceFile} {calls : List Call} {w : Interruptions}
    {k a d : Nat} {r : Response} (h : InStep k l a d false) (hfirst : w.FirstAt calls k)
    (hstep : Step e.undisturbed s.undisturbed o l (.file configs f) none l')
    (hbooked : l'.ledger = l.ledger.book s.undisturbed f r) (hwhole : l'.calls <+: calls) :
    InStep k l' (a + 1) (d + if r.isDelivered then 1 else 0)
      (w.analysis a || (r.isDelivered && w.delivery d)) := by
  have hless : a < k := by simpa using h.flag
  have hsubjects : (subjectsOf l'.calls).length = (subjectsOf l.calls).length + 1 := by
    obtain ⟨made, htraced, hsegment⟩ := hstep.segment
    rw [htraced.calls, subjectsOf_append, hsegment.subjects, List.length_append]
    rfl
  have hissued : l'.ledger.issued = l.ledger.issued + 1 := by
    rw [hbooked, Ledger.book]
    cases r.error <;> rfl
  have hresponses : l'.ledger.responses = l.ledger.responses ++ [r] := by
    rw [hbooked, Ledger.book]
    cases r.error <;> rfl
  -- The response stands at its place among those of the whole run.
  obtain ⟨rest, hwhole⟩ : l'.ledger.responses <+: calls.filterMap Call.response? :=
    hwhole.filterMap Call.response?
  rw [hresponses, List.append_assoc, List.singleton_append] at hwhole
  have hstruck : w.strikes (calls.filterMap Call.response?) a =
      (w.analysis a || (r.isDelivered && w.delivery d)) := by
    rw [Interruptions.strikes, ← hwhole, ← h.answered, ← h.handed, List.take_left,
      List.getElem?_append_right (Nat.le_refl _), Nat.sub_self]
    rfl
  refine ⟨hstep.undisturbed h.cancelled, hstep.started h.started, ?_, ?_, ?_, ?_, hless, ?_⟩
  · rw [hsubjects, h.requests]
  · rw [hissued, h.issued]
  · rw [hresponses, List.length_append, h.answered]
    rfl
  · rw [hresponses, List.countP_append, h.handed, List.countP_singleton]
  · rw [← hstruck, hfirst.strikes_eq hless]

/-- A run that comes to a file when it has been interrupted is cut short there. -/
theorem InStep.cutShort {e : Engine σ} {s : Sink τ} {o : RunOptions} {l l' : Live σ τ}
    {configs : List String} {f : SourceFile} {rest : List Task} {k a d : Nat}
    {outcome : Except RunError RunState} (h : InStep k l a d true)
    (hperforms : Performs e s o (.file configs f :: rest) l outcome l') :
    CutShort k (l.say .info "Analysis interrupted because the run was cancelled") l' := by
  have hreached : a = k := Nat.le_antisymm h.bound (by simpa using h.flag)
  have hsay := traced_say e l .info "Analysis interrupted because the run was cancelled"
  have hcalls : (l.say .info "Analysis interrupted because the run was cancelled").calls =
      l.calls := by
    rw [hsay.calls, List.append_nil]
  have hlonger : l.calls.length < l'.calls.length := by
    cases hperforms with
    | stop rest step => exact step.length_calls_lt h.cancelled
    | next step performs =>
      exact Nat.lt_of_lt_of_le (step.length_calls_lt h.cancelled) performs.calls_prefix.length_le
  refine ⟨?_, ?_, ?_, ?_, ?_⟩
  · rw [hcalls]
    exact hperforms.calls_prefix
  · rw [hcalls]
    intro hsame
    rw [hsame] at hlonger
    exact Nat.lt_irrefl _ hlonger
  · have hdeliveries :
        (l.say .info "Analysis interrupted because the run was cancelled").deliveries =
          l.deliveries := congrArg Ledger.deliveries (ledger_say .info _ l)
    rw [hdeliveries]
    exact hperforms.deliveries_prefix h.started
  · rw [hcalls, h.requests, hreached]
  · exact h.issued.trans hreached

/-- Beside a run that is left alone, the other one does the same or is cut short. -/
theorem Performs.counted {e : Engine σ} {s : Sink τ} {o : RunOptions} {tasks : List Task}
    {l l' : Live σ τ} {outcome : Except RunError RunState}
    (h : Performs e.undisturbed s.undisturbed o tasks l outcome l') {w : Interruptions}
    {k a d : Nat} {b : Bool} (hfirst : w.FirstAt l'.calls k) (hstep : InStep k l a d b) :
    (∃ a' d' b', Performs (e.interruptedAt w.analysis) (s.interruptedAt w.delivery) o tasks
      (l.counted a d b) outcome (l'.counted a' d' b')) ∨
    ∃ cut a' d' b', Performs (e.interruptedAt w.analysis) (s.interruptedAt w.delivery) o tasks
      (l.counted a d b) (.ok .cancelled) (counted cut a' d' b') ∧ CutShort k cut l' := by
  induction h generalizing a d b with
  | done l => exact .inl ⟨a, d, b, .done _⟩
  | @stop t l l' outcome rest step =>
    rcases t.target?_eq_none_or_file with ht | ⟨configs, f, rfl⟩
    · exact .inl ⟨a, d, b, .stop rest (step.counted_of_no_target ht w a d b)⟩
    · cases b with
      | true =>
        exact .inr ⟨_, a, d, true, .stop rest (.interrupted configs f rfl),
          hstep.cutShort (.stop rest step)⟩
      | false =>
        obtain ⟨a', d', b', hother, -⟩ :=
          step.counted_of_file hstep.cancelled hstep.started w a d
        exact .inl ⟨a', d', b', .stop rest hother⟩
  | @next t rest l l₁ l' outcome step performs ih =>
    rcases t.target?_eq_none_or_file with ht | ⟨configs, f, rfl⟩
    · have hother := step.counted_of_no_target ht w a d b
      rcases ih hfirst (hstep.of_no_target step ht) with
        ⟨a', d', b', hsame⟩ | ⟨cut, a', d', b', hends, hcut⟩
      · exact .inl ⟨a', d', b', .next hother hsame⟩
      · exact .inr ⟨cut, a', d', b', .next hother hends, hcut⟩
    · cases b with
      | true =>
        exact .inr ⟨_, a, d, true, .stop rest (.interrupted configs f rfl),
          hstep.cutShort (.next step performs)⟩
      | false =>
        obtain ⟨_, _, _, hother, hended⟩ :=
          step.counted_of_file hstep.cancelled hstep.started w a d
        obtain ⟨r, hbooked, rfl, rfl, rfl⟩ := hended rfl
        rcases ih hfirst (hstep.of_turn hfirst step hbooked performs.calls_prefix) with
          ⟨a', d', b', hsame⟩ | ⟨cut, a', d', b', hends, hcut⟩
        · exact .inl ⟨a', d', b', .next hother hsame⟩
        · exact .inr ⟨cut, a', d', b', .next hother hends, hcut⟩

end Live

/-! ## Before the first file -/

namespace Search

variable {σ : Type}

/-- The resolution with a count beside the state of the engine. -/
def counted (s : Search σ) (count : Nat) : Search (σ × Nat) :=
  ⟨(s.engine, count), s.visited, s.loaded, s.events, s.interrupted⟩

theorem counted_load (e : Engine σ) (during : Nat → Bool) (d : Disk) (p : Path) (s : Search σ)
    (count : Nat) :
    (s.counted count).load (e.interruptedAt during) d p =
      ((s.load e.undisturbed d p).1, (s.load e.undisturbed d p).2.counted count) := by
  unfold load
  simp only [Engine.interruptedAt, Engine.undisturbed, Answer.counted, counted]
  cases (e.loadConfig d p s.engine).value <;> rfl

theorem counted_workOff (e : Engine σ) (during : Nat → Bool) (d : Disk) (loads : Nat)
    (queue : List Path) (s : Search σ) (count : Nat) :
    workOff (e.interruptedAt during) d loads queue (s.counted count) =
      ((workOff e.undisturbed d loads queue s).1,
        (workOff e.undisturbed d loads queue s).2.counted count) := by
  fun_induction workOff e.undisturbed d loads queue s with
  | case1 loads queue s hnext =>
    unfold workOff
    simp only [counted, hnext]
  | case2 queue s p rest hnext =>
    unfold workOff
    simp only [counted, hnext]
  | case3 queue s p rest hnext loads err s₁ hload =>
    have hcounted := counted_load e during d p s count
    have hsame : queue.dropWhile ((s.counted count).visited.contains ·) = p :: rest := hnext
    rw [hload] at hcounted
    unfold workOff
    simp only [hsame, hcounted]
  | case4 queue s p rest hnext loads c s₁ hload ih =>
    have hcounted := counted_load e during d p s count
    have hsame : queue.dropWhile ((s.counted count).visited.contains ·) = p :: rest := hnext
    rw [hload] at hcounted
    rw [← ih]
    conv_lhs => unfold workOff
    simp only [hsame, hcounted]

theorem load_undisturbed_interrupted (e : Engine σ) (d : Disk) (p : Path) (s : Search σ) :
    (s.load e.undisturbed d p).2.interrupted = s.interrupted := by
  unfold load
  simp only [Engine.undisturbed, Bool.or_false]
  cases (e.loadConfig d p s.engine).value <;> rfl

theorem workOff_undisturbed_interrupted (e : Engine σ) (d : Disk) (loads : Nat)
    (queue : List Path) (s : Search σ) :
    (workOff e.undisturbed d loads queue s).2.interrupted = s.interrupted := by
  fun_induction workOff e.undisturbed d loads queue s with
  | case1 loads queue s hnext => rfl
  | case2 queue s p rest hnext => rfl
  | case3 queue s p rest hnext loads err s₁ hload =>
    rw [← load_undisturbed_interrupted e d p s, hload]
  | case4 queue s p rest hnext loads c s₁ hload ih =>
    rw [ih, ← load_undisturbed_interrupted e d p s, hload]

end Search

theorem counted_resolveGroups {σ : Type} (e : Engine σ) (during : Nat → Bool) (d : Disk)
    (loads : Nat) (seeds : List Path) (files : List SourceFile) (start : σ) (count : Nat) :
    resolveGroups (e.interruptedAt during) d loads seeds files (start, count) =
      ((resolveGroups e.undisturbed d loads seeds files start).1,
        (resolveGroups e.undisturbed d loads seeds files start).2.counted count) ∧
    (resolveGroups e.undisturbed d loads seeds files start).2.interrupted = false := by
  have hcounted := Search.counted_workOff e during d loads (seeds.map Path.normalize)
    (Search.start start) count
  have hflag := Search.workOff_undisturbed_interrupted e d loads (seeds.map Path.normalize)
    (Search.start start)
  have hstart : (Search.start start).counted count = Search.start (start, count) := rfl
  rw [hstart] at hcounted
  unfold resolveGroups resolve
  split
  · exact ⟨rfl, rfl⟩
  · rw [hcounted]
    rcases hwork : Search.workOff e.undisturbed d loads (seeds.map Path.normalize)
      (Search.start start) with ⟨_ | err | configs, s⟩ <;>
    · rw [hwork] at hflag
      exact ⟨rfl, hflag⟩

namespace Live

variable {σ τ : Type}

theorem counted_setUpLinter (e : Engine σ) (w : Interruptions) (o : RunOptions) (l : Live σ τ)
    (a d : Nat) (b : Bool) :
    (l.counted a d b).setUpLinter (e.interruptedAt w.analysis) o =
      ((l.setUpLinter e.undisturbed o).1, (l.setUpLinter e.undisturbed o).2.counted a d b) := by
  unfold setUpLinter
  simp only [Engine.interruptedAt, Engine.undisturbed, Answer.counted, counted]
  cases (e.setUp l.disk o.setup l.engine).value <;> cases b <;> rfl

theorem counted_generate (around : Surroundings) (o : RunOptions) (files : List SourceFile)
    (l : Live σ τ) (a d : Nat) (b : Bool) :
    (l.counted a d b).generate around o files =
      ((l.generate around o files).1, (l.generate around o files).2.counted a d b) := by
  unfold generate
  simp only [counted, say_eq_emitAll, emitAll_disk]
  cases Generated.create l.disk around.fresh o.language files <;> rfl

theorem counted_planGroups (e : Engine σ) (w : Interruptions) (around : Surroundings)
    (seeds : List Path) (files : List SourceFile) (l : Live σ τ) (a d : Nat) (b : Bool) :
    (l.counted a d b).planGroups (e.interruptedAt w.analysis) around seeds files =
      ((l.planGroups e.undisturbed around seeds files).1,
        (l.planGroups e.undisturbed around seeds files).2.counted a d b) := by
  obtain ⟨hcounted, hflag⟩ :=
    counted_resolveGroups e w.analysis l.disk around.loads seeds files l.engine a
  unfold planGroups
  simp only [counted, hcounted]
  rcases hgroups : resolveGroups e.undisturbed l.disk around.loads seeds files l.engine with
    ⟨_ | err | groups, s⟩ <;>
  · have hcalm : s.interrupted = false := by rwa [hgroups] at hflag
    simp [Search.counted, hcalm, emitAll]

theorem counted_plan (e : Engine σ) (w : Interruptions) (around : Surroundings)
    (o : RunOptions) (mode : RunMode) (files : List SourceFile) (l : Live σ τ) (a d : Nat)
    (b : Bool) :
    (l.counted a d b).plan (e.interruptedAt w.analysis) around o mode files =
      ((l.plan e.undisturbed around o mode files).1,
        (l.plan e.undisturbed around o mode files).2.counted a d b) := by
  have hgenerate := counted_generate around o files l a d b
  cases mode with
  | plain given =>
    unfold plan planPlain
    simp only [hgenerate]
    split
    · rcases l.generate around o files with ⟨f | done, l'⟩ <;> rfl
    · rfl
  | configured seeds =>
    unfold plan
    simp only [hgenerate]
    split
    · rcases l.generate around o files with ⟨f | done, l'⟩
      · rfl
      · exact counted_planGroups e w around _ files l' a d b
    · exact counted_planGroups e w around seeds files l a d b

/-- Nobody interrupts while the run that is left alone makes its plan. -/
theorem plan_undisturbed_cancelled (e : Engine σ) (around : Surroundings) (o : RunOptions)
    (mode : RunMode) (files : List SourceFile) (l : Live σ τ) :
    (l.plan e.undisturbed around o mode files).2.cancelled = l.cancelled := by
  have hgenerate : (l.generate around o files).2.cancelled = l.cancelled := by
    unfold generate
    simp only
    split <;> rfl
  have hgroups : ∀ (seeds : List Path) (l : Live σ τ),
      (l.planGroups e.undisturbed around seeds files).2.cancelled = l.cancelled := by
    intro seeds l
    have hflag := (counted_resolveGroups e (fun _ => false) l.disk around.loads seeds files
      l.engine 0).2
    unfold planGroups
    rcases hresolve : resolveGroups e.undisturbed l.disk around.loads seeds files l.engine with
      ⟨_ | err | groups, s⟩ <;>
    · have hcalm : s.interrupted = false := by rwa [hresolve] at hflag
      simp [hcalm]
  cases mode with
  | plain given =>
    unfold plan planPlain
    simp only
    split
    · rcases hresult : l.generate around o files with ⟨f | done, l'⟩ <;>
      · rw [hresult] at hgenerate
        exact hgenerate
    · rfl
  | configured seeds =>
    unfold plan
    simp only
    split
    · rcases hresult : l.generate around o files with ⟨f | done, l'⟩
      · rw [hresult] at hgenerate
        exact hgenerate
      · rw [hresult] at hgenerate
        exact (hgroups _ l').trans hgenerate
    · exact hgroups seeds l

theorem setUpLinter_undisturbed_cancelled (e : Engine σ) (o : RunOptions) (l : Live σ τ) :
    (l.setUpLinter e.undisturbed o).2.cancelled = l.cancelled := by
  unfold setUpLinter
  simp only [Engine.undisturbed]
  cases (e.setUp l.disk o.setup l.engine).value <;> simp

/-- Where the two runs stand when the first task is due. -/
theorem inStep_startProgress {e : Engine σ} {o : RunOptions} {mode : RunMode}
    {files : List SourceFile} {batches : List Batch} {loads calls : List Call}
    {l l₁ : Live σ τ} {start : τ} {recording : Bool} {w : Interruptions} {k : Nat}
    (hcalls : l.calls = []) (hopening : l.ledger = .opening start recording)
    (hprepared : Prepared e (.setUp o.setup (.ok ()) :: loads) l l₁)
    (hplanning : Planning files mode (some (.ok (.batches batches))) loads)
    (hcancelled : l₁.cancelled = false) (hfirst : w.FirstAt calls k) :
    InStep k (l₁.startProgress o batches) 0 0 w.before := by
  have hquiet := hplanning.no_request o
  have hledger : (l₁.startProgress o batches).ledger = .opening start recording := by
    rw [ledger_startProgress, hprepared.ledger hquiet, hopening]
    rfl
  refine ⟨hcancelled, rfl, ?_, ?_, ?_, ?_, Nat.zero_le k, hfirst.before_eq⟩
  · have htraced := hprepared.toTraced.trans (traced_startProgress e o batches l₁)
    rw [htraced.calls, hcalls, List.nil_append, List.append_nil, subjectsOf_eq_nil hquiet]
    rfl
  · rw [hledger]
    rfl
  · rw [hledger]
    rfl
  · rw [hledger]
    rfl

/-- A run that is interrupted goes through its phases as the one that is left alone does,
or it is cut short. -/
theorem execute_counted (e : Engine σ) (s : Sink τ) (around : Surroundings) (o : RunOptions)
    (mode : RunMode) (files : List SourceFile) {l l' : Live σ τ}
    {outcome : Option (Except RunError RunState)} {start : τ} {recording : Bool}
    {w : Interruptions} {k : Nat} (hidle : l.recorder.current = none)
    (hcancelled : l.cancelled = false) (hcalls : l.calls = [])
    (hopening : l.ledger = .opening start recording)
    (hexecute : l.execute e.undisturbed s.undisturbed around o mode files = (outcome, l'))
    (hfirst : w.FirstAt l'.calls k) :
    (∃ a d b, (l.counted 0 0 w.before).execute (e.interruptedAt w.analysis)
      (s.interruptedAt w.delivery) around o mode files = (outcome, l'.counted a d b)) ∨
    ∃ ending cut a d b, outcome = some ending ∧
      (l.counted 0 0 w.before).execute (e.interruptedAt w.analysis)
        (s.interruptedAt w.delivery) around o mode files =
          (some (.ok .cancelled), counted cut a d b) ∧ CutShort k cut l' := by
  have hpasses := execute_passes e.undisturbed s.undisturbed around o mode files hidle
  rw [hexecute] at hpasses
  have hset : ∀ {result : Except RunError Unit} {l₁ : Live σ τ},
      l.setUpLinter e.undisturbed o = (result, l₁) →
      (l.counted 0 0 w.before).setUpLinter (e.interruptedAt w.analysis) o =
        (result, l₁.counted 0 0 w.before) := by
    intro result l₁ hsetUp
    rw [counted_setUpLinter, hsetUp]
  have hplanned : ∀ {l₁ l₂ : Live σ τ} {result : Option (Except RunError Plan)},
      l₁.plan e.undisturbed around o mode files = (result, l₂) →
      (l₁.counted 0 0 w.before).plan (e.interruptedAt w.analysis) around o mode files =
        (result, l₂.counted 0 0 w.before) := by
    intro l₁ l₂ result hplan
    rw [counted_plan, hplan]
  cases hpasses with
  | setUpFailed hsetUp =>
    exact .inl ⟨0, 0, w.before, (Passes.setUpFailed (hset hsetUp)).execute_eq hidle⟩
  | endless hsetUp hplan =>
    exact .inl ⟨0, 0, w.before, (Passes.endless (hset hsetUp) (hplanned hplan)).execute_eq hidle⟩
  | planFailed hsetUp hplan =>
    exact .inl ⟨0, 0, w.before, (Passes.planFailed (hset hsetUp) (hplanned hplan)).execute_eq hidle⟩
  | nothing hsetUp hplan =>
    exact .inl ⟨0, 0, w.before, (Passes.nothing (hset hsetUp) (hplanned hplan)).execute_eq hidle⟩
  | @fed batches ending l₁ l₂ _ hsetUp hplan hperforms =>
    obtain ⟨loads, hprepared, hplanning⟩ := prepared_of_plan hsetUp hplan
    have hflag := setUpLinter_undisturbed_cancelled e o l
    have hplanFlag := plan_undisturbed_cancelled e around o mode files l₁
    rw [hsetUp] at hflag
    rw [hplan] at hplanFlag
    have hcancelled₂ : l₂.cancelled = false := hplanFlag.trans (hflag.trans hcancelled)
    have hstep := inStep_startProgress hcalls hopening hprepared hplanning hcancelled₂ hfirst
    rcases hperforms.counted hfirst hstep with ⟨a, d, b, hsame⟩ | ⟨cut, a, d, b, hends, hcut⟩
    · left
      exact ⟨a, d, b, (Passes.fed (hset hsetUp) (hplanned hplan) hsame).execute_eq hidle⟩
    · right
      exact ⟨ending, cut, a, d, b, rfl,
        (Passes.fed (hset hsetUp) (hplanned hplan) hends).execute_eq hidle, hcut⟩

end Live

/-! ## Runs -/

/-- What a finished run has come to: its result, its summary, and all that it asked of the
engine and handed to the sink. -/
def Finished.seen {σ τ : Type} (f : Finished σ τ) :
    Except RunError RunSummary × RunSummary × List Call × List (Path × Response) :=
  (f.result, f.session.summary, f.calls, f.deliveries)

/-- The summary that closing stores. -/
def Live.closingSummary {σ τ : Type} (outcome : Except RunError RunState) (l : Live σ τ) :
    RunSummary :=
  { l.summary with
    progressTally := l.tally
    metricRecords := l.recorder.files.length
    state := Live.finalState outcome }

/-- What is seen of a finished run was there before it closed. -/
theorem Session.seen_after {σ τ : Type} (around : Surroundings)
    (outcome : Except RunError RunState) (l : Live σ τ) :
    (after outcome (l.finish around outcome)).seen =
      (outcome.map fun _ => l.closingSummary outcome, l.closingSummary outcome, l.calls,
        l.deliveries) := by
  have hclosed := l.finish_closed around outcome
  have hsummary : (l.finish around outcome).summary = l.closingSummary outcome := hclosed.summary
  have hcalls : callsAt (l.finish around outcome).moments = l.calls := hclosed.calls
  have hdeliveries : deliveriesAt (l.finish around outcome).moments = l.deliveries :=
    hclosed.deliveries
  cases outcome <;>
    simp [Finished.seen, after, Finished.calls, Finished.deliveries, hsummary, hcalls,
      hdeliveries, Except.map]

namespace Session

variable {σ τ : Type}

/-- The run of a session that nobody interrupts. -/
def runAlone (e : Engine σ) (s : Sink τ) (around : Surroundings) (o : RunOptions)
    (mode : RunMode) (files : List SourceFile) (n : Session σ τ) : Option (Finished σ τ) :=
  n.undisturbed.run e.undisturbed s.undisturbed around o mode files

/-- The same run when the user interrupts as given. -/
def runInterrupted (w : Interruptions) (e : Engine σ) (s : Sink τ) (around : Surroundings)
    (o : RunOptions) (mode : RunMode) (files : List SourceFile) (n : Session σ τ) :
    Option (Finished (σ × Nat) (τ × Nat)) :=
  (n.counted w.before).run (e.interruptedAt w.analysis) (s.interruptedAt w.delivery) around o
    mode files

/-- A session that was used before is not run again, interrupted or not. -/
theorem runInterrupted_of_started {w : Interruptions} {e : Engine σ} {s : Sink τ}
    {around : Surroundings} {o : RunOptions} {mode : RunMode} {files : List SourceFile}
    {n : Session σ τ} {whole : Finished σ τ} (hstarted : n.state ≠ .notStarted)
    (hwhole : n.runAlone e s around o mode files = some whole) :
    ∃ cut, n.runInterrupted w e s around o mode files = some cut ∧ cut.seen = whole.seen := by
  have hrefused : n.runAlone e s around o mode files =
      some ⟨.error .alreadyStarted, [], n.undisturbed⟩ := if_pos hstarted
  obtain rfl := Option.some.inj (hrefused.symm.trans hwhole)
  exact ⟨⟨.error .alreadyStarted, [], n.counted w.before⟩, if_pos hstarted, rfl⟩

/-- The parts of what is seen of a finished run. -/
theorem seen_parts (around : Surroundings) (outcome : Except RunError RunState) (l : Live σ τ)
    {fin : Finished σ τ} (h : after outcome (l.finish around outcome) = fin) :
    fin.result = outcome.map (fun _ => l.closingSummary outcome) ∧ fin.calls = l.calls ∧
      fin.deliveries = l.deliveries := by
  have hseen := seen_after around outcome l
  rw [h] at hseen
  obtain ⟨hresult, -, hcalls, hdeliveries⟩ : _ ∧ _ ∧ _ ∧ _ := by
    simpa [Finished.seen] using hseen
  exact ⟨hresult, hcalls, hdeliveries⟩

end Session

/-- A run that is interrupted for the first time before it begins, or during the analysis
with a given number or its delivery, beside the run with the same engine, sink and files
that nobody interrupts.  Either nothing differs in what is seen of them.  Or the run that
was interrupted has made fewer calls, namely those of the other one up to some point,
and as many requests among them as that number says; it has delivered what the other one
had delivered up to there, and returns a summary that says it was cancelled and counts
these requests. -/
theorem interrupted_run_is_cut_short {σ τ : Type} {e : Engine σ} {s : Sink τ}
    {around : Surroundings} {o : RunOptions} {mode : RunMode} {files : List SourceFile}
    {n : Session σ τ} {whole : Finished σ τ} {w : Interruptions} {k : Nat}
    (hwhole : n.runAlone e s around o mode files = some whole)
    (hfirst : w.FirstAt whole.calls k) :
    ∃ cut, n.runInterrupted w e s around o mode files = some cut ∧
      (cut.seen = whole.seen ∨
        (cut.calls <+: whole.calls ∧ cut.calls ≠ whole.calls ∧
          (cut.calls.filterMap Call.request?).length = k ∧
          cut.deliveries <+: whole.deliveries ∧
          ∃ summary, cut.result = .ok summary ∧ summary.state = .cancelled ∧
            summary.requestsIssued = k)) := by
  by_cases hnew : n.state = .notStarted
  · have hnewAlone : n.undisturbed.state = .notStarted := hnew
    have hnewCounted : (n.counted w.before).state = .notStarted := hnew
    obtain ⟨outcome, l, hexecute, hfin⟩ := (Session.run_eq_some_iff hnewAlone).mp hwhole
    obtain ⟨-, hcalls, hdeliveries⟩ := Session.seen_parts around outcome l hfin
    rw [hcalls] at hfirst
    obtain ⟨timed, hrecorder⟩ := n.undisturbed.begin_recorder around o
    have hidle : (n.undisturbed.begin_ around o).recorder.current = none := by
      rw [hrecorder]
      rfl
    rcases Live.execute_counted e s around o mode files hidle rfl rfl
      (n.undisturbed.begin_ledger around o) hexecute hfirst with
      ⟨a, d, b, hsame⟩ | ⟨ending, cut, a, d, b, -, hends, hcut⟩
    · refine ⟨_, (Session.run_eq_some_iff hnewCounted).mpr ⟨outcome, _, hsame, rfl⟩, .inl ?_⟩
      rw [← hfin, Session.seen_after, Session.seen_after]
      rfl
    · refine ⟨_, (Session.run_eq_some_iff hnewCounted).mpr ⟨.ok .cancelled, _, hends, rfl⟩,
        .inr ?_⟩
      obtain ⟨hresult, hcutCalls, hcutDeliveries⟩ :=
        Session.seen_parts around (.ok .cancelled) (cut.counted a d b) rfl
      rw [hcutCalls, hcutDeliveries, hcalls, hdeliveries]
      refine ⟨hcut.calls, hcut.shorter, ?_, hcut.deliveries, _, hresult, rfl, hcut.issued⟩
      have hrequests := hcut.requests
      rwa [subjectsOf, List.length_map] at hrequests
  · obtain ⟨cut, hrun, hseen⟩ := Session.runInterrupted_of_started (w := w) hnew hwhole
    exact ⟨cut, hrun, .inl hseen⟩

/-- The user interrupts while the sink is handed its first answer. -/
def firstDelivery : Interruptions := ⟨false, fun _ => false, fun before => before = 0⟩

/-- The first of two groups has one file.  The run is interrupted during the delivery of
its answer, still lets the engine forget the first configuration, and stops at the second
group. -/
theorem run_firstDelivery_is_cut_short :
    ∃ whole cut,
      (Session.new () 0 default).runAlone willingEngine .counting
        { (default : Surroundings) with loads := 2 } default
        (.configured [⟨"/p/a/t.json"⟩, ⟨"/p/t.json"⟩])
        [.main ⟨"/p/y.ts"⟩, .main ⟨"/p/a/x.ts"⟩, .main ⟨"/p/z.ts"⟩] = some whole ∧
      firstDelivery.FirstAt whole.calls 1 ∧
      (Session.new () 0 default).runInterrupted firstDelivery willingEngine .counting
        { (default : Surroundings) with loads := 2 } default
        (.configured [⟨"/p/a/t.json"⟩, ⟨"/p/t.json"⟩])
        [.main ⟨"/p/y.ts"⟩, .main ⟨"/p/a/x.ts"⟩, .main ⟨"/p/z.ts"⟩] = some cut ∧
      (whole.calls.length = 10 ∧ cut.calls.length = 6) ∧
      cut.calls <+: whole.calls ∧ (cut.calls.filterMap Call.request?).length = 1 ∧
      ∃ summary, cut.result = .ok summary ∧ summary.state = .cancelled ∧
        summary.requestsIssued = 1 := by
  have halone : ((Session.new () 0 default).runAlone willingEngine .counting
      { (default : Surroundings) with loads := 2 } default
      (.configured [⟨"/p/a/t.json"⟩, ⟨"/p/t.json"⟩])
      [.main ⟨"/p/y.ts"⟩, .main ⟨"/p/a/x.ts"⟩, .main ⟨"/p/z.ts"⟩]).map
        (fun whole => (firstDelivery.strikes (whole.calls.filterMap Call.response?) 0,
          whole.calls.length)) = some (true, 10) := by
    decide +kernel
  have hinterrupted : ((Session.new () 0 default).runInterrupted firstDelivery willingEngine
      .counting { (default : Surroundings) with loads := 2 } default
      (.configured [⟨"/p/a/t.json"⟩, ⟨"/p/t.json"⟩])
      [.main ⟨"/p/y.ts"⟩, .main ⟨"/p/a/x.ts"⟩, .main ⟨"/p/z.ts"⟩]).map
        (fun cut => cut.calls.length) = some 6 := by
    decide +kernel
  obtain ⟨whole, hwhole, hpair⟩ := Option.map_eq_some_iff.mp halone
  obtain ⟨hstruck, hlong⟩ := Prod.mk.inj hpair
  have hfirst : firstDelivery.FirstAt whole.calls 1 := .during 0 rfl (by simp) hstruck
  obtain ⟨cut, hrun, hcases⟩ := interrupted_run_is_cut_short hwhole hfirst
  have hshort : cut.calls.length = 6 := by simpa [hrun] using hinterrupted
  rcases hcases with hseen | ⟨hcalls, -, hrequests, -, hsummary⟩
  · have hsame : cut.calls = whole.calls := congrArg (fun seen => seen.2.2.1) hseen
    rw [hsame, hlong] at hshort
    cases hshort
  · exact ⟨whole, cut, hwhole, hfirst, hrun, ⟨hlong, hshort⟩, hcalls, hrequests, hsummary⟩

end LintRelay
