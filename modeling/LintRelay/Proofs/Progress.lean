import LintRelay.Progress
import LintRelay.Proofs.Text.Span
set_option autoImplicit false

/-!
# The life of a reporter

A reporter is closed by a stop, by a cancellation or when its owner lets go of it, and all three
share one way to do it: a signal is sent to the ticker, the call waits until the ticker has ended,
and only then it logs its line.  The ticker is a task of its own.  It reports at any time until it
has received the signal, also while a call waits for it, and it may die at any time.

`Life` puts the two side by side.  The calls are those of the reporter (`perform`), and a call that
closes it is carried out when the ticker has ended.  However the moves of the two are mixed, a
reporter is running, closing or closed (`Stage`), and has logged one closing line when it is closed
(`reporter_closes_once`).
-/

namespace LintRelay.Progress

/-! ## Reports at an instant -/

/-- The reporter at an instant when the given number of targets is counted. -/
def showing (p : Progress) (n : Nat) : Progress := { p with processed := n }

/-- The reporter when it has been closed. -/
def closed (p : Progress) : Progress := { p with running := false }

theorem close_fst (p : Progress) (last : Log.Line) : (p.close last).1 = p.closed := by
  unfold close closed
  cases p with
  | mk label targets processed running ticking => cases running <;> rfl

theorem close_snd_ne_nil {p : Progress} (hrunning : p.running = true) (last : Log.Line) :
    (p.close last).2 ≠ [] := by
  simp [close, hrunning]

/-! ## Calls -/

/-- What the owner of a reporter does with it. -/
inductive Act where
  | nextFile
  | stop
  | cancel
  /-- The owner lets go of the reporter. -/
  | drop
  deriving DecidableEq, Repr

/-- The reporter after a call, and what the call logs.  To let go of a reporter cancels it. -/
def perform (p : Progress) : Act → Progress × List Log.Line
  | .nextFile => (p.nextFile, [])
  | .stop => p.stop
  | .cancel => p.cancel
  | .drop => p.cancel

/-- The line of a reporter that is closed by the given call when so many of its targets have been
processed: success for a stop, an interruption otherwise. -/
def closingLine (label : String) (total n : Nat) : Act → Log.Line
  | .stop =>
    line .info (label ++ ": " ++ Decimal.natText n ++ "/" ++ Decimal.natText total ++
      " source files have been analyzed")
  | _ =>
    line .warn (label ++ ": analysis stopped after " ++ Decimal.natText n ++ "/" ++
      Decimal.natText total ++ " source files")

/-- The line says that a reporter is closed. -/
def IsClosing (label : String) (total : Nat) (l : Log.Line) : Prop :=
  ∃ n closer, closer ≠ .nextFile ∧ l = closingLine label total n closer

theorem perform_of_running {p : Progress} (hrunning : p.running = true) {closer : Act}
    (hcloser : closer ≠ .nextFile) :
    p.perform closer =
      (p.closed, p.tickerEnd ++ [closingLine p.label p.targets.length p.processed closer]) := by
  cases closer with
  | nextFile => exact absurd rfl hcloser
  | stop => simp [perform, stop, close, hrunning, closed, closingLine, share, String.append_assoc]
  | cancel | drop =>
    simp [perform, cancel, close, hrunning, closed, closingLine, share, String.append_assoc]

theorem perform_of_closed {p : Progress} (hclosed : p.running = false) {closer : Act}
    (hcloser : closer ≠ .nextFile) : p.perform closer = (p, []) := by
  cases closer with
  | nextFile => exact absurd rfl hcloser
  | stop => simp [perform, stop, close, hclosed]
  | cancel | drop => simp [perform, cancel, close, hclosed]

/-! ## Lines that close nothing -/

theorem isDigit_of_mem_natText {n : Nat} {c : Char} (h : c ∈ (Decimal.natText n).toList) :
    c.isDigit = true := by
  rw [Decimal.natText, String.toList_ofList] at h
  exact Nat.isDigit_of_mem_toDigits (by decide) (by decide) h

/-- What follows a number in a text does not depend on the number. -/
theorem dropWhile_natText_append (n : Nat) {s : List Char}
    (hs : ∀ c ∈ s.head?, c.isDigit = false) :
    ((Decimal.natText n).toList ++ s).dropWhile Char.isDigit = s :=
  Text.dropWhile_append_of_head? (fun _ hc => isDigit_of_mem_natText hc) hs

theorem not_isClosing_of_debug {label : String} {total : Nat} (message : String) :
    ¬ IsClosing label total (line .debug message) := by
  rintro ⟨n, closer, -, hline⟩
  cases closer <;> cases hline

/-- Of information, only the line of a stop closes a reporter.  It goes on behind its first number
with the second one. -/
theorem IsClosing.behind_number {label : String} {total k : Nat} {l : Log.Line} {rest : List Char}
    (h : IsClosing label total l) (hinfo : l.level = .info)
    (hmessage : l.message.toList =
      label.toList ++ (": ".toList ++ ((Decimal.natText k).toList ++ rest)))
    (hrest : ∀ c ∈ rest.head?, c.isDigit = false) :
    rest = "/".toList ++
      ((Decimal.natText total).toList ++ " source files have been analyzed".toList) := by
  obtain ⟨n, closer, hcloser, rfl⟩ := h
  cases closer with
  | nextFile => exact absurd rfl hcloser
  | stop =>
    simp only [closingLine, line, String.toList_append, List.append_assoc] at hmessage
    have hnumbers := List.append_cancel_left (List.append_cancel_left hmessage)
    have hbehind := congrArg (List.dropWhile Char.isDigit) hnumbers
    rw [dropWhile_natText_append n (by simp), dropWhile_natText_append k hrest] at hbehind
    exact hbehind.symm
  | cancel | drop => cases hinfo

/-- The line at the start has no second number. -/
theorem not_isClosing_start (label : String) (total : Nat) :
    ¬ IsClosing label total
      (line .info (label ++ ": " ++ Decimal.natText total ++ " source files to be analyzed")) := by
  intro h
  have hbehind := h.behind_number rfl
    (by simp only [line, String.toList_append, List.append_assoc]; rfl) (by simp)
  simp at hbehind

/-- A report goes on differently behind its two numbers. -/
theorem not_isClosing_report (p : Progress) : ¬ IsClosing p.label p.targets.length p.report := by
  intro h
  have hbehind := h.behind_number rfl
    (by simp only [report, line, share, String.toList_append, List.append_assoc]; rfl) (by simp)
  simp at hbehind

/-! ## Lives -/

/-- What happens in the life of a reporter. -/
inductive Move where
  /-- The owner calls. -/
  | act (a : Act)
  /-- The call that waits for the ticker goes on and returns. -/
  | wake
  /-- The ticker reports. -/
  | tick
  /-- The ticker receives the signal and ends. -/
  | obey
  /-- The ticker dies by itself. -/
  | die
  deriving DecidableEq, Repr

/-- The call that a move is. -/
def Move.act? : Move → Option Act
  | .act a => some a
  | _ => none

/-- The calls among moves, in their order. -/
def callsOf (moves : List Move) : List Act := moves.filterMap Move.act?

@[simp] theorem callsOf_append (xs ys : List Move) :
    callsOf (xs ++ ys) = callsOf xs ++ callsOf ys :=
  List.filterMap_append

theorem callsOf_cons (m : Move) (moves : List Move) :
    callsOf (m :: moves) = m.act?.toList ++ callsOf moves := by
  cases m <;> rfl

/-- A reporter, and the task of its ticker. -/
structure Life where
  reporter : Progress
  /-- The ticker has not ended. -/
  alive : Bool
  /-- The call that has sent the signal to the ticker and waits until it has ended. -/
  waiting : Option Act
  log : List Log.Line
  deriving DecidableEq, Repr

namespace Life

/-- The life of a reporter at its start. -/
def begin (label : String) (targets : List String) (intervalMs : Nat) : Life :=
  ⟨(start label targets intervalMs).1, true, none, (start label targets intervalMs).2⟩

/-- The life when a call has been carried out. -/
def carryOut (l : Life) (a : Act) : Life :=
  { l with
    reporter := (l.reporter.perform a).1
    waiting := none
    log := l.log ++ (l.reporter.perform a).2 }

/-- The life after a move, if the move is possible.  The owner calls when no call waits, and a call
that closes the reporter waits for the ticker.  A ticker that works obeys the signal; a ticker that
does not is about to die. -/
def step (l : Life) : Move → Option Life
  | .act a =>
    if l.waiting.isSome then none
    else if a ≠ .nextFile ∧ l.reporter.running = true then some { l with waiting := some a }
    else some (l.carryOut a)
  | .wake => if l.alive = true then none else l.waiting.map l.carryOut
  | .tick =>
    if l.alive = true ∧ l.reporter.ticking = true then
      some { l with log := l.log ++ [l.reporter.report] }
    else none
  | .obey =>
    if l.alive = true ∧ l.reporter.ticking = true ∧ l.waiting.isSome then
      some { l with alive := false }
    else none
  | .die =>
    if l.alive = true then
      some { l with alive := false, reporter := { l.reporter with ticking := false } }
    else none

/-- The life after moves, if they are possible. -/
def follow (l : Life) : List Move → Option Life
  | [] => some l
  | m :: rest => (l.step m).bind fun next => next.follow rest

theorem follow_append (l : Life) (xs ys : List Move) :
    l.follow (xs ++ ys) = (l.follow xs).bind fun next => next.follow ys := by
  induction xs generalizing l with
  | nil => rfl
  | cons m xs ih =>
    rw [List.cons_append, follow, follow, Option.bind_assoc]
    exact congrArg (Option.bind (l.step m)) (funext ih)

theorem carryOut_nextFile (l : Life) :
    l.carryOut .nextFile = { l with reporter := l.reporter.nextFile, waiting := none } := by
  simp [carryOut, perform]

theorem carryOut_of_running {l : Life} (hrunning : l.reporter.running = true) {closer : Act}
    (hcloser : closer ≠ .nextFile) :
    l.carryOut closer =
      { l with
        reporter := l.reporter.closed
        waiting := none
        log := l.log ++ l.reporter.tickerEnd ++
          [closingLine l.reporter.label l.reporter.targets.length l.reporter.processed closer] } := by
  rw [carryOut, perform_of_running hrunning hcloser, List.append_assoc]

theorem carryOut_of_closed {l : Life} (hclosed : l.reporter.running = false) {closer : Act}
    (hcloser : closer ≠ .nextFile) : l.carryOut closer = { l with waiting := none } := by
  rw [carryOut, perform_of_closed hclosed hcloser, List.append_nil]

theorem step_tick_of_ended {l : Life} (hended : l.alive = false) : l.step .tick = none := by
  simp [step, hended]

end Life

/-! ## Stages -/

/-- The lines close nothing. -/
def Quiet (p : Progress) (log : List Log.Line) : Prop :=
  ∀ l ∈ log, ¬ IsClosing p.label p.targets.length l

theorem Quiet.append {p : Progress} {log more : List Log.Line} (h : Quiet p log)
    (hmore : Quiet p more) : Quiet p (log ++ more) :=
  List.forall_mem_append.mpr ⟨h, hmore⟩

/-- The reporter at an instant, with a ticker that works or does not. -/
def seen (p : Progress) (n : Nat) (ticking : Bool) : Progress :=
  { p.showing n with ticking := ticking }

theorem quiet_report (p : Progress) (n : Nat) (ticking : Bool) :
    Quiet p [(p.seen n ticking).report] := by
  intro l hl
  rw [List.mem_singleton.mp hl]
  exact not_isClosing_report (p.seen n ticking)

theorem quiet_tickerEnd (p : Progress) (n : Nat) (ticking : Bool) :
    Quiet p (p.seen n ticking).tickerEnd := by
  intro l hl
  unfold tickerEnd at hl
  split at hl
  · cases hl
  · rw [List.mem_singleton.mp hl]
    exact not_isClosing_of_debug _

/-- How far the life of a reporter `p` has come after calls.  While it runs, there were only calls
that count.  The first other call waits for the ticker, and no call is made meanwhile.  When that
call has returned, the ticker has ended, and calls do no more than count. -/
inductive Stage (p : Progress) : List Act → Life → Prop
  | running (n : Nat) {ticking alive : Bool} {log : List Log.Line} (hquiet : Quiet p log) :
    Stage p (List.replicate n .nextFile) ⟨p.seen n ticking, alive, none, log⟩
  | closing (n : Nat) {closer : Act} {ticking alive : Bool} {log : List Log.Line}
      (hcloser : closer ≠ .nextFile) (hquiet : Quiet p log) :
    Stage p (List.replicate n .nextFile ++ [closer]) ⟨p.seen n ticking, alive, some closer, log⟩
  | closed (n : Nat) {closer : Act} (later : List Act) {ticking : Bool} {earlier : List Log.Line}
      (hcloser : closer ≠ .nextFile) (hquiet : Quiet p earlier) :
    Stage p (List.replicate n .nextFile ++ closer :: later)
      ⟨(p.seen (n + later.count .nextFile) ticking).closed, false, none,
        earlier ++ [closingLine p.label p.targets.length n closer]⟩

namespace Stage

variable {p : Progress} {calls : List Act} {l : Life}

theorem act (hp : p.running = true) (h : Stage p calls l) {a : Act} {next : Life}
    (hstep : l.step (.act a) = some next) : Stage p (calls ++ [a]) next := by
  cases h with
  | @running n ticking alive log hquiet =>
    rw [Life.step, if_neg (by simp)] at hstep
    by_cases ha : a = .nextFile
    · subst ha
      rw [if_neg (by simp), Life.carryOut_nextFile] at hstep
      obtain rfl := Option.some.inj hstep
      rw [← List.replicate_succ']
      exact .running (n + 1) hquiet
    · rw [if_pos ⟨ha, hp⟩] at hstep
      obtain rfl := Option.some.inj hstep
      exact .closing n ha hquiet
  | closing n hcloser hquiet => simp [Life.step] at hstep
  | @closed n closer later ticking earlier hcloser hquiet =>
    rw [Life.step, if_neg (by simp), if_neg (by simp [Progress.closed])] at hstep
    obtain rfl := Option.some.inj hstep
    have hlater := @Stage.closed p n closer (later ++ [a]) ticking earlier hcloser hquiet
    rw [List.append_assoc, List.cons_append]
    by_cases ha : a = .nextFile
    · subst ha
      rw [List.count_append, List.count_singleton_self, ← Nat.add_assoc] at hlater
      rw [Life.carryOut_nextFile]
      exact hlater
    · rw [List.count_append, List.count_singleton, if_neg (by simpa using ha), Nat.add_zero]
        at hlater
      rw [Life.carryOut_of_closed rfl ha]
      exact hlater

/-- The call that waited is carried out, and was the one that closes the reporter. -/
theorem wake (hp : p.running = true) (h : Stage p calls l) {next : Life}
    (hstep : l.step .wake = some next) : Stage p calls next := by
  cases h with
  | running n hquiet => simp [Life.step] at hstep
  | @closing n closer ticking alive log hcloser hquiet =>
    have hrunning : (p.seen n ticking).running = true := hp
    cases alive with
    | true => simp [Life.step] at hstep
    | false =>
      obtain rfl := Option.some.inj hstep
      rw [Life.carryOut_of_running hrunning hcloser]
      exact .closed n [] hcloser (hquiet.append (quiet_tickerEnd p n ticking))
  | closed n later hcloser hquiet => simp [Life.step] at hstep

/-- A ticker that lives reports before the line that closes the reporter. -/
theorem tick (h : Stage p calls l) {next : Life} (hstep : l.step .tick = some next) :
    Stage p calls next := by
  obtain ⟨⟨halive, -⟩, hnext⟩ := Option.ite_none_right_eq_some.mp hstep
  obtain rfl := Option.some.inj hnext
  cases h with
  | @running n ticking alive log hquiet =>
    exact .running n (hquiet.append (quiet_report p n ticking))
  | @closing n closer ticking alive log hcloser hquiet =>
    exact .closing n hcloser (hquiet.append (quiet_report p n ticking))
  | closed n later hcloser hquiet => cases halive

theorem obey (h : Stage p calls l) {next : Life} (hstep : l.step .obey = some next) :
    Stage p calls next := by
  obtain ⟨-, hnext⟩ := Option.ite_none_right_eq_some.mp hstep
  obtain rfl := Option.some.inj hnext
  cases h with
  | running n hquiet => exact .running n hquiet
  | closing n hcloser hquiet => exact .closing n hcloser hquiet
  | closed n later hcloser hquiet => exact .closed n later hcloser hquiet

theorem die (h : Stage p calls l) {next : Life} (hstep : l.step .die = some next) :
    Stage p calls next := by
  obtain ⟨halive, hnext⟩ := Option.ite_none_right_eq_some.mp hstep
  obtain rfl := Option.some.inj hnext
  cases h with
  | running n hquiet => exact .running n hquiet
  | closing n hcloser hquiet => exact .closing n hcloser hquiet
  | closed n later hcloser hquiet => cases halive

/-- Every move keeps to the stages. -/
theorem step (hp : p.running = true) (h : Stage p calls l) {m : Move} {next : Life}
    (hstep : l.step m = some next) : Stage p (calls ++ m.act?.toList) next := by
  cases m with
  | act a => exact h.act hp hstep
  | wake => simpa [Move.act?] using h.wake hp hstep
  | tick => simpa [Move.act?] using h.tick hstep
  | obey => simpa [Move.act?] using h.obey hstep
  | die => simpa [Move.act?] using h.die hstep

theorem follow (hp : p.running = true) (h : Stage p calls l) {moves : List Move} {final : Life}
    (hfollow : l.follow moves = some final) : Stage p (calls ++ callsOf moves) final := by
  induction moves generalizing calls l with
  | nil =>
    obtain rfl := Option.some.inj hfollow
    rwa [callsOf, List.filterMap_nil, List.append_nil]
  | cons m moves ih =>
    obtain ⟨next, hstep, hrest⟩ := Option.bind_eq_some_iff.mp hfollow
    have hfinal := ih (h.step hp hstep) hrest
    rwa [List.append_assoc, ← callsOf_cons] at hfinal

/-! ## What holds in every stage -/

theorem processed_eq (h : Stage p calls l) : l.reporter.processed = calls.count .nextFile := by
  cases h with
  | running n hquiet => simp [seen, showing]
  | closing n hcloser hquiet => simp [seen, showing, hcloser]
  | closed n later hcloser hquiet => simp [seen, showing, Progress.closed, hcloser]

/-- When no call waits, the reporter is running if it has not been closed. -/
theorem running_iff (hp : p.running = true) (h : Stage p calls l) (hreturned : l.waiting = none) :
    l.reporter.running = true ↔ ∀ a ∈ calls, a = .nextFile := by
  cases h with
  | running n hquiet => exact iff_of_true hp fun a ha => List.eq_of_mem_replicate ha
  | closing n hcloser hquiet => cases hreturned
  | @closed n closer later ticking earlier hcloser hquiet =>
    refine iff_of_false Bool.false_ne_true fun hall => ?_
    exact hcloser (hall closer (by simp))

/-- A call that waits can return by moves of the ticker alone: a ticker that works obeys. -/
theorem exists_return (h : Stage p calls l) :
    ∃ moves final, callsOf moves = [] ∧ l.follow moves = some final ∧ final.waiting = none := by
  cases h with
  | running n hquiet => exact ⟨[], _, rfl, rfl, rfl⟩
  | closed n later hcloser hquiet => exact ⟨[], _, rfl, rfl, rfl⟩
  | @closing n closer ticking alive log hcloser hquiet =>
    have hwoken : (Life.mk (p.seen n ticking) false (some closer) log).follow [.wake] =
        some ((Life.mk (p.seen n ticking) false (some closer) log).carryOut closer) := rfl
    cases alive with
    | false => exact ⟨[.wake], _, rfl, hwoken, rfl⟩
    | true =>
      cases ticking with
      | true => exact ⟨[.obey, .wake], _, rfl, hwoken, rfl⟩
      | false => exact ⟨[.die, .wake], _, rfl, hwoken, rfl⟩

/-- Any further calls can be made, and all of them return. -/
theorem exists_calls (hp : p.running = true) (h : Stage p calls l) (acts : List Act) :
    ∃ moves final, callsOf moves = acts ∧ l.follow moves = some final ∧ final.waiting = none := by
  induction acts generalizing calls l with
  | nil => exact h.exists_return
  | cons a acts ih =>
    obtain ⟨before, idle, hbefore, hidle, hreturned⟩ := h.exists_return
    obtain ⟨next, hnext⟩ : ∃ next, idle.step (.act a) = some next := by
      rw [Life.step, hreturned, if_neg (by simp)]
      split <;> exact ⟨_, rfl⟩
    obtain ⟨after, final, hafter, hfinal, hlast⟩ := ih ((h.follow hp hidle).act hp hnext)
    refine ⟨before ++ .act a :: after, final, ?_, ?_, hlast⟩
    · rw [callsOf_append, hbefore, callsOf_cons, hafter]
      rfl
    · rw [Life.follow_append, hidle, Option.bind_some, Life.follow, hnext, Option.bind_some, hfinal]

/-- While the reporter runs, nothing that closes it has been logged. -/
theorem quiet_of_running (h : Stage p calls l) (hrunning : l.reporter.running = true) :
    Quiet p l.log := by
  cases h with
  | running n hquiet => exact hquiet
  | closing n hcloser hquiet => exact hquiet
  | closed n later hcloser hquiet => cases hrunning

/-- When the reporter has been closed, the ticker has ended, and the line of the call that closed
it is the last one and the only one of its kind. -/
theorem exists_closing_line (hp : p.running = true) (h : Stage p calls l)
    (hclosed : l.reporter.running = false) :
    l.alive = false ∧
    ∃ n closer later earlier, calls = List.replicate n .nextFile ++ closer :: later ∧
      closer ≠ .nextFile ∧ l.log = earlier ++ [closingLine p.label p.targets.length n closer] ∧
      Quiet p earlier := by
  cases h with
  | running n hquiet => exact absurd (hclosed.symm.trans hp) Bool.false_ne_true
  | closing n hcloser hquiet => exact absurd (hclosed.symm.trans hp) Bool.false_ne_true
  | @closed n closer later ticking earlier hcloser hquiet =>
    exact ⟨rfl, n, closer, later, earlier, rfl, hcloser, rfl, hquiet⟩

end Stage

theorem stage_begin (label : String) (targets : List String) (intervalMs : Nat) :
    Stage (start label targets intervalMs).1 [] (Life.begin label targets intervalMs) := by
  refine .running 0 ?_
  intro l hl
  rw [List.mem_singleton.mp hl]
  exact not_isClosing_start label targets.length

/-- A reporter is closed once.  At all times of its life, whatever its ticker does in between, it
has counted the calls that count, and any further calls can be made and return.  When no call
waits, it is running if there was no call but those.  While it runs, nothing is logged that closes
it.  When the first of the other calls has returned, the ticker reports no more, one line has been
logged that closes the reporter, with the number of targets counted until then, and it is the last
line of the log from then on. -/
theorem reporter_closes_once {label : String} {targets : List String} {intervalMs : Nat}
    {moves : List Move} {l : Life}
    (h : (Life.begin label targets intervalMs).follow moves = some l) :
    l.reporter.processed = (callsOf moves).count .nextFile ∧
    (∀ acts, ∃ more final, callsOf more = acts ∧ l.follow more = some final ∧
      final.waiting = none) ∧
    (l.waiting = none → (l.reporter.running = true ↔ ∀ a ∈ callsOf moves, a = .nextFile)) ∧
    (l.reporter.running = true → ∀ line ∈ l.log, ¬ IsClosing label targets.length line) ∧
    (l.reporter.running = false →
      l.step .tick = none ∧
      ∃ n closer later earlier,
        callsOf moves = List.replicate n .nextFile ++ closer :: later ∧ closer ≠ .nextFile ∧
        l.log = earlier ++ [closingLine label targets.length n closer] ∧
        ∀ line ∈ earlier, ¬ IsClosing label targets.length line) := by
  have hstage := (stage_begin label targets intervalMs).follow rfl h
  rw [List.nil_append] at hstage
  refine ⟨hstage.processed_eq, hstage.exists_calls rfl, hstage.running_iff rfl,
    hstage.quiet_of_running, ?_⟩
  intro hclosed
  obtain ⟨hended, n, closer, later, earlier, hcalls, hcloser, hlog, hquiet⟩ :=
    hstage.exists_closing_line rfl hclosed
  exact ⟨Life.step_tick_of_ended hended, n, closer, later, earlier, hcalls, hcloser, hlog, hquiet⟩

/-- A reporter is stopped while its ticker is busy, and used on. -/
def restlessMoves : List Move :=
  [.act .nextFile, .tick, .act .stop, .tick, .obey, .wake, .act .nextFile, .act .cancel, .act .drop]

/-- What comes of it: two reports at the count of one, and one line that closes the reporter. -/
def restlessLife : Life where
  reporter := ⟨"Analysis", ["a.js", "b.js"], 2, false, true⟩
  alive := false
  waiting := none
  log :=
    [line .info "Analysis: 2 source files to be analyzed",
     line .info "Analysis: 1/2 files analyzed, current file: b.js",
     line .info "Analysis: 1/2 files analyzed, current file: b.js",
     line .info "Analysis: 1/2 source files have been analyzed"]

theorem restlessLife_closes_once :
    (Life.begin "Analysis" ["a.js", "b.js"] 10).follow restlessMoves = some restlessLife ∧
    restlessLife.reporter.processed = (callsOf restlessMoves).count .nextFile ∧
    restlessLife.step .tick = none ∧
    ∃ n closer later earlier,
      callsOf restlessMoves = List.replicate n .nextFile ++ closer :: later ∧
      closer ≠ .nextFile ∧ restlessLife.log = earlier ++ [closingLine "Analysis" 2 n closer] ∧
      ∀ line ∈ earlier, ¬ IsClosing "Analysis" 2 line := by
  have hlife : (Life.begin "Analysis" ["a.js", "b.js"] 10).follow restlessMoves =
      some restlessLife := by
    decide +kernel
  obtain ⟨hcount, -, -, -, hclosed⟩ := reporter_closes_once hlife
  exact ⟨hlife, hcount, hclosed rfl⟩

end LintRelay.Progress
