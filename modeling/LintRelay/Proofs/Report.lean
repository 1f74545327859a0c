import Mathlib.Algebra.GroupWithZero.Nat
import Mathlib.Data.List.Induction
import LintRelay.Proofs.Run.Accounting
import LintRelay.Report.Basic
set_option autoImplicit false

/-!
# The totals of a report

The same findings are counted in several ways: all issues together, the issues of each rule, and
the issues of the files that a report lists.  Counting by rules is a way of grouping the rules of
all issues (`spread_issuesByRule`), from which the total and the number for each rule follow.  A
file that is not listed has no issue, so leaving it out does not change the total
(`sum_issues_withFindings`).  The number of files comes from another place, the summary of the run;
it agrees with the files that were collected because the accounts of a run balance
(`Session.handed_of_run`).
-/

namespace LintRelay

namespace Collected

/-! ## Counting by rules -/

/-- The rules of counts, each as often as it was counted. -/
def spread (counts : List (String × Nat)) : List String :=
  counts.flatMap fun e => List.replicate e.2 e.1

theorem length_spread (counts : List (String × Nat)) :
    (spread counts).length = (counts.map Prod.snd).sum := by
  simp [spread, List.length_flatMap]

/-- Counting one more issue adds its rule to those that were counted. -/
theorem spread_countRule (rule : String) (counts : List (String × Nat)) :
    (spread (countRule rule counts)).Perm (rule :: spread counts) := by
  induction counts with
  | nil => exact .refl _
  | cons e rest ih =>
    obtain ⟨r, n⟩ := e
    unfold countRule
    split_ifs with hsame hless
    · rw [hsame]
      exact .refl _
    · exact .refl _
    · have hrest : (List.replicate n r ++ spread (countRule rule rest)).Perm
          (List.replicate n r ++ rule :: spread rest) := ih.append_left _
      exact hrest.trans List.perm_middle

theorem mem_keys_countRule_iff {rule key : String} {counts : List (String × Nat)} :
    key ∈ (countRule rule counts).map Prod.fst ↔ key = rule ∨ key ∈ counts.map Prod.fst := by
  induction counts with
  | nil => simp [countRule]
  | cons e rest ih =>
    obtain ⟨r, n⟩ := e
    unfold countRule
    split_ifs with hsame hless
    · simp [hsame]
    · simp
    · rw [List.map_cons, List.mem_cons, ih, List.map_cons, List.mem_cons]
      exact or_left_comm

/-- The rules are in strictly increasing order, and each was counted. -/
structure Sorted (counts : List (String × Nat)) : Prop where
  increasing : (counts.map Prod.fst).Pairwise (· < ·)
  counted : ∀ e ∈ counts, 0 < e.2

theorem Sorted.countRule {counts : List (String × Nat)} (h : Sorted counts) (rule : String) :
    Sorted (countRule rule counts) := by
  induction counts with
  | nil => exact ⟨List.pairwise_singleton _ _, by simp [Collected.countRule]⟩
  | cons e rest ih =>
    obtain ⟨r, n⟩ := e
    obtain ⟨hincreasing, hcounted⟩ := h
    obtain ⟨hfirst, hrest⟩ := List.pairwise_cons.mp hincreasing
    obtain ⟨hn, hothers⟩ := List.forall_mem_cons.mp hcounted
    have hih := ih ⟨hrest, hothers⟩
    unfold Collected.countRule
    split_ifs with hsame hless
    · exact ⟨hincreasing, List.forall_mem_cons.mpr ⟨Nat.succ_pos n, hothers⟩⟩
    · refine ⟨List.pairwise_cons.mpr ⟨?_, hincreasing⟩,
        List.forall_mem_cons.mpr ⟨Nat.one_pos, hcounted⟩⟩
      intro key hkey
      rcases List.mem_cons.mp hkey with rfl | hkey
      · exact hless
      · exact String.lt_trans hless (hfirst key hkey)
    · refine ⟨List.pairwise_cons.mpr ⟨?_, hih.increasing⟩,
        List.forall_mem_cons.mpr ⟨hn, hih.counted⟩⟩
      intro key hkey
      rcases mem_keys_countRule_iff.mp hkey with rfl | hkey
      · exact String.not_le.mp fun hle => hsame (String.le_antisymm hle (String.not_lt.mp hless))
      · exact hfirst key hkey

theorem count_spread_of_notMem {counts : List (String × Nat)} {rule : String}
    (h : rule ∉ counts.map Prod.fst) : (spread counts).count rule = 0 := by
  rw [List.count_eq_zero]
  intro hmem
  obtain ⟨e, he, hrule⟩ := List.mem_flatMap.mp hmem
  apply h
  rw [List.eq_of_mem_replicate hrule]
  exact List.mem_map_of_mem he

/-- Where no rule comes twice, the count of a rule says how often it was counted. -/
theorem count_spread_of_mem {counts : List (String × Nat)} {rule : String} {n : Nat}
    (hkeys : (counts.map Prod.fst).Nodup) (h : (rule, n) ∈ counts) :
    (spread counts).count rule = n := by
  induction counts with
  | nil => cases h
  | cons e rest ih =>
    obtain ⟨hfirst, hrest⟩ := List.nodup_cons.mp hkeys
    have hspread : spread (e :: rest) = List.replicate e.2 e.1 ++ spread rest := rfl
    rw [hspread, List.count_append]
    rcases List.mem_cons.mp h with rfl | hmem
    · rw [List.count_replicate_self, count_spread_of_notMem hfirst, Nat.add_zero]
    · have hne : e.1 ≠ rule := fun heq => hfirst (heq ▸ List.mem_map_of_mem hmem)
      rw [List.count_replicate, if_neg (by simpa using hne), ih hrest hmem, Nat.zero_add]

theorem Sorted.mem_iff {counts : List (String × Nat)} (h : Sorted counts) {rule : String}
    {n : Nat} : (rule, n) ∈ counts ↔ 0 < n ∧ n = (spread counts).count rule := by
  have hnodup : (counts.map Prod.fst).Nodup := by
    rw [List.nodup_iff_pairwise_ne]
    refine h.increasing.imp ?_
    rintro a _ hlt rfl
    exact String.lt_irrefl a hlt
  constructor
  · intro hmem
    exact ⟨h.counted _ hmem, (count_spread_of_mem hnodup hmem).symm⟩
  · rintro ⟨hpos, rfl⟩
    obtain ⟨e, he, hrule⟩ := List.mem_flatMap.mp (List.count_pos_iff.mp hpos)
    obtain rfl := List.eq_of_mem_replicate hrule
    rw [count_spread_of_mem hnodup he]
    exact he

/-- What is counted by rules is the rules of all issues. -/
theorem spread_issuesByRule (c : Collected) :
    (spread c.issuesByRule).Perm (c.issues.map Issue.ruleId) ∧ Sorted c.issuesByRule := by
  unfold issuesByRule
  induction c.issues using List.reverseRecOn with
  | nil => exact ⟨.refl _, ⟨List.Pairwise.nil, List.forall_mem_nil _⟩⟩
  | append_singleton issues issue ih =>
    rw [List.foldl_append, List.foldl_cons, List.foldl_nil]
    refine ⟨(spread_countRule _ _).trans ?_, ih.2.countRule _⟩
    rw [List.map_append, List.map_singleton]
    exact (ih.1.cons _).trans (List.perm_append_singleton _ _).symm

theorem mem_issuesByRule_iff (c : Collected) {rule : String} {n : Nat} :
    (rule, n) ∈ c.issuesByRule ↔ 0 < n ∧ n = c.issues.countP fun i => i.ruleId = rule := by
  obtain ⟨hspread, hsorted⟩ := c.spread_issuesByRule
  rw [hsorted.mem_iff, hspread.count_eq, List.count, List.countP_map]
  have hrule : ((· == rule) ∘ Issue.ruleId) = fun i : Issue => decide (i.ruleId = rule) := by
    funext i
    exact beq_eq_decide _ _
  rw [hrule]

/-! ## Counting by files -/

theorem issueCount_eq_sum (c : Collected) :
    c.issueCount = (c.files.map fun f => f.issues.length).sum := by
  rw [issueCount, List.sum, List.foldr_map]

theorem issueCount_eq_length (c : Collected) : c.issueCount = c.issues.length := by
  rw [issueCount_eq_sum, issues, List.length_flatMap]

theorem issueCount_eq_sum_byRule (c : Collected) :
    c.issueCount = (c.issuesByRule.map Prod.snd).sum := by
  rw [issueCount_eq_length, ← length_spread, c.spread_issuesByRule.1.length_eq, List.length_map]

theorem hasFindings_iff {f : FileReport} :
    f.hasFindings = true ↔ f.issues ≠ [] ∨ ∃ message, f.parsingError = some message := by
  rw [FileReport.hasFindings, Bool.or_eq_true, Bool.not_eq_true', List.isEmpty_eq_false_iff,
    Option.isSome_iff_exists]

/-- The files that are not listed have no issues. -/
theorem sum_issues_withFindings (c : Collected) :
    (c.withFindings.map fun f => f.issues.length).sum = c.issueCount := by
  rw [issueCount_eq_sum, withFindings]
  induction c.files with
  | nil => rfl
  | cons f rest ih =>
    by_cases hfindings : f.hasFindings = true
    · simp [hfindings, ih]
    · have hissues : f.issues = [] := by
        by_contra hne
        exact hfindings (hasFindings_iff.mpr (.inl hne))
      simp [hfindings, hissues, ih]

/-! ## Answers that are accepted -/

/-- What is collected of answers that are accepted one after the other. -/
def ofAnswers (answers : List (SourceFile × Response)) : Collected :=
  answers.foldl (fun c a => c.accept a.1 a.2) .empty

theorem files_ofAnswers (answers : List (SourceFile × Response)) :
    (ofAnswers answers).files = answers.map fun a => .ofResponse a.1 a.2 := by
  induction answers using List.reverseRecOn with
  | nil => rfl
  | append_singleton answers a ih =>
    rw [ofAnswers, List.foldl_append, ← ofAnswers, List.map_append, ← ih]
    rfl

/-- The answer tells of an issue or of a parsing error. -/
def tells (a : SourceFile × Response) : Bool := !a.2.issues.isEmpty || a.2.parsingError.isSome

theorem withFindings_ofAnswers (answers : List (SourceFile × Response)) :
    (ofAnswers answers).withFindings =
      (answers.filter tells).map fun a => .ofResponse a.1 a.2 := by
  have htells : (FileReport.hasFindings ∘ fun a : SourceFile × Response =>
      FileReport.ofResponse a.1 a.2) = tells := by
    funext a
    simp [FileReport.hasFindings, FileReport.ofResponse, tells]
  rw [withFindings, files_ofAnswers, List.filter_map, htells]

end Collected

/-! ## Runs -/

/-- The sink keeps what it is handed; it may interrupt the run at any answer. -/
def Sink.Collects (s : Sink Collected) : Prop := ∀ f r c, (s.accept f r c).1 = c.accept f r

/-- A sink that keeps what it is handed has collected the answers. -/
theorem Sink.Collects.acceptAll_eq {s : Sink Collected} (h : s.Collects)
    (answers : List (SourceFile × Response)) :
    s.acceptAll .empty answers = Collected.ofAnswers answers := by
  unfold Sink.acceptAll Collected.ofAnswers
  congr 1
  funext c a
  exact h a.1 a.2 c

/-- However the first run of a session ends, the sink has been handed as many answers as files were
analyzed, and the summary that is returned is the one that is kept. -/
theorem Session.handed_of_run {σ τ : Type} {e : Engine σ} {s : Sink τ} {around : Surroundings}
    {o : RunOptions} {mode : RunMode} {files : List SourceFile} {n : Session σ τ}
    {fin : Finished σ τ} (hfirst : n.state = .notStarted)
    (hrun : n.run e s around o mode files = some fin) :
    (∃ answers, answers.length = fin.session.summary.analyzedFiles ∧
      fin.session.sink = s.acceptAll n.sink answers) ∧
    ∀ summary, fin.result = .ok summary → summary = fin.session.summary := by
  obtain ⟨outcome, l, hexecute, rfl⟩ := (Session.run_eq_some_iff hfirst).mp hrun
  have hexecuted := Session.begin_executed e s around o mode files n
  rw [hexecute] at hexecuted
  have hclosed := l.finish_closed around outcome
  constructor
  · obtain ⟨answers, hlength, hsink, -⟩ := (hexecuted.balanced (n.begin_ledger around o)).handed
    refine ⟨answers, ?_, hclosed.sink.trans hsink⟩
    rw [hlength]
    exact (congrArg RunSummary.analyzedFiles hclosed.summary).symm
  · intro summary hresult
    cases outcome with
    | error err => cases hresult
    | ok state => exact (Except.ok.inj hresult).symm

/-- The totals of all answers that were accepted agree: there are as many issues as are counted by
rules, the rules are in strictly increasing order, and a rule is counted exactly when issues have
it, as often as they do.  A report lists, in their order, the files whose answers tell of an issue
or of a parsing error, and it counts as many issues as these files have.  When the answers come
from a run that has started with nothing collected, the files that its report counts as analyzed
are those that were collected, however the run has ended. -/
theorem report_totals_agree (answers : List (SourceFile × Response)) (path : String)
    (summary : RunSummary) {c : Collected} {report : RunReport}
    (hc : Collected.ofAnswers answers = c) (hreport : RunReport.build path c summary = report) :
    (c.issueCount = (c.issuesByRule.map Prod.snd).sum ∧
      (∀ rule n, (rule, n) ∈ c.issuesByRule ↔
        0 < n ∧ n = c.issues.countP fun i => i.ruleId = rule) ∧
      (c.issuesByRule.map Prod.fst).Pairwise (· < ·)) ∧
    (report.issueCount = (report.files.map fun f => f.issues.length).sum ∧
      report.issueCount = (answers.map fun a => a.2.issues.length).sum ∧
      report.files.Sublist c.files ∧
      report.files = (answers.filter fun a => !a.2.issues.isEmpty || a.2.parsingError.isSome).map
        (fun a => .ofResponse a.1 a.2) ∧
      ∀ f ∈ c.files,
        f ∈ report.files ↔ f.issues ≠ [] ∨ ∃ message, f.parsingError = some message) ∧
    ∀ {σ : Type} (e : Engine σ) (s : Sink Collected) (around : Surroundings) (o : RunOptions)
      (mode : RunMode) (files : List SourceFile) (n : Session σ Collected)
      (fin : Finished σ Collected),
      s.Collects → n.state = .notStarted → n.sink = .empty →
      n.run e s around o mode files = some fin →
      (RunReport.build path fin.session.sink fin.session.summary).filesAnalyzed =
          fin.session.sink.files.length ∧
        ∀ returned, fin.result = .ok returned → returned = fin.session.summary := by
  subst hc hreport
  refine ⟨⟨?_, ?_, ?_⟩, ⟨?_, ?_, ?_, ?_, ?_⟩, ?_⟩
  · exact Collected.issueCount_eq_sum_byRule _
  · intro rule n
    exact Collected.mem_issuesByRule_iff _
  · exact (Collected.spread_issuesByRule _).2.increasing
  · exact (Collected.sum_issues_withFindings _).symm
  · have hcount := Collected.issueCount_eq_sum (.ofAnswers answers)
    rw [Collected.files_ofAnswers, List.map_map] at hcount
    exact hcount
  · exact List.filter_sublist
  · exact Collected.withFindings_ofAnswers answers
  · intro f hf
    rw [← Collected.hasFindings_iff]
    exact List.mem_filter.trans (and_iff_right hf)
  · intro σ e s around o mode files n fin hcollects hfirst hempty hrun
    obtain ⟨⟨handed, hlength, hsink⟩, hreturned⟩ := Session.handed_of_run hfirst hrun
    rw [hempty, hcollects.acceptAll_eq] at hsink
    refine ⟨?_, hreturned⟩
    rw [hsink, Collected.files_ofAnswers, List.length_map, hlength]
    rfl

/-- An answer with three issues of two rules. -/
def threeIssues : Response :=
  { Response.empty with
    issues := ["S2", "S1", "S2"].map fun rule => ⟨rule, 1, 0, none, none, "", [], none⟩ }

/-- An engine that finds issues in every file but one. -/
def findingEngine : Engine Unit :=
  .ofTables (fun p => .ok ⟨p, [], [], [], none, []⟩) fun request =>
    if request.filePath = ⟨"/p/x.ts"⟩ then .ok .empty else .ok threeIssues

/-- A sink that keeps what it is handed and interrupts the run at the second answer. -/
def impatientSink : Sink Collected := ⟨fun f r c => (c.accept f r, !c.files.isEmpty)⟩

/-- The report of two answers lists one file.  A run that is interrupted at the second of three
files has collected two, and its report counts two. -/
theorem report_of_impatient_run :
    ((RunReport.build "/p" (.ofAnswers [(.main ⟨"/p/x.ts"⟩, .empty), (.main ⟨"/p/y.ts"⟩,
        threeIssues)]) .empty).issueCount = 3 ∧
      (RunReport.build "/p" (.ofAnswers [(.main ⟨"/p/x.ts"⟩, .empty), (.main ⟨"/p/y.ts"⟩,
        threeIssues)]) .empty).files = [.ofResponse (.main ⟨"/p/y.ts"⟩) threeIssues]) ∧
    ∃ fin, (Session.new () .empty default).run findingEngine impatientSink default default
        (.plain ["t.json"]) [.main ⟨"/p/x.ts"⟩, .main ⟨"/p/y.ts"⟩, .main ⟨"/p/z.ts"⟩] = some fin ∧
      fin.session.state = .cancelled ∧ fin.session.sink.issuesByRule = [("S1", 1), ("S2", 2)] ∧
      (RunReport.build "/p" fin.session.sink fin.session.summary).filesAnalyzed = 2 := by
  obtain ⟨-, ⟨-, hcount, -, hlisted, -⟩, hruns⟩ := report_totals_agree
    [(.main ⟨"/p/x.ts"⟩, .empty), (.main ⟨"/p/y.ts"⟩, threeIssues)] "/p" .empty rfl rfl
  have hfacts : ((Session.new () .empty default).run findingEngine impatientSink default default
      (.plain ["t.json"]) [.main ⟨"/p/x.ts"⟩, .main ⟨"/p/y.ts"⟩, .main ⟨"/p/z.ts"⟩]).map
        (fun fin => (fin.session.state, fin.session.sink.issuesByRule,
          fin.session.sink.files.length)) =
      some (.cancelled, [("S1", 1), ("S2", 2)], 2) := by
    decide +kernel
  obtain ⟨fin, hrun, hpair⟩ := Option.map_eq_some_iff.mp hfacts
  obtain ⟨hstate, hrest⟩ := Prod.mk.inj hpair
  obtain ⟨hrules, hlength⟩ := Prod.mk.inj hrest
  refine ⟨⟨hcount, hlisted⟩, fin, hrun, hstate, hrules, ?_⟩
  rw [← hlength]
  exact (hruns findingEngine impatientSink default default (.plain ["t.json"]) _ _ fin
    (fun _ _ _ => rfl) rfl rfl hrun).1

end LintRelay
