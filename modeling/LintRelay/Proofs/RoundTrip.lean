import LintRelay.Report.Basic
import LintRelay.Proofs.Analysis.Tolerance
import LintRelay.Proofs.Json.Written
import LintRelay.Proofs.Metrics
set_option autoImplicit false

/-!
# What is written is read back

Answers of the engine, metrics, reports and settings are written as compact texts that decode
to what was written: for every text and list in them, every combination of absent values and
every number of the width that its place has.
-/

namespace LintRelay

open Json (Value Reads Folds Member Decoder Canonical ReadsBack max32 reads_of reads_object
  reads_list reads_nullable reads_string_chars)

/-! ## Plain members -/

theorem Json.reads_nat32_chars {n : Nat} (hn : n ≤ max32) (depth : Nat) :
    Reads (Json.nat32 depth) (Json.nat n).chars n := Json.reads_natUpTo_chars hn (by decide) depth

theorem Json.reads_optional_nat32 {o : Option Nat} (h : ∀ n ∈ o, n ≤ max32) (depth : Nat) :
    Reads (Json.nullable Json.nat32 depth) (Json.optional Json.nat o).chars o :=
  reads_nullable fun n hn =>
    ⟨Json.reads_nat32_chars (h n hn) depth, (Json.natText_chars n).head?_ne⟩

theorem Json.reads_optional_string (o : Option String) (depth : Nat) :
    Reads (Json.nullable Json.string depth) (Json.optional .string o).chars o :=
  reads_nullable fun s _ => ⟨reads_string_chars depth s, (Json.stringText_chars s).head?_ne⟩

theorem Json.reads_strings (ss : List String) (depth : Nat) :
    Reads (Json.list Json.string (depth + 1)) (Json.strings ss).chars ss :=
  reads_list fun s _ => reads_string_chars depth s

theorem Json.head?_object (ms : List (String × Value)) :
    (Value.object ms).chars.head? ≠ some 'n' := by
  simp [Value.chars]

open Json (reads_nat32_chars reads_optional_nat32 reads_optional_string reads_strings)

/-! ## Answers about a file -/

theorem IssueLocation.reads {l : IssueLocation} (h : l.Fits) (depth : Nat) :
    Reads (decoder (depth + 1)) l.toValue.chars l := by
  have hfinish : finish ⟨some l.line, some l.column, some l.endLine, some l.endColumn,
      some l.message⟩ = .ok l := rfl
  refine reads_object ?_ hfinish
  refine .field rfl rfl (reads_of (reads_nat32_chars h.line _)) ?_
  refine .field rfl rfl (reads_of (reads_nat32_chars h.column _)) ?_
  refine .field rfl rfl (reads_of (reads_nat32_chars h.endLine _)) ?_
  refine .field rfl rfl (reads_of (reads_nat32_chars h.endColumn _)) ?_
  refine .field rfl rfl (reads_of (reads_optional_string l.message _)) ?_
  exact .nil _

/-- The cost of an issue is read from its written form. -/
def Issue.CostReadsBack (i : Issue) : Prop := ∀ x ∈ i.cost, ReadsBack x

theorem Issue.reads {i : Issue} (h : i.Fits) (hcost : i.CostReadsBack) (depth : Nat) :
    Reads (decoder (depth + 3)) i.toValue.chars i := by
  have hfinish : finish ⟨some i.ruleId, some i.line, some i.column, some i.endLine,
      some i.endColumn, some i.message, some i.secondaryLocations, some i.cost⟩ = .ok i := rfl
  have hlocations := reads_list fun l hl => IssueLocation.reads (h.locations l hl) depth
  have hcosts : Reads (Json.nullable Json.float (depth + 2))
      (Json.optional Value.float i.cost).chars i.cost :=
    reads_nullable fun x hx => ⟨(hcost x hx).reads _, by
      have hnumber := hcost x hx
      rw [Value.chars]
      exact Json.FloatText.head?_ne ⟨_, hnumber, rfl⟩⟩
  refine reads_object ?_ hfinish
  refine .field rfl rfl (reads_of (reads_string_chars _ i.ruleId)) ?_
  refine .field rfl rfl (reads_of (reads_nat32_chars h.line _)) ?_
  refine .field rfl rfl (reads_of (reads_nat32_chars h.column _)) ?_
  refine .field rfl rfl (reads_of (reads_optional_nat32 h.endLine _)) ?_
  refine .field rfl rfl (reads_of (reads_optional_nat32 h.endColumn _)) ?_
  refine .field rfl rfl (reads_of (reads_string_chars _ i.message)) ?_
  refine .field rfl rfl (reads_of hlocations) ?_
  refine .field rfl rfl (reads_of hcosts) ?_
  exact .nil _

theorem FileMeasures.reads {m : FileMeasures} (h : m.Fits) (depth : Nat) :
    Reads (decoder (depth + 2)) m.toValue.chars m := by
  have hfinish : finish ⟨some m.ncloc, some m.commentLines, some m.nosonarLines,
      some m.executableLines, some m.functions, some m.statements, some m.classes,
      some m.complexity, some m.cognitiveComplexity⟩ = .ok m := rfl
  have hlines (ls : List Nat) (hls : ls ∈ [m.ncloc, m.commentLines, m.nosonarLines,
      m.executableLines]) : Reads (Json.list Json.nat32 (depth + 1)) (lines ls).chars ls :=
    reads_list fun n hn => reads_nat32_chars (h.lines ls hls n hn) depth
  have hcount (n : Nat) (hn : n ∈ [m.functions, m.statements, m.classes, m.complexity,
      m.cognitiveComplexity]) : Reads (Json.nat32 (depth + 1)) (Json.nat n).chars n :=
    reads_nat32_chars (h.counts n hn) _
  refine reads_object ?_ hfinish
  refine .field rfl rfl (reads_of (hlines _ (by simp))) ?_
  refine .field rfl rfl (reads_of (hlines _ (by simp))) ?_
  refine .field rfl rfl (reads_of (hlines _ (by simp))) ?_
  refine .field rfl rfl (reads_of (hlines _ (by simp))) ?_
  refine .field rfl rfl (reads_of (hcount _ (by simp))) ?_
  refine .field rfl rfl (reads_of (hcount _ (by simp))) ?_
  refine .field rfl rfl (reads_of (hcount _ (by simp))) ?_
  refine .field rfl rfl (reads_of (hcount _ (by simp))) ?_
  refine .field rfl rfl (reads_of (hcount _ (by simp))) ?_
  exact .nil _

theorem ParsingError.reads {e : ParsingError} (h : e.Fits) (depth : Nat) :
    Reads (decoder (depth + 1)) e.toValue.chars e := by
  have hfinish : finish ⟨some e.line, some e.message, some e.code⟩ = .ok e := rfl
  refine reads_object ?_ hfinish
  refine .field rfl rfl (reads_of (reads_optional_nat32 h _)) ?_
  refine .field rfl rfl (reads_of (reads_string_chars _ e.message)) ?_
  refine .field rfl rfl (reads_of (reads_optional_string e.code _)) ?_
  exact .nil _

theorem Perf.reads {p : Perf} (h : p.Fits) (depth : Nat) :
    Reads (decoder (depth + 1)) p.toValue.chars p := by
  have hfinish : finish ⟨some p.parseTime, some p.analysisTime⟩ = .ok p := rfl
  refine reads_object ?_ hfinish
  refine .field rfl rfl (reads_of (Json.reads_nat64 h.parseTime _)) ?_
  refine .field rfl rfl (reads_of (Json.reads_nat64 h.analysisTime _)) ?_
  exact .nil _

/-- A member that is written only when there is a value. -/
theorem Json.Folds.present {δ α : Type} {fields : List (Member δ)} {depth : Nat}
    {get : δ → Option (Option α)} {set : δ → Option α → δ} {d : Decoder α} {name : String}
    {f : α → Value} {o : Option α} {draft final : δ} {ms : List (String × Value)} (next : δ)
    (hfield : fields.find? (fun m => m.name = name) =
      some (Member.of name get set (Json.nullable d)))
    (hget : get draft = none) (hnext : (o.elim draft fun a => set draft (some a)) = next)
    (hreads : ∀ a ∈ o, Reads (d depth) (f a).chars a ∧ (f a).chars.head? ≠ some 'n')
    (hrest : Folds (Json.recordMember fields depth) (ms.map fun m => (m.1, m.2.chars)) next
      final) :
    Folds (Json.recordMember fields depth)
      ((Response.presentMember name f o ++ ms).map fun m => (m.1, m.2.chars)) draft final := by
  subst hnext
  cases o with
  | none => exact hrest
  | some a =>
    have hvalue : Reads (Json.nullable d depth) (f a).chars (some a) :=
      reads_nullable (o := some a) hreads
    exact .field hfield (by simp [Member.of, hget]) (reads_of hvalue) hrest

theorem Response.reads {r : Response} (h : r.Fits) (hcosts : ∀ i ∈ r.issues, i.CostReadsBack)
    (depth : Nat) : Reads (decoder (depth + 5)) r.toValue.chars r := by
  have hissues := reads_list fun i hi => Issue.reads (h.issues i hi) (hcosts i hi) depth
  have hfinish : finish ⟨some r.issues, some r.metrics, r.parsingError.map some, r.perf.map some,
      r.error.map some⟩ = .ok r := by
    obtain ⟨issues, metrics, parsingError, perf, error⟩ := r
    cases parsingError <;> cases perf <;> cases error <;> rfl
  refine reads_object ?_ hfinish
  rw [List.append_assoc, List.append_assoc]
  refine .field rfl rfl (reads_of hissues) ?_
  refine .field rfl rfl (reads_of (FileMeasures.reads h.metrics (depth + 2))) ?_
  refine .present ⟨some r.issues, some r.metrics, r.parsingError.map some, none, none⟩ rfl rfl
    (by cases r.parsingError <;> rfl)
    (fun e he => ⟨ParsingError.reads (h.parsingError e he) (depth + 3), Json.head?_object _⟩) ?_
  refine .present ⟨some r.issues, some r.metrics, r.parsingError.map some, r.perf.map some, none⟩
    rfl rfl (by cases r.perf <;> rfl)
    (fun p hp => ⟨Perf.reads (h.perf p hp) (depth + 3), Json.head?_object _⟩) ?_
  rw [← List.append_nil (presentMember "error" _ _)]
  refine .present ⟨some r.issues, some r.metrics, r.parsingError.map some, r.perf.map some,
    r.error.map some⟩ rfl rfl (by cases r.error <;> rfl)
    (fun s _ => ⟨reads_string_chars _ s, (Json.stringText_chars s).head?_ne⟩) ?_
  exact .nil _

/-! ## Reports -/

/-- The numbers of a file's report are of the widths that it has for them. -/
structure FileReport.Fits (f : FileReport) : Prop where
  issues : ∀ i ∈ f.issues, i.Fits
  ncloc : f.ncloc ≤ Json.maxSignificand
  commentLines : f.commentLines ≤ Json.maxSignificand
  complexity : f.complexity ≤ max32
  cognitiveComplexity : f.cognitiveComplexity ≤ max32

theorem FileReport.reads {f : FileReport} (h : f.Fits)
    (hcosts : ∀ i ∈ f.issues, i.CostReadsBack) (depth : Nat) :
    Reads (decoder (depth + 5)) f.toValue.chars f := by
  have hkind : Json.lookupName FileKind.names f.kind.name = .ok f.kind := by
    cases f.kind <;> rfl
  have hissues := reads_list fun i hi => Issue.reads (h.issues i hi) (hcosts i hi) depth
  have hfinish : finish ⟨some f.path, some f.kind, some f.issues, some f.ncloc,
      some f.commentLines, some f.complexity, some f.cognitiveComplexity,
      f.parsingError.map some⟩ = .ok f := by
    obtain ⟨path, kind, issues, ncloc, commentLines, complexity, cognitive, parsingError⟩ := f
    cases parsingError <;> rfl
  refine reads_object ?_ hfinish
  rw [← List.append_nil (Response.presentMember _ _ _)]
  refine .field rfl rfl (reads_of (reads_string_chars _ f.path)) ?_
  refine .field rfl rfl (reads_of (Json.reads_oneOf hkind _)) ?_
  refine .field rfl rfl (reads_of hissues) ?_
  refine .field rfl rfl (reads_of (Json.reads_nat64 h.ncloc _)) ?_
  refine .field rfl rfl (reads_of (Json.reads_nat64 h.commentLines _)) ?_
  refine .field rfl rfl (reads_of (reads_nat32_chars h.complexity _)) ?_
  refine .field rfl rfl (reads_of (reads_nat32_chars h.cognitiveComplexity _)) ?_
  show Folds _ _ (⟨some f.path, some f.kind, some f.issues, some f.ncloc, some f.commentLines,
    some f.complexity, some f.cognitiveComplexity, none⟩ : Draft) _
  refine .present ⟨some f.path, some f.kind, some f.issues, some f.ncloc, some f.commentLines,
    some f.complexity, some f.cognitiveComplexity, f.parsingError.map some⟩ rfl rfl
    (by cases f.parsingError <;> rfl)
    (fun s _ => ⟨reads_string_chars _ s, (Json.stringText_chars s).head?_ne⟩) ?_
  exact .nil _

/-- The numbers of a report are of the widths that it has for them. -/
structure RunReport.Fits (r : RunReport) : Prop where
  filesAnalyzed : r.filesAnalyzed ≤ Json.maxSignificand
  filesFailed : r.filesFailed ≤ Json.maxSignificand
  filesSkipped : r.filesSkipped ≤ Json.maxSignificand
  issueCount : r.issueCount ≤ Json.maxSignificand
  files : ∀ f ∈ r.files, f.Fits

theorem RunReport.reads {r : RunReport} (h : r.Fits)
    (hcosts : ∀ f ∈ r.files, ∀ i ∈ f.issues, i.CostReadsBack) (depth : Nat) :
    Reads (decoder (depth + 7)) r.toValue.chars r := by
  have hfiles := reads_list fun f hf => FileReport.reads (h.files f hf) (hcosts f hf) depth
  have hfinish : finish ⟨some r.version, some r.path, some r.state, some r.filesAnalyzed,
      some r.filesFailed, some r.filesSkipped, some r.issueCount, some r.files⟩ = .ok r := rfl
  refine reads_object ?_ hfinish
  refine .field rfl rfl (reads_of (reads_string_chars _ r.version)) ?_
  refine .field rfl rfl (reads_of (reads_string_chars _ r.path)) ?_
  refine .field rfl rfl (reads_of (reads_string_chars _ r.state)) ?_
  refine .field rfl rfl (reads_of (Json.reads_nat64 h.filesAnalyzed _)) ?_
  refine .field rfl rfl (reads_of (Json.reads_nat64 h.filesFailed _)) ?_
  refine .field rfl rfl (reads_of (Json.reads_nat64 h.filesSkipped _)) ?_
  refine .field rfl rfl (reads_of (Json.reads_nat64 h.issueCount _)) ?_
  refine .field rfl rfl (reads_of hfiles) ?_
  exact .nil _

/-! ## Rules and settings -/

/-- The configurations of a rule are values that a decoder makes, nested no deeper than the
depth that is left for them. -/
def Rule.Fits (depth : Nat) (r : Rule) : Prop := ∀ v ∈ r.configurations, Canonical depth v

theorem Rule.reads {depth : Nat} {r : Rule} (h : r.Fits depth) :
    Reads (decoder (depth + 2)) r.toValue.chars r := by
  have hconfigurations : Reads (Json.list Json.value (depth + 1))
      (Value.array r.configurations).chars r.configurations := by
    have hlist := reads_list (f := id) fun v hv => (h v hv).reads
    rwa [List.map_id] at hlist
  have hfinish : finish ⟨some r.key, some r.configurations⟩ = .ok r := rfl
  refine reads_object ?_ hfinish
  refine .field rfl rfl (reads_of (reads_string_chars _ r.key)) ?_
  refine .field rfl rfl (reads_of hconfigurations) ?_
  exact .nil _

theorem Json.reads_optional_path (o : Option Path) (depth : Nat) :
    Reads (Json.nullable Json.string depth)
      (Json.optional (fun p => .string p.text) o).chars (o.map Path.text) := by
  have hvalue : Json.optional (fun p : Path => Value.string p.text) o =
      Json.optional .string (o.map Path.text) := by
    cases o <;> rfl
  rw [hvalue]
  exact reads_optional_string _ depth

theorem Path.map_mk_text (o : Option Path) : (o.map Path.text).map Path.mk = o := by
  cases o <;> rfl

theorem MonitoringSettings.reads (s : MonitoringSettings) (depth : Nat) :
    Reads (decoder (depth + 1)) s.toValue.chars s := by
  have hfinish : ofDraft ⟨some s.enabled, some (s.path.map Path.text)⟩ = s := by
    obtain ⟨enabled, path⟩ := s
    simp only [ofDraft, Option.getD_some, Path.map_mk_text]
  refine reads_object ?_ (congrArg Except.ok hfinish)
  refine .field rfl rfl (reads_of (Json.reads_bool _ s.enabled)) ?_
  refine .field rfl rfl (reads_of (Json.reads_optional_path s.path _)) ?_
  exact .nil _

/-- The numbers of the settings are of the widths that they have. -/
structure EngineSettings.Fits (s : EngineSettings) : Prop where
  port : s.port ≤ 65535
  timeoutMs : s.timeoutMs ≤ Json.maxSignificand
  startupTimeoutMs : s.startupTimeoutMs ≤ Json.maxSignificand

theorem EngineSettings.reads {s : EngineSettings} (h : s.Fits) (depth : Nat) :
    Reads (decoder (depth + 1)) s.toValue.chars s := by
  have hfinish : ofDraft ⟨some s.url, some s.command, some (s.script.map Path.text), some s.host,
      some s.port, some s.timeoutMs, some s.startupTimeoutMs⟩ = s := by
    obtain ⟨url, command, script, host, port, timeoutMs, startupTimeoutMs⟩ := s
    simp only [ofDraft, Option.getD_some, Path.map_mk_text]
  refine reads_object ?_ (congrArg Except.ok hfinish)
  refine .field rfl rfl (reads_of (reads_optional_string s.url _)) ?_
  refine .field rfl rfl (reads_of (reads_string_chars _ s.command)) ?_
  refine .field rfl rfl (reads_of (Json.reads_optional_path s.script _)) ?_
  refine .field rfl rfl (reads_of (reads_string_chars _ s.host)) ?_
  refine .field rfl rfl (reads_of (Json.reads_natUpTo_chars h.port (by decide) _)) ?_
  refine .field rfl rfl (reads_of (Json.reads_nat64 h.timeoutMs _)) ?_
  refine .field rfl rfl (reads_of (Json.reads_nat64 h.startupTimeoutMs _)) ?_
  exact .nil _

/-- The numbers of the settings are of the widths that they have, and the rules can be read
at the depth that is left for their configurations. -/
structure Settings.Fits (depth : Nat) (s : Settings) : Prop where
  rules : ∀ r ∈ s.rules, r.Fits depth
  progressIntervalSecs : s.progressIntervalSecs ≤ Json.maxSignificand
  engine : s.engine.Fits

theorem Settings.reads {depth : Nat} {s : Settings} (h : s.Fits depth) :
    Reads (decoder (depth + 4)) s.toValue.chars s := by
  have hlanguage : Json.lookupName Language.names s.language.name = .ok s.language := by
    cases s.language <;> rfl
  have hrules := reads_list fun r hr => Rule.reads (h.rules r hr)
  have hfinish : ofDraft ⟨some s.language, some s.rules, some s.environments, some s.globals,
      some (s.tsconfigPaths.map Path.text), some s.ignoreHeaderComments, some s.sendFileContent,
      some s.excludedPaths, some s.progressIntervalSecs, some s.monitoring, some s.engine⟩ = s := by
    have hpaths : (s.tsconfigPaths.map Path.text).map Path.mk = s.tsconfigPaths := by
      rw [List.map_map]
      exact List.map_id s.tsconfigPaths
    simp only [ofDraft, Option.getD_some, hpaths]
  refine reads_object ?_ (congrArg Except.ok hfinish)
  refine .field rfl rfl (reads_of (Json.reads_oneOf hlanguage _)) ?_
  refine .field rfl rfl (reads_of hrules) ?_
  refine .field rfl rfl (reads_of (reads_strings s.environments _)) ?_
  refine .field rfl rfl (reads_of (reads_strings s.globals _)) ?_
  refine .field rfl rfl (reads_of (reads_strings _ _)) ?_
  refine .field rfl rfl (reads_of (Json.reads_bool _ s.ignoreHeaderComments)) ?_
  refine .field rfl rfl (reads_of (Json.reads_bool _ s.sendFileContent)) ?_
  refine .field rfl rfl (reads_of (reads_strings s.excludedPaths _)) ?_
  refine .field rfl rfl (reads_of (Json.reads_nat64 h.progressIntervalSecs _)) ?_
  refine .field rfl rfl (reads_of (MonitoringSettings.reads s.monitoring _)) ?_
  refine .field rfl rfl (reads_of (EngineSettings.reads h.engine _)) ?_
  exact .nil _

/-! ## Round trips -/

/-- Whatever is written as a compact text decodes to what was written.  Numbers are of the
widths of their places, costs are floats that are read from their written forms, and the
configurations of rules are free-form values within the depth that is left for them in a
rule, or in the settings. -/
theorem compact_texts_decode_to_what_was_written :
    (∀ r : Response, r.Fits → (∀ i ∈ r.issues, i.CostReadsBack) →
      Json.decode Response.decoder r.toValue.compact = .ok r) ∧
    (∀ i : Issue, i.Fits → i.CostReadsBack →
      Json.decode Issue.decoder i.toValue.compact = .ok i) ∧
    (∀ p : Perf, p.Fits → Json.decode Perf.decoder p.toValue.compact = .ok p) ∧
    (∀ r : Rule, r.Fits 125 → Json.decode Rule.decoder r.toValue.compact = .ok r) ∧
    (∀ m : RunMetric, m.Fits → Json.decode RunMetric.decoder m.toValue.compact = .ok m) ∧
    (∀ m : FileMetric, m.Fits → Json.decode FileMetric.decoder m.toValue.compact = .ok m) ∧
    (∀ f : FileReport, f.Fits → (∀ i ∈ f.issues, i.CostReadsBack) →
      Json.decode FileReport.decoder f.toValue.compact = .ok f) ∧
    (∀ r : RunReport, r.Fits → (∀ f ∈ r.files, ∀ i ∈ f.issues, i.CostReadsBack) →
      Json.decode RunReport.decoder r.toValue.compact = .ok r) ∧
    ∀ s : Settings, s.Fits 123 → Json.decode Settings.decoder s.toValue.compact = .ok s := by
  refine ⟨?_, ?_, ?_, ?_, ?_, ?_, ?_, ?_, ?_⟩
  · intro r hfits hcosts
    exact (Response.reads hfits hcosts 122).decode
  · intro i hfits hcost
    exact (Issue.reads hfits hcost 124).decode
  · intro p hfits
    exact (Perf.reads hfits 126).decode
  · intro r hfits
    exact (Rule.reads hfits).decode
  · intro m hfits
    exact RunMetric.decode_compact hfits
  · intro m hfits
    exact FileMetric.decode_compact hfits
  · intro f hfits hcosts
    exact (FileReport.reads hfits hcosts 122).decode
  · intro r hfits hcosts
    exact (RunReport.reads hfits hcosts 120).decode
  · intro s hfits
    exact (Settings.reads hfits).decode

/-- An answer with a cost, a control character and an absent end. -/
def costlyAnswer : Response where
  issues :=
    [⟨"S1", 4294967295, 0, none, some 7, "naïve\t\"x\"\n", [⟨1, 2, 3, 4, some "é"⟩], some 2.5⟩]
  metrics := { FileMeasures.empty with ncloc := [1, 2] }
  parsingError := none
  perf := some ⟨0, 18446744073709551615⟩
  error := some ""

/-- Settings with a rule that has a nested configuration. -/
def nestedSettings : Settings :=
  { Settings.default with
    rules := [⟨"S2", [.object [("max", .int (-3)), ("modes", .array [.string "a", .null])]]⟩] }

theorem readsBack_two_and_a_half : ReadsBack 2.5 := by
  have hchars : Json.numberChars 2.5 = ['2', '.', '5'] := by decide +kernel
  rw [ReadsBack, hchars]
  exact .unsigned rfl

theorem costlyAnswer_and_nestedSettings_decode :
    (costlyAnswer.Fits ∧ (∀ i ∈ costlyAnswer.issues, i.CostReadsBack) ∧
      Json.decode Response.decoder costlyAnswer.toValue.compact = .ok costlyAnswer) ∧
    nestedSettings.Fits 123 ∧
      Json.decode Settings.decoder nestedSettings.toValue.compact = .ok nestedSettings := by
  have hfits : costlyAnswer.Fits := by
    refine ⟨?_, ⟨by simp [costlyAnswer, FileMeasures.empty, max32],
      by simp [costlyAnswer, FileMeasures.empty]⟩, by rintro _ ⟨⟩, ?_⟩
    · intro i hi
      obtain rfl := List.mem_singleton.mp hi
      refine ⟨by decide, by decide, by rintro _ ⟨⟩, by simp [max32], ?_⟩
      intro l hl
      obtain rfl := List.mem_singleton.mp hl
      exact ⟨by decide, by decide, by decide, by decide⟩
    · rintro p ⟨⟩
      exact ⟨by decide, by decide⟩
  have hcosts : ∀ i ∈ costlyAnswer.issues, i.CostReadsBack := by
    intro i hi
    obtain rfl := List.mem_singleton.mp hi
    rintro x ⟨⟩
    exact readsBack_two_and_a_half
  have hsettings : nestedSettings.Fits 123 := by
    refine ⟨?_, by decide, ⟨by decide, by decide, by decide⟩⟩
    intro r hr
    obtain rfl := List.mem_singleton.mp hr
    intro v hv
    obtain rfl := List.mem_singleton.mp hv
    refine .object (List.pairwise_pair.mpr (by decide)) ?_
    simp only [List.forall_mem_cons]
    refine ⟨.int ⟨by decide, by decide⟩, .array ?_, by rintro _ ⟨⟩⟩
    simpa using ⟨.string "a", .null⟩
  obtain ⟨hanswer, -, -, -, -, -, -, -, hround⟩ := compact_texts_decode_to_what_was_written
  exact ⟨⟨hfits, hcosts, hanswer _ hfits hcosts⟩, hsettings, hround _ hsettings⟩

end LintRelay
