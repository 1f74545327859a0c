import LintRelay.Analysis.Response
import LintRelay.Project.ConfigFile
import LintRelay.Proofs.Json.Telling
set_option autoImplicit false

/-!
# Answers with missing and unknown members

A bridge may be older or newer than the program: it may leave members out, and it may send
members that nobody knows, in every object of an answer.  What is left out is given by a
choice for every object; an answer is decoded to what it tells, with the left-out members at
their defaults, unless one was left out that an object cannot do without.
-/

namespace LintRelay

open Json (Value Document GivesIf Fills TellingText OptionalText ListText StringText NatText
  FloatText keptOf place place_update place_keptOf getD_kept)

/-- The largest number of 32 bits. -/
def Json.max32 : Nat := 4294967295

theorem Json.NatText.reads_nat32 {n : Nat} {text : List Char} (h : NatText n text)
    (hn : n ≤ Json.max32) (depth : Nat) : Json.Reads (Json.nat32 depth) text n :=
  h.reads hn (by decide) depth

open Json (max32)

/-! ## Places -/

namespace IssueLocation

/-- The coordinates of a place are of 32 bits. -/
structure Fits (l : IssueLocation) : Prop where
  line : l.line ≤ max32
  column : l.column ≤ max32
  endLine : l.endLine ≤ max32
  endColumn : l.endColumn ≤ max32

/-- The members of a place with their texts. -/
def known (l : IssueLocation) : List (String × (List Char → Prop)) :=
  [("line", NatText l.line), ("column", NatText l.column), ("endLine", NatText l.endLine),
   ("endColumn", NatText l.endColumn), ("message", OptionalText StringText l.message)]

/-- A place needs its coordinates. -/
def Complete (left : String → Bool) : Prop :=
  ∀ n ∈ ["line", "column", "endLine", "endColumn"], left n = false

/-- A place without the members that are left out. -/
def without (left : String → Bool) (l : IssueLocation) : IssueLocation :=
  { l with message := if left "message" then none else l.message }

/-- What has been read of a place behind some of its members. -/
def draftOf (l : IssueLocation) (seen : String → Bool) : Draft :=
  ⟨place seen "line" l.line, place seen "column" l.column, place seen "endLine" l.endLine,
   place seen "endColumn" l.endColumn, place seen "message" l.message⟩

theorem fills {l : IssueLocation} (hfits : l.Fits) (depth : Nat) :
    ∀ m ∈ l.known, Fills fields depth l.draftOf m.1 m.2 True := by
  simp only [known, List.forall_mem_cons]
  refine ⟨?_, ?_, ?_, ?_, ?_, by simp⟩
  · exact .of rfl (fun _ => rfl) (fun _ => by simp [draftOf, place_update])
      fun text h => (h.reads_nat32 hfits.line depth).givesIf trivial
  · exact .of rfl (fun _ => rfl) (fun _ => by simp [draftOf, place_update])
      fun text h => (h.reads_nat32 hfits.column depth).givesIf trivial
  · exact .of rfl (fun _ => rfl) (fun _ => by simp [draftOf, place_update])
      fun text h => (h.reads_nat32 hfits.endLine depth).givesIf trivial
  · exact .of rfl (fun _ => rfl) (fun _ => by simp [draftOf, place_update])
      fun text h => (h.reads_nat32 hfits.endColumn depth).givesIf trivial
  · exact .of rfl (fun _ => rfl) (fun _ => by simp [draftOf, place_update])
      fun text h => (h.reads fun s _ hs => ⟨hs.reads depth, hs.head?_ne⟩).givesIf trivial

theorem finish_of_missing {d : Draft}
    (h : d.line = none ∨ d.column = none ∨ d.endLine = none ∨ d.endColumn = none) :
    finish d = .error .mismatch := by
  obtain ⟨line, column, endLine, endColumn, message⟩ := d
  cases line <;> cases column <;> cases endLine <;> cases endColumn <;>
    first | rfl | simp at h

theorem finish_of_kept {l : IssueLocation} {left : String → Bool} (h : Complete left) :
    finish (l.draftOf (keptOf l.known left)) = .ok (l.without left) := by
  have hline := h "line" (by simp)
  have hcolumn := h "column" (by simp)
  have hendLine := h "endLine" (by simp)
  have hendColumn := h "endColumn" (by simp)
  simp [finish, draftOf, known, without, place_keptOf, getD_kept, Json.required, hline, hcolumn,
    hendLine, hendColumn]
  rfl

theorem givesIf {l : IssueLocation} (hfits : l.Fits) {left : String → Bool} {text : List Char}
    (h : TellingText l.known left text) (depth : Nat) :
    GivesIf (decoder (depth + 1)) text (Complete left) (l.without left) := by
  refine h.givesIf rfl rfl (fills hfits depth)
    (fun hcomplete => ⟨fun _ _ _ => trivial, finish_of_kept hcomplete⟩)
    (fun hincomplete _ => finish_of_missing (Classical.byContradiction fun hnot => hincomplete ?_))
  simpa [draftOf, known, place_keptOf, Complete] using hnot

end IssueLocation

/-! ## Issues -/

namespace Issue

/-- The coordinates of an issue and its places are of 32 bits. -/
structure Fits (i : Issue) : Prop where
  line : i.line ≤ max32
  column : i.column ≤ max32
  endLine : ∀ n ∈ i.endLine, n ≤ max32
  endColumn : ∀ n ∈ i.endColumn, n ≤ max32
  locations : ∀ l ∈ i.secondaryLocations, l.Fits

/-- What is left out of an issue, and of each of its places. -/
structure Omission where
  left : String → Bool
  locations : Nat → String → Bool

/-- The members of an issue with their texts. -/
def known (o : Omission) (i : Issue) : List (String × (List Char → Prop)) :=
  [("ruleId", StringText i.ruleId), ("line", NatText i.line), ("column", NatText i.column),
   ("endLine", OptionalText NatText i.endLine), ("endColumn", OptionalText NatText i.endColumn),
   ("message", StringText i.message),
   ("secondaryLocations",
     ListText (fun k l => TellingText l.known (o.locations k)) i.secondaryLocations),
   ("cost", OptionalText FloatText i.cost)]

/-- The places of an issue have what they need. -/
def LocationsComplete (o : Omission) (i : Issue) : Prop :=
  ∀ k l, i.secondaryLocations[k]? = some l → IssueLocation.Complete (o.locations k)

/-- An issue needs its rule, its line and its message, and so do its places what they need. -/
def Complete (o : Omission) (i : Issue) : Prop :=
  (∀ n ∈ ["ruleId", "line", "message"], o.left n = false) ∧
    (o.left "secondaryLocations" = false → i.LocationsComplete o)

/-- The places of an issue without what is left out of them. -/
def locationsWithout (o : Omission) (i : Issue) : List IssueLocation :=
  i.secondaryLocations.mapIdx fun k l => l.without (o.locations k)

/-- An issue without the members that are left out. -/
def without (o : Omission) (i : Issue) : Issue :=
  { i with
    column := if o.left "column" then 0 else i.column
    endLine := if o.left "endLine" then none else i.endLine
    endColumn := if o.left "endColumn" then none else i.endColumn
    secondaryLocations := if o.left "secondaryLocations" then [] else i.locationsWithout o
    cost := if o.left "cost" then none else i.cost }

/-- What has been read of an issue behind some of its members. -/
def draftOf (o : Omission) (i : Issue) (seen : String → Bool) : Draft :=
  ⟨place seen "ruleId" i.ruleId, place seen "line" i.line, place seen "column" i.column,
   place seen "endLine" i.endLine, place seen "endColumn" i.endColumn,
   place seen "message" i.message, place seen "secondaryLocations" (i.locationsWithout o),
   place seen "cost" i.cost⟩

/-- Only in the places of an issue can something be missing. -/
def whole (o : Omission) (i : Issue) (name : String) : Prop :=
  name = "secondaryLocations" → i.LocationsComplete o

theorem fills {i : Issue} (hfits : i.Fits) (o : Omission) (depth : Nat) :
    ∀ m ∈ i.known o, Fills fields (depth + 2) (i.draftOf o) m.1 m.2 (i.whole o m.1) := by
  simp only [known, List.forall_mem_cons]
  refine ⟨?_, ?_, ?_, ?_, ?_, ?_, ?_, ?_, by simp⟩
  · exact .of rfl (fun _ => rfl) (fun _ => by simp [draftOf, place_update])
      fun text h => (h.reads _).givesIf (by simp [whole])
  · exact .of rfl (fun _ => rfl) (fun _ => by simp [draftOf, place_update])
      fun text h => (h.reads_nat32 hfits.line _).givesIf (by simp [whole])
  · exact .of rfl (fun _ => rfl) (fun _ => by simp [draftOf, place_update])
      fun text h => (h.reads_nat32 hfits.column _).givesIf (by simp [whole])
  · exact .of rfl (fun _ => rfl) (fun _ => by simp [draftOf, place_update]) fun text h =>
      (h.reads fun n hn ht => ⟨ht.reads_nat32 (hfits.endLine n hn) _, ht.head?_ne⟩).givesIf
        (by simp [whole])
  · exact .of rfl (fun _ => rfl) (fun _ => by simp [draftOf, place_update]) fun text h =>
      (h.reads fun n hn ht => ⟨ht.reads_nat32 (hfits.endColumn n hn) _, ht.head?_ne⟩).givesIf
        (by simp [whole])
  · exact .of rfl (fun _ => rfl) (fun _ => by simp [draftOf, place_update])
      fun text h => (h.reads _).givesIf (by simp [whole])
  · refine .of rfl (fun _ => rfl) (fun _ => by simp [draftOf, place_update]) fun text h => ?_
    have hlist := h.givesIf fun k l t hl ht =>
      IssueLocation.givesIf (hfits.locations l (List.mem_of_getElem? hl)) ht depth
    exact hlist.congr (by simp [whole, LocationsComplete])
  · exact .of rfl (fun _ => rfl) (fun _ => by simp [draftOf, place_update])
      fun text h => (h.reads fun x _ hx => ⟨hx.reads _, hx.head?_ne⟩).givesIf (by simp [whole])

theorem finish_of_missing {d : Draft} (h : d.ruleId = none ∨ d.line = none ∨ d.message = none) :
    finish d = .error .mismatch := by
  obtain ⟨ruleId, line, column, endLine, endColumn, message, secondaryLocations, cost⟩ := d
  cases ruleId <;> cases line <;> cases message <;> first | rfl | simp at h

theorem finish_of_kept {i : Issue} {o : Omission}
    (h : ∀ n ∈ ["ruleId", "line", "message"], o.left n = false) :
    finish (i.draftOf o (keptOf (i.known o) o.left)) = .ok (i.without o) := by
  have hruleId := h "ruleId" (by simp)
  have hline := h "line" (by simp)
  have hmessage := h "message" (by simp)
  simp [finish, draftOf, known, without, place_keptOf, getD_kept, Json.required, hruleId, hline,
    hmessage]
  rfl

theorem givesIf {i : Issue} (hfits : i.Fits) {o : Omission} {text : List Char}
    (h : TellingText (i.known o) o.left text) (depth : Nat) :
    GivesIf (decoder (depth + 3)) text (i.Complete o) (i.without o) := by
  refine h.givesIf rfl rfl (fills hfits o depth) (fun hcomplete => ⟨?_, ?_⟩)
    (fun hincomplete hwhole =>
      finish_of_missing (Classical.byContradiction fun hnot => hincomplete ⟨?_, ?_⟩))
  · rintro n - hkept rfl
    exact hcomplete.2 hkept
  · exact finish_of_kept hcomplete.1
  · simpa [draftOf, known, place_keptOf] using hnot
  · intro hkept
    exact hwhole "secondaryLocations" (by simp [known]) hkept rfl

end Issue

/-! ## Measures -/

namespace FileMeasures

/-- Line numbers and counts are of 32 bits. -/
structure Fits (m : FileMeasures) : Prop where
  lines : ∀ ls ∈ [m.ncloc, m.commentLines, m.nosonarLines, m.executableLines],
    ∀ n ∈ ls, n ≤ max32
  counts : ∀ n ∈ [m.functions, m.statements, m.classes, m.complexity, m.cognitiveComplexity],
    n ≤ max32

/-- The members of measures with their texts. -/
def known (m : FileMeasures) : List (String × (List Char → Prop)) :=
  [("ncloc", ListText (fun _ => NatText) m.ncloc),
   ("commentLines", ListText (fun _ => NatText) m.commentLines),
   ("nosonarLines", ListText (fun _ => NatText) m.nosonarLines),
   ("executableLines", ListText (fun _ => NatText) m.executableLines),
   ("functions", NatText m.functions), ("statements", NatText m.statements),
   ("classes", NatText m.classes), ("complexity", NatText m.complexity),
   ("cognitiveComplexity", NatText m.cognitiveComplexity)]

/-- Measures without those that are left out. -/
def without (left : String → Bool) (m : FileMeasures) : FileMeasures where
  ncloc := if left "ncloc" then [] else m.ncloc
  commentLines := if left "commentLines" then [] else m.commentLines
  nosonarLines := if left "nosonarLines" then [] else m.nosonarLines
  executableLines := if left "executableLines" then [] else m.executableLines
  functions := if left "functions" then 0 else m.functions
  statements := if left "statements" then 0 else m.statements
  classes := if left "classes" then 0 else m.classes
  complexity := if left "complexity" then 0 else m.complexity
  cognitiveComplexity := if left "cognitiveComplexity" then 0 else m.cognitiveComplexity

/-- What has been read of measures behind some of them. -/
def draftOf (m : FileMeasures) (seen : String → Bool) : Draft :=
  ⟨place seen "ncloc" m.ncloc, place seen "commentLines" m.commentLines,
   place seen "nosonarLines" m.nosonarLines, place seen "executableLines" m.executableLines,
   place seen "functions" m.functions, place seen "statements" m.statements,
   place seen "classes" m.classes, place seen "complexity" m.complexity,
   place seen "cognitiveComplexity" m.cognitiveComplexity⟩

theorem fills {m : FileMeasures} (hfits : m.Fits) (depth : Nat) :
    ∀ k ∈ m.known, Fills fields (depth + 1) m.draftOf k.1 k.2 True := by
  have hlines (ls : List Nat) (hls : ls ∈ [m.ncloc, m.commentLines, m.nosonarLines,
      m.executableLines]) (text : List Char) (h : ListText (fun _ => NatText) ls text) :
      GivesIf (Json.list Json.nat32 (depth + 1)) text True ls :=
    (h.reads fun n hn t ht => ht.reads_nat32 (hfits.lines ls hls n hn) depth).givesIf trivial
  have hcount (n : Nat) (hn : n ∈ [m.functions, m.statements, m.classes, m.complexity,
      m.cognitiveComplexity]) (text : List Char) (h : NatText n text) :
      GivesIf (Json.nat32 (depth + 1)) text True n :=
    (h.reads_nat32 (hfits.counts n hn) _).givesIf trivial
  simp only [known, List.forall_mem_cons]
  refine ⟨?_, ?_, ?_, ?_, ?_, ?_, ?_, ?_, ?_, by simp⟩
  · exact .of rfl (fun _ => rfl) (fun _ => by simp [draftOf, place_update])
      (hlines _ (by simp))
  · exact .of rfl (fun _ => rfl) (fun _ => by simp [draftOf, place_update])
      (hlines _ (by simp))
  · exact .of rfl (fun _ => rfl) (fun _ => by simp [draftOf, place_update])
      (hlines _ (by simp))
  · exact .of rfl (fun _ => rfl) (fun _ => by simp [draftOf, place_update])
      (hlines _ (by simp))
  · exact .of rfl (fun _ => rfl) (fun _ => by simp [draftOf, place_update])
      (hcount _ (by simp))
  · exact .of rfl (fun _ => rfl) (fun _ => by simp [draftOf, place_update])
      (hcount _ (by simp))
  · exact .of rfl (fun _ => rfl) (fun _ => by simp [draftOf, place_update])
      (hcount _ (by simp))
  · exact .of rfl (fun _ => rfl) (fun _ => by simp [draftOf, place_update])
      (hcount _ (by simp))
  · exact .of rfl (fun _ => rfl) (fun _ => by simp [draftOf, place_update])
      (hcount _ (by simp))

theorem givesIf {m : FileMeasures} (hfits : m.Fits) {left : String → Bool} {text : List Char}
    (h : TellingText m.known left text) (depth : Nat) :
    GivesIf (decoder (depth + 2)) text True (m.without left) := by
  refine h.givesIf rfl rfl (fills hfits depth) (fun _ => ⟨fun _ _ _ => trivial, ?_⟩)
    (absurd trivial)
  simp [finish, draftOf, known, without, place_keptOf, getD_kept]
  rfl

end FileMeasures

/-! ## Parsing errors and timings -/

namespace ParsingError

/-- The line of a parsing error is of 32 bits. -/
def Fits (e : ParsingError) : Prop := ∀ n ∈ e.line, n ≤ max32

/-- The members of a parsing error with their texts. -/
def known (e : ParsingError) : List (String × (List Char → Prop)) :=
  [("line", OptionalText NatText e.line), ("message", StringText e.message),
   ("code", OptionalText StringText e.code)]

/-- A parsing error needs its message. -/
def Complete (left : String → Bool) : Prop := left "message" = false

/-- A parsing error without the members that are left out. -/
def without (left : String → Bool) (e : ParsingError) : ParsingError :=
  { e with
    line := if left "line" then none else e.line
    code := if left "code" then none else e.code }

/-- What has been read of a parsing error behind some of its members. -/
def draftOf (e : ParsingError) (seen : String → Bool) : Draft :=
  ⟨place seen "line" e.line, place seen "message" e.message, place seen "code" e.code⟩

theorem fills {e : ParsingError} (hfits : e.Fits) (depth : Nat) :
    ∀ m ∈ e.known, Fills fields depth e.draftOf m.1 m.2 True := by
  simp only [known, List.forall_mem_cons]
  refine ⟨?_, ?_, ?_, by simp⟩
  · exact .of rfl (fun _ => rfl) (fun _ => by simp [draftOf, place_update]) fun text h =>
      (h.reads fun n hn ht => ⟨ht.reads_nat32 (hfits n hn) _, ht.head?_ne⟩).givesIf trivial
  · exact .of rfl (fun _ => rfl) (fun _ => by simp [draftOf, place_update])
      fun text h => (h.reads _).givesIf trivial
  · exact .of rfl (fun _ => rfl) (fun _ => by simp [draftOf, place_update])
      fun text h => (h.reads fun s _ hs => ⟨hs.reads _, hs.head?_ne⟩).givesIf trivial

theorem givesIf {e : ParsingError} (hfits : e.Fits) {left : String → Bool} {text : List Char}
    (h : TellingText e.known left text) (depth : Nat) :
    GivesIf (decoder (depth + 1)) text (Complete left) (e.without left) := by
  refine h.givesIf rfl rfl (fills hfits depth) (fun hmessage => ⟨fun _ _ _ => trivial, ?_⟩)
    (fun hmessage _ => ?_)
  · have hkept : left "message" = false := hmessage
    simp [finish, draftOf, known, without, place_keptOf, getD_kept, Json.required, hkept]
  · have hleft : left "message" = true := by simpa [Complete] using hmessage
    simp [finish, draftOf, known, place_keptOf, Json.required, hleft]

end ParsingError

namespace Perf

/-- Timings are of 64 bits. -/
structure Fits (p : Perf) : Prop where
  parseTime : p.parseTime ≤ Json.maxSignificand
  analysisTime : p.analysisTime ≤ Json.maxSignificand

/-- The members of timings with their texts. -/
def known (p : Perf) : List (String × (List Char → Prop)) :=
  [("parseTime", NatText p.parseTime), ("analysisTime", NatText p.analysisTime)]

/-- Timings without those that are left out. -/
def without (left : String → Bool) (p : Perf) : Perf where
  parseTime := if left "parseTime" then 0 else p.parseTime
  analysisTime := if left "analysisTime" then 0 else p.analysisTime

/-- What has been read of timings behind some of them. -/
def draftOf (p : Perf) (seen : String → Bool) : Draft :=
  ⟨place seen "parseTime" p.parseTime, place seen "analysisTime" p.analysisTime⟩

theorem fills {p : Perf} (hfits : p.Fits) (depth : Nat) :
    ∀ m ∈ p.known, Fills fields depth p.draftOf m.1 m.2 True := by
  simp only [known, List.forall_mem_cons]
  refine ⟨?_, ?_, by simp⟩
  · exact .of rfl (fun _ => rfl) (fun _ => by simp [draftOf, place_update])
      fun text h => (h.reads hfits.parseTime (Nat.le_refl _) _).givesIf trivial
  · exact .of rfl (fun _ => rfl) (fun _ => by simp [draftOf, place_update])
      fun text h => (h.reads hfits.analysisTime (Nat.le_refl _) _).givesIf trivial

theorem givesIf {p : Perf} (hfits : p.Fits) {left : String → Bool} {text : List Char}
    (h : TellingText p.known left text) (depth : Nat) :
    GivesIf (decoder (depth + 1)) text True (p.without left) := by
  refine h.givesIf rfl rfl (fills hfits depth) (fun _ => ⟨fun _ _ _ => trivial, ?_⟩)
    (absurd trivial)
  simp [finish, draftOf, known, without, place_keptOf, getD_kept]
  rfl

end Perf

/-! ## Answers about a file -/

namespace Response

/-- The numbers of an answer are of the widths that its objects have for them. -/
structure Fits (r : Response) : Prop where
  issues : ∀ i ∈ r.issues, i.Fits
  metrics : r.metrics.Fits
  parsingError : ∀ e ∈ r.parsingError, e.Fits
  perf : ∀ p ∈ r.perf, p.Fits

/-- What is left out of an answer, and of each object in it. -/
structure Omission where
  left : String → Bool
  issues : Nat → Issue.Omission
  metrics : String → Bool
  parsingError : String → Bool
  perf : String → Bool

/-- The members of an answer with their texts. -/
def known (o : Omission) (r : Response) : List (String × (List Char → Prop)) :=
  [("issues", ListText (fun k i => TellingText (i.known (o.issues k)) (o.issues k).left) r.issues),
   ("metrics", TellingText r.metrics.known o.metrics),
   ("parsingError", OptionalText (fun e => TellingText e.known o.parsingError) r.parsingError),
   ("perf", OptionalText (fun p => TellingText p.known o.perf) r.perf),
   ("error", OptionalText StringText r.error)]

/-- The issues of an answer have what they need. -/
def IssuesComplete (o : Omission) (r : Response) : Prop :=
  ∀ (k : Nat) (i : Issue), r.issues[k]? = some i → i.Complete (o.issues k)

/-- The parsing error of an answer has what it needs, if there is one. -/
def ErrorComplete (o : Omission) (r : Response) : Prop :=
  r.parsingError.isSome → ParsingError.Complete o.parsingError

/-- Every object of an answer that is not left out has what it needs. -/
def Complete (o : Omission) (r : Response) : Prop :=
  (o.left "issues" = false → r.IssuesComplete o) ∧
    (o.left "parsingError" = false → r.ErrorComplete o)

/-- The issues of an answer without what is left out of them. -/
def issuesWithout (o : Omission) (r : Response) : List Issue :=
  r.issues.mapIdx fun k i => i.without (o.issues k)

/-- An answer without the members that are left out, in it and in its objects. -/
def without (o : Omission) (r : Response) : Response where
  issues := if o.left "issues" then [] else r.issuesWithout o
  metrics := if o.left "metrics" then .empty else r.metrics.without o.metrics
  parsingError :=
    if o.left "parsingError" then none else r.parsingError.map (·.without o.parsingError)
  perf := if o.left "perf" then none else r.perf.map (·.without o.perf)
  error := if o.left "error" then none else r.error

/-- What has been read of an answer behind some of its members. -/
def draftOf (o : Omission) (r : Response) (seen : String → Bool) : Draft :=
  ⟨place seen "issues" (r.issuesWithout o), place seen "metrics" (r.metrics.without o.metrics),
   place seen "parsingError" (r.parsingError.map (·.without o.parsingError)),
   place seen "perf" (r.perf.map (·.without o.perf)), place seen "error" r.error⟩

/-- Something can be missing in the issues and in the parsing error only. -/
def whole (o : Omission) (r : Response) (name : String) : Prop :=
  (name = "issues" → r.IssuesComplete o) ∧ (name = "parsingError" → r.ErrorComplete o)

theorem fills {r : Response} (hfits : r.Fits) (o : Omission) (depth : Nat) :
    ∀ m ∈ r.known o, Fills fields (depth + 4) (r.draftOf o) m.1 m.2 (r.whole o m.1) := by
  simp only [known, List.forall_mem_cons]
  refine ⟨?_, ?_, ?_, ?_, ?_, by simp⟩
  · refine .of rfl (fun _ => rfl) (fun _ => by simp [draftOf, place_update]) fun text h => ?_
    have hlist := h.givesIf fun k i t hi ht =>
      Issue.givesIf (hfits.issues i (List.mem_of_getElem? hi)) ht depth
    exact hlist.congr (by simp [whole, IssuesComplete])
  · exact .of rfl (fun _ => rfl) (fun _ => by simp [draftOf, place_update]) fun text h =>
      (FileMeasures.givesIf hfits.metrics h (depth + 2)).congr (by simp [whole])
  · refine .of rfl (fun _ => rfl) (fun _ => by simp [draftOf, place_update]) fun text h => ?_
    have herror := h.givesIf fun e he ht =>
      ⟨ParsingError.givesIf (hfits.parsingError e he) ht (depth + 3), ht.head?_ne⟩
    exact herror.congr (by simp [whole, ErrorComplete, Option.isSome_iff_exists])
  · refine .of rfl (fun _ => rfl) (fun _ => by simp [draftOf, place_update]) fun text h => ?_
    have hperf := h.givesIf fun p hp ht =>
      ⟨Perf.givesIf (hfits.perf p hp) ht (depth + 3), ht.head?_ne⟩
    exact hperf.congr (by simp [whole])
  · exact .of rfl (fun _ => rfl) (fun _ => by simp [draftOf, place_update]) fun text h =>
      (h.reads fun s _ hs => ⟨hs.reads _, hs.head?_ne⟩).givesIf (by simp [whole])

theorem finish_of_kept (o : Omission) (r : Response) :
    finish (r.draftOf o (keptOf (r.known o) o.left)) = .ok (r.without o) := by
  simp [finish, draftOf, known, without, place_keptOf, getD_kept]
  rfl

theorem givesIf {r : Response} (hfits : r.Fits) {o : Omission} {text : List Char}
    (h : TellingText (r.known o) o.left text) (depth : Nat) :
    GivesIf (decoder (depth + 5)) text (r.Complete o) (r.without o) := by
  refine h.givesIf rfl rfl (fills hfits o depth) (fun hcomplete => ⟨?_, finish_of_kept o r⟩)
    (fun hincomplete hwhole => absurd ⟨?_, ?_⟩ hincomplete)
  · intro n _ hkept
    constructor
    · rintro rfl
      exact hcomplete.1 hkept
    · rintro rfl
      exact hcomplete.2 hkept
  · exact fun hkept => (hwhole "issues" (by simp [known]) hkept).1 rfl
  · exact fun hkept => (hwhole "parsingError" (by simp [known]) hkept).2 rfl

end Response

/-! ## Answers about a configuration -/

namespace ConfigAnswer

/-- The members of an answer with their texts; the options are nested within the depth that
is left inside the answer. -/
def known (a : ConfigAnswer) : List (String × (List Char → Prop)) :=
  [("options", fun text => Json.Denotes 126 text (.object a.options)),
   ("projectReferences", ListText (fun _ => StringText) a.projectReferences),
   ("files", ListText (fun _ => StringText) (a.files.map Path.text)),
   ("include", OptionalText (ListText fun _ => StringText) a.includes),
   ("exclude", ListText (fun _ => StringText) a.excludes),
   ("error", OptionalText StringText a.error)]

/-- An answer without the members that are left out. -/
def without (left : String → Bool) (a : ConfigAnswer) : ConfigAnswer where
  options := if left "options" then [] else a.options
  projectReferences := if left "projectReferences" then [] else a.projectReferences
  files := if left "files" then [] else a.files
  includes := if left "include" then none else a.includes
  excludes := if left "exclude" then [] else a.excludes
  error := if left "error" then none else a.error

/-- What has been read of an answer behind some of its members. -/
def draftOf (a : ConfigAnswer) (seen : String → Bool) : Draft :=
  ⟨place seen "options" a.options, place seen "projectReferences" a.projectReferences,
   place seen "files" (a.files.map Path.text), place seen "include" a.includes,
   place seen "exclude" a.excludes, place seen "error" a.error⟩

theorem fills (a : ConfigAnswer) :
    ∀ m ∈ a.known, Fills fields 126 a.draftOf m.1 m.2 True := by
  have hstrings (ss : List String) (text : List Char) (h : ListText (fun _ => StringText) ss text) :
      Json.Reads (Json.list Json.string 126) text ss :=
    h.reads fun s _ t ht => ht.reads _
  simp only [known, List.forall_mem_cons]
  refine ⟨?_, ?_, ?_, ?_, ?_, ?_, by simp⟩
  · exact .of rfl (fun _ => rfl) (fun _ => by simp [draftOf, place_update])
      fun text h => h.reads_freeObject.givesIf trivial
  · exact .of rfl (fun _ => rfl) (fun _ => by simp [draftOf, place_update])
      fun text h => (hstrings _ text h).givesIf trivial
  · exact .of rfl (fun _ => rfl) (fun _ => by simp [draftOf, place_update])
      fun text h => (hstrings _ text h).givesIf trivial
  · exact .of rfl (fun _ => rfl) (fun _ => by simp [draftOf, place_update]) fun text h =>
      (h.reads fun ss _ hss => ⟨hstrings ss text hss, hss.head?_ne⟩).givesIf trivial
  · exact .of rfl (fun _ => rfl) (fun _ => by simp [draftOf, place_update])
      fun text h => (hstrings _ text h).givesIf trivial
  · exact .of rfl (fun _ => rfl) (fun _ => by simp [draftOf, place_update])
      fun text h => (h.reads fun s _ hs => ⟨hs.reads _, hs.head?_ne⟩).givesIf trivial

theorem givesIf {a : ConfigAnswer} {left : String → Bool} {text : List Char}
    (h : TellingText a.known left text) :
    GivesIf (decoder 127) text True (a.without left) := by
  refine h.givesIf rfl rfl (fills a) (fun _ => ⟨fun _ _ _ => trivial, ?_⟩) (absurd trivial)
  have hpaths : (if left "files" then [] else a.files.map Path.text).map Path.mk =
      if left "files" then [] else a.files := by
    cases left "files" with
    | true => rfl
    | false =>
      have hmap : (a.files.map Path.text).map Path.mk = a.files := by
        rw [List.map_map]
        exact List.map_id a.files
      simpa using hmap
  simp [finish, draftOf, known, without, place_keptOf, getD_kept, hpaths, -List.map_map]

end ConfigAnswer

/-! ## Tolerant decoding -/

/-- An answer is decoded from any text that tells about it, whatever the order of the members
is, whichever of them are left out and whatever else there is: to the answer with the
left-out members at their defaults, or to a complaint if an object that is there lacks a
member that it needs.  The text of an answer about a configuration cannot lack anything. -/
theorem answers_decode_tolerantly :
    (∀ (r : Response) (o : Response.Omission) (text : String), r.Fits →
      Document (TellingText (r.known o) o.left) text →
      (r.Complete o → Json.decode Response.decoder text = .ok (r.without o)) ∧
      (¬ r.Complete o → Json.decode Response.decoder text = .error .mismatch)) ∧
    ∀ (a : ConfigAnswer) (left : String → Bool) (text : String),
      Document (TellingText a.known left) text →
      Json.decode ConfigAnswer.decoder text = .ok (a.without left) := by
  refine ⟨fun r o text hfits htext => ⟨fun hcomplete => ?_, fun hincomplete => ?_⟩,
    fun a left text htext => ?_⟩
  · exact htext.decode fun inner h => (Response.givesIf hfits h 122).ofWhole hcomplete
  · exact htext.decode fun inner h => (Response.givesIf hfits h 122).ofMissing hincomplete
  · exact htext.decode fun inner h => (ConfigAnswer.givesIf h).ofWhole trivial

/-- The members of an issue in another order, with one that nobody knows. -/
def newerIssue : Value :=
  .object
    [("message", .string "unused"), ("quickfix", .array [.null, .object [("text", .string "")]]),
     ("line", Json.nat 3), ("ruleId", .string "S1481")]

/-- An answer with one issue and with a member that nobody knows. -/
def newerAnswer : Value :=
  .object [("schema", .bool true), ("issues", .array [newerIssue])]

/-- The issue that it tells about, with more than it tells. -/
def fullIssue : Issue := ⟨"S1481", 3, 14, some 3, some 20, "unused", [], some 1.5⟩

/-- The answer that it tells about, with more than it tells. -/
def fullAnswer : Response where
  issues := [fullIssue]
  metrics := { FileMeasures.empty with ncloc := [1, 2, 3] }
  parsingError := none
  perf := some ⟨7, 12⟩
  error := none

/-- All that is left out of the issue. -/
def untoldOfIssue : Issue.Omission where
  left n := n ∉ ["ruleId", "line", "message"]
  locations _ _ := false

/-- All that is left out. -/
def untold : Response.Omission where
  left n := n != "issues"
  issues _ := untoldOfIssue
  metrics _ := false
  parsingError _ := false
  perf _ := false

theorem newerIssue_tells :
    TellingText (fullIssue.known untoldOfIssue) untoldOfIssue.left newerIssue.chars := by
  have hfix : Json.Valid (Value.object [("text", .string "")]).chars :=
    .object (Json.objectText_chars _) (by simpa using .string (Json.stringText_chars ""))
  have hnull : Json.Valid Value.null.chars := by
    rw [Value.chars]
    exact .null
  refine ⟨_, Json.objectText_chars _, ?_, ?_, ?_, ?_⟩
  · simp [Issue.known]
  · simpa [Issue.known] using
      ⟨Json.stringText_chars _, Json.natText_chars _, Json.stringText_chars _⟩
  · simp [Issue.known, untoldOfIssue]
  · simpa [Issue.known] using .array (Json.arrayText_chars _) (by simpa using ⟨hnull, hfix⟩)

theorem newerAnswer_tells :
    Document (TellingText (fullAnswer.known untold) untold.left) newerAnswer.compact := by
  have hschema : Json.Valid (Value.bool true).chars := by
    rw [Value.chars]
    exact .true
  refine ⟨[], newerAnswer.chars, [], Json.blank_nil, Json.blank_nil, ?_, by simp [Value.compact]⟩
  refine ⟨_, Json.objectText_chars _, ?_, ?_, ?_, ?_⟩
  · simp [Response.known]
  · have hissues : ListText (fun k i => TellingText (i.known (untold.issues k))
        (untold.issues k).left) fullAnswer.issues (Value.array [newerIssue]).chars := by
      refine ⟨_, Json.arrayText_chars _, rfl, fun k i t hi ht => ?_⟩
      cases k with
      | zero =>
        obtain rfl := Option.some.inj hi
        obtain rfl := Option.some.inj ht
        exact newerIssue_tells
      | succ k => cases hi
    simpa [Response.known] using hissues
  · simp [Response.known, untold]
  · simpa [Response.known] using hschema

theorem fullAnswer_fits : fullAnswer.Fits where
  issues := by
    intro i hi
    obtain rfl := List.mem_singleton.mp hi
    exact ⟨by decide, by decide, by simp [fullIssue, max32], by simp [fullIssue, max32],
      by rintro _ ⟨⟩⟩
  metrics := ⟨by simp [fullAnswer, FileMeasures.empty, max32], by
    simp [fullAnswer, FileMeasures.empty]⟩
  parsingError := by rintro _ ⟨⟩
  perf := by
    rintro p ⟨⟩
    exact ⟨by decide, by decide⟩

theorem newerAnswer_decodes :
    fullAnswer.Fits ∧ fullAnswer.Complete untold ∧
    Document (TellingText (fullAnswer.known untold) untold.left) newerAnswer.compact ∧
    Json.decode Response.decoder newerAnswer.compact =
      .ok ⟨[⟨"S1481", 3, 0, none, none, "unused", [], none⟩], .empty, none, none, none⟩ := by
  have hcomplete : fullAnswer.Complete untold := by
    refine ⟨fun _ k i hi => ?_, by rintro _ ⟨⟩⟩
    cases k with
    | zero =>
      obtain rfl := Option.some.inj hi
      refine ⟨by simp [untold, untoldOfIssue], ?_⟩
      intro _ k l hl
      simp [fullIssue] at hl
    | succ k => cases hi
  refine ⟨fullAnswer_fits, hcomplete, newerAnswer_tells, ?_⟩
  exact (answers_decode_tolerantly.1 fullAnswer untold _ fullAnswer_fits newerAnswer_tells).1
    hcomplete

end LintRelay
