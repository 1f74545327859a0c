import Mathlib.Data.Finset.Card
import LintRelay.Proofs.Project.Resolution
set_option autoImplicit false

/-!
# Resolution ends on finite graphs

The queue of a resolution may grow with every load, so its length does not tell how much
is left to do.  What decreases is the number of paths that were not loaded yet, as long as
all paths come from a finite set; and where a path is passed over, that number stays and
the queue gets shorter.

A resolution is given a bound on its loads.  `WorksOff` is the same loop without one: it
looks at the first path of the queue, passes over it or loads it, and goes on.  That the
loop comes to an end is shown of `WorksOff` (`exists_worksOff`), and `WorksOff.workOff_eq`
says that a bound changes nothing once it is as large as the number of loads made.
-/

namespace LintRelay

namespace Search

variable {σ : Type}

/-! ## The loop without a bound -/

/-- Working off a queue one path after the other comes to a result. -/
inductive WorksOff (e : Engine σ) (d : Disk) :
    List Path → Search σ → Except EngineError (List ConfigFile) → Search σ → Prop
  | done (s : Search σ) : WorksOff e d [] s (.ok s.loaded.reverse) s
  | passOver {p : Path} {rest : List Path} {s s' : Search σ}
      {result : Except EngineError (List ConfigFile)} (hp : p ∈ s.visited)
      (h : WorksOff e d rest s result s') : WorksOff e d (p :: rest) s result s'
  | failed {p : Path} (rest : List Path) {s s' : Search σ} {err : EngineError}
      (hp : p ∉ s.visited) (hload : s.load e d p = (.error err, s')) :
      WorksOff e d (p :: rest) s (.error err) s'
  | loaded {p : Path} {rest : List Path} {s s₁ s' : Search σ} {c : ConfigFile}
      {result : Except EngineError (List ConfigFile)} (hp : p ∉ s.visited)
      (hload : s.load e d p = (.ok c, s₁))
      (h : WorksOff e d (rest ++ c.resolvedReferences) s₁ result s') :
      WorksOff e d (p :: rest) s result s'

/-- A load is one call, and its path is the last one visited then. -/
theorem load_marks {e : Engine σ} {d : Disk} {p : Path} {s s' : Search σ}
    {result : Except EngineError ConfigFile} (h : s.load e d p = (result, s')) :
    s'.calls = s.calls ++ [.load p result] ∧ s'.visited = p :: s.visited := by
  rcases load_cases e d p s with
    ⟨err, s₁, hload, hcalls, -, -, hvisited, -⟩ | ⟨c, s₁, hload, hcalls, -, -, hvisited, -⟩ <;>
  · obtain ⟨rfl, rfl⟩ := Prod.mk.inj (hload.symm.trans h)
    exact ⟨hcalls, hvisited⟩

/-- The loop makes loads and nothing else, and marks every path that it loads. -/
theorem WorksOff.loads_made {e : Engine σ} {d : Disk} {queue : List Path} {s s' : Search σ}
    {result : Except EngineError (List ConfigFile)} (h : WorksOff e d queue s result s') :
    ∃ made : List Call, s'.calls = s.calls ++ made ∧ (∀ call ∈ made, call.isLoad = true) ∧
      s'.visited.length = s.visited.length + made.length := by
  induction h with
  | done s => exact ⟨[], by simp⟩
  | passOver _ _ ih => exact ih
  | failed rest _ hload =>
    obtain ⟨hcalls, hvisited⟩ := load_marks hload
    exact ⟨_, hcalls, by simp [Call.isLoad], by simp [hvisited]⟩
  | @loaded p rest s s₁ s' c result _ hload _ ih =>
    obtain ⟨hcalls, hvisited⟩ := load_marks hload
    obtain ⟨made, hmade, hkinds, hlength⟩ := ih
    refine ⟨.load p (.ok c) :: made, by simp [hmade, hcalls], ?_, ?_⟩
    · intro call hcall
      rcases List.mem_cons.mp hcall with rfl | hcall
      · rfl
      · exact hkinds call hcall
    · rw [hlength, hvisited, List.length_cons, List.length_cons]
      omega

/-- With a bound that allows for the loads made, the result is the same. -/
theorem WorksOff.workOff_eq {e : Engine σ} {d : Disk} {queue : List Path} {s s' : Search σ}
    {result : Except EngineError (List ConfigFile)} (h : WorksOff e d queue s result s')
    {loads : Nat} (hloads : s'.visited.length ≤ s.visited.length + loads) :
    workOff e d loads queue s = (some result, s') := by
  induction h generalizing loads with
  | done s =>
    unfold workOff
    rfl
  | @passOver p rest s s' result hp _ ih =>
    -- Passing over paths takes no load, and the bounded loop does it in one go.
    have hdrop : (p :: rest).dropWhile (s.visited.contains ·) =
        rest.dropWhile (s.visited.contains ·) :=
      List.dropWhile_cons_of_pos (by simpa using hp)
    rw [← ih hloads]
    conv_lhs => unfold workOff
    conv_rhs => unfold workOff
    rw [hdrop]
  | @failed p rest s s' err hp hload =>
    have hdrop : (p :: rest).dropWhile (s.visited.contains ·) = p :: rest :=
      List.dropWhile_cons_of_neg (by simpa using hp)
    have hvisited := (load_marks hload).2
    rw [hvisited, List.length_cons] at hloads
    cases loads with
    | zero => omega
    | succ loads =>
      unfold workOff
      simp only [hdrop, hload]
  | @loaded p rest s s₁ s' c result hp hload hrest ih =>
    have hdrop : (p :: rest).dropWhile (s.visited.contains ·) = p :: rest :=
      List.dropWhile_cons_of_neg (by simpa using hp)
    have hvisited := (load_marks hload).2
    obtain ⟨made, -, -, hlength⟩ := hrest.loads_made
    have hlength₁ : s₁.visited.length = s.visited.length + 1 := by rw [hvisited]; rfl
    cases loads with
    | zero => omega
    | succ loads =>
      unfold workOff
      simp only [hdrop, hload]
      exact ih (by omega)

/-! ## Within a finite graph -/

/-- A finite set of paths that holds, with a path, the references of every configuration
that the engine can answer for it. -/
def Closed (e : Engine σ) (d : Disk) (start : σ) (graph : Finset Path) : Prop :=
  ∀ p ∈ graph, ∀ c, e.CanAnswer d start p (.ok c) → ∀ q ∈ c.resolvedReferences, q ∈ graph

/-- A resolution that has stayed in a set of paths, with a queue of such paths. -/
structure Within (e : Engine σ) (start : σ) (graph : Finset Path) (queue : List Path)
    (s : Search σ) : Prop where
  history : e.History start s.calls s.engine
  nodup : s.visited.Nodup
  visited : ∀ p ∈ s.visited, p ∈ graph
  queued : ∀ p ∈ queue, p ∈ graph

theorem Within.length_visited_le {e : Engine σ} {start : σ} {graph : Finset Path}
    {queue : List Path} {s : Search σ} (h : Within e start graph queue s) :
    s.visited.length ≤ graph.card := by
  rw [← List.toFinset_card_of_nodup h.nodup]
  refine Finset.card_le_card ?_
  intro p hp
  exact h.visited p (List.mem_toFinset.mp hp)

/-- A load that is answered stays in a closed set, and so do the references it brings. -/
theorem Within.load_ok {e : Engine σ} {d : Disk} {start : σ} {graph : Finset Path}
    {p : Path} {rest : List Path} {s s' : Search σ} {c : ConfigFile}
    (h : Within e start graph (p :: rest) s) (hclosed : Closed e d start graph)
    (hp : p ∉ s.visited) (hload : s.load e d p = (.ok c, s')) :
    Within e start graph (rest ++ c.resolvedReferences) s' := by
  obtain ⟨hcalls, hvisited⟩ := load_marks hload
  have hgraph : p ∈ graph := h.queued p List.mem_cons_self
  have hanswer : (e.loadConfig d p s.engine).value = .ok c ∧
      s'.engine = (e.loadConfig d p s.engine).state := by
    unfold load at hload
    cases hvalue : (e.loadConfig d p s.engine).value with
    | error err => simp [hvalue] at hload
    | ok c' =>
      simp only [hvalue] at hload
      obtain ⟨hc, rfl⟩ := Prod.mk.inj hload
      exact ⟨congrArg Except.ok (Except.ok.inj hc), rfl⟩
  have hmakes := Engine.Makes.load (e := e) d p s.engine
  rw [hanswer.1, ← hanswer.2] at hmakes
  have hreferences : ∀ q ∈ c.resolvedReferences, q ∈ graph :=
    hclosed p hgraph c ⟨s.calls, s.engine, h.history, hanswer.1⟩
  refine ⟨?_, ?_, ?_, ?_⟩
  · rw [hcalls]
    exact h.history.append hmakes.history
  · rw [hvisited]
    exact List.nodup_cons.mpr ⟨hp, h.nodup⟩
  · intro q hq
    rw [hvisited] at hq
    rcases List.mem_cons.mp hq with rfl | hq
    · exact hgraph
    · exact h.visited q hq
  · intro q hq
    rcases List.mem_append.mp hq with hq | hq
    · exact h.queued q (List.mem_cons_of_mem p hq)
    · exact hreferences q hq

/-- Within a closed finite set the loop comes to a result, and loads no more paths than
the set has. -/
theorem exists_worksOff {e : Engine σ} {d : Disk} {start : σ} {graph : Finset Path}
    (hclosed : Closed e d start graph) {queue : List Path} {s : Search σ}
    (h : Within e start graph queue s) :
    ∃ result s', WorksOff e d queue s result s' ∧ s'.visited.length ≤ graph.card := by
  -- A load leaves fewer paths unloaded; passing over leaves as many and a shorter queue.
  induction hleft : graph.card - s.visited.length using Nat.strong_induction_on
    generalizing queue s with
  | _ left ihLoad =>
    induction queue with
    | nil => exact ⟨_, s, .done s, h.length_visited_le⟩
    | cons p rest ihQueue =>
      by_cases hp : p ∈ s.visited
      · have hrest : Within e start graph rest s :=
          { h with queued := fun q hq => h.queued q (List.mem_cons_of_mem p hq) }
        obtain ⟨result, s', hworks, hbound⟩ := ihQueue hrest
        exact ⟨result, s', .passOver hp hworks, hbound⟩
      · have hunloaded : (p :: s.visited).length ≤ graph.card := by
          have hmarked : Within e start graph [] { s with visited := p :: s.visited } := by
            refine ⟨h.history, ?_, ?_, by simp⟩
            · exact List.nodup_cons.mpr ⟨hp, h.nodup⟩
            · intro q hq
              rcases List.mem_cons.mp hq with rfl | hq
              · exact h.queued q List.mem_cons_self
              · exact h.visited q hq
          exact hmarked.length_visited_le
        rcases hload : s.load e d p with ⟨err | c, s₁⟩
        · have hvisited := (load_marks hload).2
          exact ⟨_, s₁, .failed rest hp hload, by rwa [hvisited]⟩
        · have hvisited := (load_marks hload).2
          have hless : graph.card - s₁.visited.length < left := by
            rw [hvisited]
            rw [List.length_cons] at hunloaded ⊢
            omega
          obtain ⟨result, s', hworks, hbound⟩ :=
            ihLoad _ hless (h.load_ok hclosed hp hload) rfl
          exact ⟨result, s', .loaded hp hload hworks, hbound⟩

end Search

/-- Let a finite set of paths hold the seeds in normal form, and with a path the references
of every configuration that the engine can answer for it.  Then a resolution returns,
whatever the references are: the loop over the queue comes to a result, and `resolve` gives
this result whenever it may load as often as the loop does.  All calls are loads, and there
are no more of them than paths in the set. -/
theorem resolve_ends_on_finite_graph {σ : Type} {e : Engine σ} {d : Disk} {seeds : List Path}
    {start : σ} {graph : Finset Path} (hseeds : ∀ p ∈ seeds, p.normalize ∈ graph)
    (hclosed : Search.Closed e d start graph) :
    ∃ result s,
      Search.WorksOff e d (seeds.map Path.normalize) (Search.start start) result s ∧
      (∀ loads, s.calls.length ≤ loads → resolve e d loads seeds start = (some result, s)) ∧
      (∀ call ∈ s.calls, call.isLoad = true) ∧ s.calls.length ≤ graph.card := by
  have hwithin : Search.Within e start graph (seeds.map Path.normalize) (Search.start start) :=
    { history := .nil start
      nodup := List.nodup_nil
      visited := by simp [Search.start]
      queued := by simpa using hseeds }
  obtain ⟨result, s, hworks, hbound⟩ := Search.exists_worksOff hclosed hwithin
  obtain ⟨made, hmade, hkinds, hlength⟩ := hworks.loads_made
  have hcalls : s.calls = made := hmade
  have hvisited : s.visited.length = s.calls.length := by
    rw [hlength, hcalls]
    exact Nat.zero_add _
  refine ⟨result, s, hworks, ?_, ?_, ?_⟩
  · intro loads hloads
    exact hworks.workOff_eq (by rw [hvisited]; exact Nat.le_add_left_of_le hloads)
  · rw [hcalls]
    exact hkinds
  · rwa [← hvisited]

/-- Two configurations with references to each other and to themselves are loaded once
each, and two loads are enough. -/
theorem resolve_cyclicConfigs_ends :
    (∀ p ∈ [(⟨"/a.json"⟩ : Path), ⟨"/./a.json"⟩], p.normalize ∈
      ({⟨"/a.json"⟩, ⟨"/b.json"⟩} : Finset Path)) ∧
    Search.Closed (Engine.ofTables cyclicConfigs fun _ => .ok .empty) default ()
      {⟨"/a.json"⟩, ⟨"/b.json"⟩} ∧
    ∃ result s,
      resolve (Engine.ofTables cyclicConfigs fun _ => .ok .empty) default 2
        [⟨"/a.json"⟩, ⟨"/./a.json"⟩] () = (some result, s) ∧ s.calls.length ≤ 2 := by
  have hseeds : ∀ p ∈ [(⟨"/a.json"⟩ : Path), ⟨"/./a.json"⟩], p.normalize ∈
      ({⟨"/a.json"⟩, ⟨"/b.json"⟩} : Finset Path) := by
    decide +kernel
  have hclosed : Search.Closed (Engine.ofTables cyclicConfigs fun _ => .ok .empty) default ()
      {⟨"/a.json"⟩, ⟨"/b.json"⟩} := by
    have hanswers : ∀ p ∈ ({⟨"/a.json"⟩, ⟨"/b.json"⟩} : Finset Path),
        ∀ c ∈ (cyclicConfigs p).toOption, ∀ q ∈ c.resolvedReferences,
          q ∈ ({⟨"/a.json"⟩, ⟨"/b.json"⟩} : Finset Path) := by
      decide +kernel
    rintro p hp c ⟨calls, a, -, hvalue⟩
    have hconfig : cyclicConfigs p = .ok c := hvalue
    exact hanswers p hp c (by rw [hconfig]; rfl)
  obtain ⟨result, s, -, hend, -, hbound⟩ := resolve_ends_on_finite_graph hseeds hclosed
  exact ⟨hseeds, hclosed, result, s, hend 2 hbound, hbound⟩

end LintRelay
