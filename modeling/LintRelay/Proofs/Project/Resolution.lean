import Mathlib.Data.List.Nodup
import Mathlib.Data.List.TakeWhile
import LintRelay.Project.Resolution
import LintRelay.Proofs.Engine.Calls
import LintRelay.Proofs.Path
set_option autoImplicit false

/-!
# What a resolution loads

The project graph is discovered while it is traversed, and an engine may answer a
load with anything.  So the edges are read off the calls: a configuration refers to
what the answer to its load refers to.  `Reached` is the least set of paths that holds
the seeds and is closed under these edges, and a resolution that ends well loads the
paths of this set, each of them once.

The proof follows the queue.  `Pending` says what holds whenever the queue is looked
at: everything loaded or waiting is reached, and every seed and every reference of a
loaded configuration is loaded or waiting.  Once nothing waits, the second half says
that the loaded paths are closed.
-/

namespace LintRelay

/-- The paths that a resolution has to load, by the answers it was given: the least set
that holds the seeds in normal form, and with a path the references of the
configuration answered for it. -/
inductive Reached (seeds : List Path) (calls : List Call) : Path → Prop
  | seed {p : Path} (hp : p ∈ seeds) : Reached seeds calls p.normalize
  | reference {p q : Path} {c : ConfigFile} (hp : Reached seeds calls p)
      (hc : Call.load p (.ok c) ∈ calls) (hq : q ∈ c.resolvedReferences) :
      Reached seeds calls q

theorem Reached.mono {seeds : List Path} {calls more : List Call} {p : Path}
    (h : Reached seeds calls p) (hsub : calls ⊆ more) : Reached seeds more p := by
  induction h with
  | seed hp => exact .seed hp
  | reference _ hc hq ih => exact .reference ih (hsub hc) hq

theorem ConfigFile.exists_normalize_of_mem_resolvedReferences {c : ConfigFile} {q : Path}
    (h : q ∈ c.resolvedReferences) : ∃ r : Path, q = r.normalize := by
  obtain ⟨reference, -, rfl⟩ := List.mem_map.mp h
  unfold Path.resolveReference
  simp only
  split
  · exact ⟨_, rfl⟩
  · exact ⟨_, rfl⟩

theorem Reached.exists_normalize {seeds : List Path} {calls : List Call} {p : Path}
    (h : Reached seeds calls p) : ∃ r : Path, p = r.normalize := by
  cases h with
  | seed _ => exact ⟨_, rfl⟩
  | reference _ _ hq => exact ConfigFile.exists_normalize_of_mem_resolvedReferences hq

namespace Search

variable {σ : Type}

/-- The calls that a resolution has made. -/
def calls (s : Search σ) : List Call := callsOf s.events

/-! ## One load -/

/-- A load either fails, and then nothing is kept of its answer, or gives a
configuration. -/
theorem load_cases (e : Engine σ) (d : Disk) (p : Path) (s : Search σ) :
    (∃ err s', s.load e d p = (.error err, s') ∧
      s'.calls = s.calls ++ [.load p (.error err)] ∧
      e.Makes s.engine (.load p (.error err)) s'.engine ∧
      deliveriesOf s'.events = deliveriesOf s.events ∧
      s'.visited = p :: s.visited ∧ s'.loaded = s.loaded) ∨
    (∃ c s', s.load e d p = (.ok c, s') ∧
      s'.calls = s.calls ++ [.load p (.ok c)] ∧
      e.Makes s.engine (.load p (.ok c)) s'.engine ∧
      deliveriesOf s'.events = deliveriesOf s.events ∧
      s'.visited = p :: s.visited ∧ s'.loaded = c :: s.loaded) := by
  have hmakes := Engine.Makes.load (e := e) d p s.engine
  cases hvalue : (e.loadConfig d p s.engine).value with
  | error err =>
    rw [hvalue] at hmakes
    refine Or.inl ⟨err, (s.load e d p).2, ?_⟩
    simpa [load, hvalue, calls] using hmakes
  | ok c =>
    rw [hvalue] at hmakes
    refine Or.inr ⟨c, (s.load e d p).2, ?_⟩
    simpa [load, hvalue, calls] using hmakes

/-! ## The queue -/

/-- What is passed over was loaded before, and what comes next was not. -/
theorem dropWhile_visited {visited queue : List Path} {p : Path} {rest : List Path}
    (h : queue.dropWhile (visited.contains ·) = p :: rest) :
    p ∉ visited ∧ (∀ q ∈ queue, q ∈ visited ∨ q = p ∨ q ∈ rest) ∧
      ∀ q ∈ p :: rest, q ∈ queue := by
  have hsplit := List.takeWhile_append_dropWhile (p := (visited.contains ·)) (l := queue)
  rw [h] at hsplit
  refine ⟨?_, ?_, ?_⟩
  · have hhead := List.head?_dropWhile_not (visited.contains ·) queue
    rw [h] at hhead
    simpa using hhead
  · intro q hq
    rw [← hsplit, List.mem_append, List.mem_cons] at hq
    rcases hq with hq | hq
    · exact Or.inl (by simpa using List.mem_takeWhile_imp hq)
    · exact Or.inr hq
  · intro q hq
    rw [← hsplit]
    exact List.mem_append_right _ hq

/-- A resolution in good order, with a queue still to be worked off. -/
structure Pending (e : Engine σ) (start : σ) (seeds queue : List Path) (s : Search σ) :
    Prop where
  history : e.History start s.calls s.engine
  /-- Nothing has gone to a sink. -/
  undelivered : deliveriesOf s.events = []
  /-- Every call is a load, and was answered. -/
  answered : s.calls.map Call.config? = s.loaded.reverse.map some
  paths : s.calls.filterMap Call.path? = s.visited.reverse
  nodup : s.visited.Nodup
  visited_reached : ∀ p ∈ s.visited, Reached seeds s.calls p
  queued_reached : ∀ p ∈ queue, Reached seeds s.calls p
  seeds_covered : ∀ p ∈ seeds, p.normalize ∈ s.visited ∨ p.normalize ∈ queue
  references_covered : ∀ p c, Call.load p (.ok c) ∈ s.calls →
    ∀ q ∈ c.resolvedReferences, q ∈ s.visited ∨ q ∈ queue

/-- A resolution that was broken off by a load that failed. -/
structure Broken (e : Engine σ) (start : σ) (seeds : List Path) (err : EngineError)
    (s : Search σ) : Prop where
  history : e.History start s.calls s.engine
  undelivered : deliveriesOf s.events = []
  /-- Every call before the last one was answered. -/
  last : ∃ (before : List Call) (configs : List ConfigFile) (p : Path),
    s.calls = before ++ [.load p (.error err)] ∧ before.map Call.config? = configs.map some
  paths : s.calls.filterMap Call.path? = s.visited.reverse
  nodup : s.visited.Nodup
  visited_reached : ∀ p ∈ s.visited, Reached seeds s.calls p

theorem pending_start (e : Engine σ) (start : σ) (seeds : List Path) :
    Pending e start seeds (seeds.map Path.normalize) (Search.start start) where
  history := .nil start
  undelivered := rfl
  answered := rfl
  paths := rfl
  nodup := List.nodup_nil
  visited_reached := by simp [Search.start]
  queued_reached := by
    intro p hp
    obtain ⟨q, hq, rfl⟩ := List.mem_map.mp hp
    exact .seed hq
  seeds_covered := fun p hp => Or.inr (List.mem_map_of_mem hp)
  references_covered := by simp [Search.start, calls]

/-- A queue that is passed over as a whole is as good as an empty one. -/
theorem Pending.passed_over {e : Engine σ} {start : σ} {seeds queue : List Path}
    {s : Search σ} (h : Pending e start seeds queue s)
    (hnone : queue.dropWhile (s.visited.contains ·) = []) : Pending e start seeds [] s := by
  have hall : ∀ q ∈ queue, q ∈ s.visited := by
    simpa using List.dropWhile_eq_nil_iff.mp hnone
  exact
    { history := h.history
      undelivered := h.undelivered
      answered := h.answered
      paths := h.paths
      nodup := h.nodup
      visited_reached := h.visited_reached
      queued_reached := by simp
      seeds_covered := fun p hp => Or.inl ((h.seeds_covered p hp).elim id (hall _))
      references_covered := fun p c hc q hq =>
        Or.inl ((h.references_covered p c hc q hq).elim id (hall q)) }

/-- A load that is answered sends the references of the answer to the end of the
queue. -/
theorem Pending.load_ok {e : Engine σ} {start : σ} {seeds queue rest : List Path}
    {s s' : Search σ} {p : Path} {c : ConfigFile} (h : Pending e start seeds queue s)
    (hnext : queue.dropWhile (s.visited.contains ·) = p :: rest)
    (hcalls : s'.calls = s.calls ++ [.load p (.ok c)])
    (hmakes : e.Makes s.engine (.load p (.ok c)) s'.engine)
    (hundelivered : deliveriesOf s'.events = deliveriesOf s.events)
    (hvisited : s'.visited = p :: s.visited) (hloaded : s'.loaded = c :: s.loaded) :
    Pending e start seeds (rest ++ c.resolvedReferences) s' := by
  obtain ⟨hfresh, hqueue, hback⟩ := dropWhile_visited hnext
  have hsub : s.calls ⊆ s'.calls := by
    rw [hcalls]
    exact List.subset_append_left _ _
  have hp : Reached seeds s'.calls p :=
    (h.queued_reached p (hback p List.mem_cons_self)).mono hsub
  have hload : Call.load p (.ok c) ∈ s'.calls := by simp [hcalls]
  -- Whatever was loaded or waiting before still is, `p` itself being loaded now.
  have hkeep : ∀ q, q ∈ s.visited ∨ q ∈ queue →
      q ∈ s'.visited ∨ q ∈ rest ++ c.resolvedReferences := by
    intro q hq
    rw [hvisited, List.mem_cons, List.mem_append]
    rcases hq with hq | hq
    · exact Or.inl (Or.inr hq)
    · rcases hqueue q hq with hq | hq | hq
      · exact Or.inl (Or.inr hq)
      · exact Or.inl (Or.inl hq)
      · exact Or.inr (Or.inl hq)
  refine ⟨?_, hundelivered.trans h.undelivered, ?_, ?_, ?_, ?_, ?_, ?_, ?_⟩
  · rw [hcalls]
    exact h.history.append hmakes.history
  · simp [hcalls, hloaded, h.answered, Call.config?]
  · simp [hcalls, hvisited, h.paths, Call.path?]
  · rw [hvisited]
    exact List.nodup_cons.mpr ⟨hfresh, h.nodup⟩
  · intro q hq
    rw [hvisited] at hq
    rcases List.mem_cons.mp hq with rfl | hq
    · exact hp
    · exact (h.visited_reached q hq).mono hsub
  · intro q hq
    rcases List.mem_append.mp hq with hq | hq
    · exact (h.queued_reached q (hback q (List.mem_cons_of_mem p hq))).mono hsub
    · exact .reference hp hload hq
  · exact fun q hq => hkeep _ (h.seeds_covered q hq)
  · intro q c' hc' r hr
    rw [hcalls, List.mem_append, List.mem_singleton] at hc'
    rcases hc' with hc' | hc'
    · exact hkeep r (h.references_covered q c' hc' r hr)
    · cases hc'
      exact Or.inr (List.mem_append_right _ hr)

theorem Pending.load_error {e : Engine σ} {start : σ} {seeds queue rest : List Path}
    {s s' : Search σ} {p : Path} {err : EngineError} (h : Pending e start seeds queue s)
    (hnext : queue.dropWhile (s.visited.contains ·) = p :: rest)
    (hcalls : s'.calls = s.calls ++ [.load p (.error err)])
    (hmakes : e.Makes s.engine (.load p (.error err)) s'.engine)
    (hundelivered : deliveriesOf s'.events = deliveriesOf s.events)
    (hvisited : s'.visited = p :: s.visited) : Broken e start seeds err s' := by
  obtain ⟨hfresh, -, hback⟩ := dropWhile_visited hnext
  have hsub : s.calls ⊆ s'.calls := by
    rw [hcalls]
    exact List.subset_append_left _ _
  refine ⟨?_, hundelivered.trans h.undelivered,
    ⟨s.calls, s.loaded.reverse, p, hcalls, h.answered⟩, ?_, ?_, ?_⟩
  · rw [hcalls]
    exact h.history.append hmakes.history
  · simp [hcalls, hvisited, h.paths, Call.path?]
  · rw [hvisited]
    exact List.nodup_cons.mpr ⟨hfresh, h.nodup⟩
  · intro q hq
    rw [hvisited] at hq
    rcases List.mem_cons.mp hq with rfl | hq
    · exact (h.queued_reached q (hback q List.mem_cons_self)).mono hsub
    · exact (h.visited_reached q hq).mono hsub

/-! ## Working off the queue -/

/-- What a resolution has come to: it is done, it was broken off, or it ran out of
loads with paths still waiting. -/
def Ended (e : Engine σ) (start : σ) (seeds : List Path) :
    Option (Except EngineError (List ConfigFile)) → Search σ → Prop
  | none, s => ∃ queue, Pending e start seeds queue s
  | some (.ok configs), s => Pending e start seeds [] s ∧ configs = s.loaded.reverse
  | some (.error err), s => Broken e start seeds err s

theorem workOff_ended {e : Engine σ} {start : σ} {seeds : List Path} (d : Disk) (loads : Nat)
    {queue : List Path} {s : Search σ} (h : Pending e start seeds queue s) :
    Ended e start seeds (workOff e d loads queue s).1 (workOff e d loads queue s).2 := by
  induction loads generalizing queue s with
  | zero =>
    unfold workOff
    cases hnext : queue.dropWhile (s.visited.contains ·) with
    | nil => exact ⟨h.passed_over hnext, rfl⟩
    | cons p rest => exact ⟨queue, h⟩
  | succ loads ih =>
    unfold workOff
    cases hnext : queue.dropWhile (s.visited.contains ·) with
    | nil => exact ⟨h.passed_over hnext, rfl⟩
    | cons p rest =>
      rcases load_cases e d p s with
        ⟨err, s', hload, hcalls, hmakes, hundelivered, hvisited, -⟩ |
        ⟨c, s', hload, hcalls, hmakes, hundelivered, hvisited, hloaded⟩
      · simp only [hload]
        exact h.load_error hnext hcalls hmakes hundelivered hvisited
      · simp only [hload]
        exact ih (h.load_ok hnext hcalls hmakes hundelivered hvisited hloaded)

/-- Nothing that is reached is missing once nothing waits. -/
theorem Pending.mem_visited_of_reached {e : Engine σ} {start : σ} {seeds : List Path}
    {s : Search σ} (h : Pending e start seeds [] s) {p : Path}
    (hp : Reached seeds s.calls p) : p ∈ s.visited := by
  induction hp with
  | seed hp => exact (h.seeds_covered _ hp).resolve_right (by simp)
  | reference _ hc hq _ => exact (h.references_covered _ _ hc _ hq).resolve_right (by simp)

/-- Paths that are reached are in normal form, so no two of them are spellings of one
path. -/
theorem nodup_components_of_reached {seeds : List Path} {calls : List Call}
    {paths : List Path} (hnodup : paths.Nodup) (hreached : ∀ p ∈ paths, Reached seeds calls p) :
    (paths.map Path.components).Nodup := by
  refine hnodup.map_on ?_
  intro p hp q hq heq
  obtain ⟨p', rfl⟩ := (hreached p hp).exists_normalize
  obtain ⟨q', rfl⟩ := (hreached q hq).exists_normalize
  exact Path.normalize_eq_of_components_eq heq

end Search

theorem Call.isLoad_of_config? {call : Call} {c : ConfigFile} (h : call.config? = some c) :
    call.isLoad = true ∧ call.failed = false := by
  unfold config? at h
  split at h
  · exact ⟨rfl, rfl⟩
  · cases h

/-- Calls that gave one configuration each are loads, and none of them failed. -/
theorem loads_of_map_config? {calls : List Call} {configs : List ConfigFile}
    (h : calls.map Call.config? = configs.map some) :
    ∀ call ∈ calls, call.isLoad = true ∧ call.failed = false := by
  intro call hcall
  have hmem : call.config? ∈ configs.map some := by
    rw [← h]
    exact List.mem_map_of_mem hcall
  obtain ⟨c, -, hc⟩ := List.mem_map.mp hmem
  exact Call.isLoad_of_config? hc.symm

theorem resolve_ended {σ : Type} (e : Engine σ) (d : Disk) (loads : Nat) (seeds : List Path)
    (start : σ) :
    Search.Ended e start seeds (resolve e d loads seeds start).1
      (resolve e d loads seeds start).2 :=
  Search.workOff_ended d loads (Search.pending_start e start seeds)

/-- What the groups of files come from: either every load was answered, and then the
files are assigned to the configurations answered, if there were loads enough; or the
last load failed, and its error is the result. -/
theorem resolveGroups_cases {σ : Type} {e : Engine σ} {d : Disk} {loads : Nat}
    {seeds : List Path} (hseeds : seeds ≠ []) {files : List SourceFile} {start : σ}
    {result : Option (Except EngineError (List ConfigGroup))} {s : Search σ}
    (h : resolveGroups e d loads seeds files start = (result, s)) :
    e.History start s.calls s.engine ∧ deliveriesOf s.events = [] ∧
      ((∃ configs : List ConfigFile, s.calls.map Call.config? = configs.map some ∧
          (result = none ∨ result = some (partition configs files))) ∨
        ∃ (err : EngineError) (before : List Call) (configs : List ConfigFile) (p : Path),
          result = some (.error err) ∧ s.calls = before ++ [.load p (.error err)] ∧
          before.map Call.config? = configs.map some) := by
  have hended := resolve_ended e d loads seeds start
  have hsome : seeds.isEmpty = false := by simpa using hseeds
  simp only [resolveGroups, hsome, Bool.false_eq_true, if_false] at h
  rcases hresolve : resolve e d loads seeds start with ⟨_ | err | configs, s'⟩
  · rw [hresolve] at hended h
    obtain ⟨rfl, rfl⟩ := Prod.mk.inj h
    obtain ⟨queue, hpending⟩ := hended
    exact ⟨hpending.history, hpending.undelivered,
      Or.inl ⟨_, hpending.answered, Or.inl rfl⟩⟩
  · rw [hresolve] at hended h
    obtain ⟨rfl, rfl⟩ := Prod.mk.inj h
    have hbroken : Search.Broken e start seeds err s' := hended
    obtain ⟨before, configs, p, hcalls, hanswered⟩ := hbroken.last
    exact ⟨hbroken.history, hbroken.undelivered,
      Or.inr ⟨err, before, configs, p, rfl, hcalls, hanswered⟩⟩
  · rw [hresolve] at hended h
    obtain ⟨rfl, rfl⟩ := Prod.mk.inj h
    obtain ⟨hpending, hconfigs⟩ := hended
    refine ⟨hpending.history, hpending.undelivered,
      Or.inl ⟨_, hpending.answered, Or.inr ?_⟩⟩
    rw [hconfigs]

/-- A resolution that ends has called the engine for loads only, and for no path twice,
in whatever way paths are spelled.  When it ends well, it gives the configurations
answered, one for each call and in the order of the calls, and the paths loaded are the
least set that holds the seeds and is closed under references.  When it ends badly,
every call but the last was answered, and the error is that of the last one. -/
theorem resolve_loads_reached_once {σ : Type} {e : Engine σ} {d : Disk} {loads : Nat}
    {seeds : List Path} {start : σ} {result : Except EngineError (List ConfigFile)}
    {s : Search σ} (hend : resolve e d loads seeds start = (some result, s)) :
    e.History start s.calls s.engine ∧
    (∀ call ∈ s.calls, call.isLoad = true) ∧
    ((s.calls.filterMap Call.path?).map Path.components).Nodup ∧
    match result with
    | .ok configs =>
      s.calls.map Call.config? = configs.map some ∧
        ∀ p, p ∈ s.calls.filterMap Call.path? ↔ Reached seeds s.calls p
    | .error err =>
      ∃ before p, s.calls = before ++ [.load p (.error err)] ∧
        ∀ call ∈ before, call.failed = false := by
  have hended := resolve_ended e d loads seeds start
  rw [hend] at hended
  cases result with
  | ok configs =>
    obtain ⟨hpending, hconfigs⟩ := hended
    have hanswered : s.calls.map Call.config? = configs.map some := by
      rw [hpending.answered, hconfigs]
    refine ⟨hpending.history, fun call hcall => (loads_of_map_config? hanswered call hcall).1,
      ?_, hanswered, ?_⟩
    · rw [hpending.paths]
      exact Search.nodup_components_of_reached (List.nodup_reverse.mpr hpending.nodup)
        fun p hp => hpending.visited_reached p (List.mem_reverse.mp hp)
    · intro p
      rw [hpending.paths, List.mem_reverse]
      exact ⟨hpending.visited_reached p, hpending.mem_visited_of_reached⟩
  | error err =>
    have hbroken : Search.Broken e start seeds err s := hended
    obtain ⟨before, configs, p, hcalls, hanswered⟩ := hbroken.last
    refine ⟨hbroken.history, ?_, ?_, before, p, hcalls, ?_⟩
    · intro call hcall
      rw [hcalls, List.mem_append, List.mem_singleton] at hcall
      rcases hcall with hcall | rfl
      · exact (loads_of_map_config? hanswered call hcall).1
      · rfl
    · rw [hbroken.paths]
      exact Search.nodup_components_of_reached (List.nodup_reverse.mpr hbroken.nodup)
        fun p hp => hbroken.visited_reached p (List.mem_reverse.mp hp)
    · exact fun call hcall => (loads_of_map_config? hanswered call hcall).2

/-- Two configurations that refer to each other, and one of them to itself.  What is
answered for the second one has another path, and its reference starts from there. -/
def cyclicConfigs (p : Path) : Except EngineError ConfigFile :=
  if p = ⟨"/a.json"⟩ then .ok ⟨p, [], ["b.json", "./a.json"], [], none, []⟩
  else .ok ⟨⟨"/q/b.json"⟩, [], ["../a.json"], [], none, []⟩

theorem resolve_cyclicConfigs_loads_reached_once :
    ∃ configs s,
      resolve (Engine.ofTables cyclicConfigs fun _ => .ok .empty) default 2
        [⟨"/a.json"⟩, ⟨"/./a.json"⟩] () = (some (.ok configs), s) ∧
      configs.length = 2 ∧ s.calls.map Call.config? = configs.map some ∧
      ((s.calls.filterMap Call.path?).map Path.components).Nodup ∧
      ∀ p, p ∈ s.calls.filterMap Call.path? ↔
        Reached [⟨"/a.json"⟩, ⟨"/./a.json"⟩] s.calls p := by
  have hlength :
      (((resolve (Engine.ofTables cyclicConfigs fun _ => .ok .empty) default 2
        [⟨"/a.json"⟩, ⟨"/./a.json"⟩] ()).1.bind Except.toOption).map List.length) = some 2 := by
    decide +kernel
  rcases hend : resolve (Engine.ofTables cyclicConfigs fun _ => .ok .empty) default 2
      [⟨"/a.json"⟩, ⟨"/./a.json"⟩] () with ⟨_ | err | configs, s⟩
  · simp [hend] at hlength
  · simp [hend, Except.toOption] at hlength
  · obtain ⟨-, -, hnodup, hanswered, hreached⟩ := resolve_loads_reached_once hend
    refine ⟨configs, s, rfl, ?_, hanswered, hnodup, hreached⟩
    simpa [hend, Except.toOption] using hlength

end LintRelay
