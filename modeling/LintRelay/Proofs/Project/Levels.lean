import Mathlib.Order.Bounds.Basic
import LintRelay.Proofs.Project.Resolution
set_option autoImplicit false

/-!
# Resolution is breadth first

A resolution works off one queue, in which a path may wait several times and paths of
two levels stand behind each other.  The levels themselves are defined here without a
queue: the seeds are the first level, and the next one is what the configurations of a
level refer to and no level has had before.

What connects the two is the list of everything that some loaded paths bring up
(`discovered`).  The paths loaded so far, with the waiting ones behind them, always are
this list (`Ordered.front`), and every path was at the time of its load the first one of
it not loaded yet (`Ordered.next`).  The levels up to one are what the levels up to the
one before bring up (`discovered_levels`), so they grow inside the list of loaded paths
until they fill it.
-/

namespace LintRelay

/-! ## Levels -/

/-- What the configurations answered for a path refer to. -/
def referencesOf (calls : List Call) (p : Path) : List Path :=
  calls.flatMap fun call =>
    match call with
    | .load q (.ok c) => if q = p then c.resolvedReferences else []
    | _ => []

/-- The paths of all levels before one, level by level, and the paths of that level: the
seeds in normal form, and then whatever the level before refers to, in its order, as far
as it is on no earlier level.  What comes up twice stands where it comes up first. -/
def levels (seeds : List Path) (calls : List Call) : Nat → List Path × List Path
  | 0 => ([], (seeds.map Path.normalize).eraseDups)
  | n + 1 =>
    let (before, here) := levels seeds calls n
    (before ++ here,
      ((here.flatMap (referencesOf calls)).filter fun p => p ∉ before ++ here).eraseDups)

/-- The paths of one level. -/
def level (seeds : List Path) (calls : List Call) (n : Nat) : List Path :=
  (levels seeds calls n).2

/-- A path is reached from the seeds by a number of references. -/
inductive ReachedIn (seeds : List Path) (calls : List Call) : Nat → Path → Prop
  | seed {p : Path} (hp : p ∈ seeds) : ReachedIn seeds calls 0 p.normalize
  | reference {n : Nat} {p q : Path} {c : ConfigFile} (hp : ReachedIn seeds calls n p)
      (hc : Call.load p (.ok c) ∈ calls) (hq : q ∈ c.resolvedReferences) :
      ReachedIn seeds calls (n + 1) q

/-- A number of references is the distance of a path from the seeds. -/
def IsDistance (seeds : List Path) (calls : List Call) (p : Path) (n : Nat) : Prop :=
  IsLeast {m | ReachedIn seeds calls m p} n

/-! ## References -/

theorem mem_referencesOf {calls : List Call} {p q : Path} :
    q ∈ referencesOf calls p ↔
      ∃ c : ConfigFile, Call.load p (.ok c) ∈ calls ∧ q ∈ c.resolvedReferences := by
  unfold referencesOf
  rw [List.mem_flatMap]
  constructor
  · rintro ⟨call, hcall, hq⟩
    split at hq
    · rename_i p' c
      split at hq
      · rename_i hp
        subst hp
        exact ⟨c, hcall, hq⟩
      · cases hq
    · cases hq
  · rintro ⟨c, hcall, hq⟩
    exact ⟨.load p (.ok c), hcall, by simpa using hq⟩

/-- A path that was not loaded refers to nothing. -/
theorem referencesOf_eq_nil {calls : List Call} {p : Path}
    (h : p ∉ calls.filterMap Call.path?) : referencesOf calls p = [] := by
  refine List.eq_nil_iff_forall_not_mem.mpr ?_
  intro q hq
  obtain ⟨c, hload, -⟩ := mem_referencesOf.mp hq
  exact h (List.mem_filterMap.mpr ⟨_, hload, rfl⟩)

theorem referencesOf_concat_self {calls : List Call} {p : Path} (c : ConfigFile)
    (h : p ∉ calls.filterMap Call.path?) :
    referencesOf (calls ++ [.load p (.ok c)]) p = c.resolvedReferences := by
  have hbefore := referencesOf_eq_nil h
  unfold referencesOf at hbefore ⊢
  rw [List.flatMap_append, hbefore]
  simp

theorem referencesOf_concat_of_ne {calls : List Call} {p q : Path} (c : ConfigFile)
    (h : p ≠ q) : referencesOf (calls ++ [.load p (.ok c)]) q = referencesOf calls q := by
  unfold referencesOf
  rw [List.flatMap_append]
  simp [h]

/-! ## What paths bring up -/

theorem removeAll_eq_filter (xs ys : List Path) :
    xs.removeAll ys = xs.filter fun p => p ∉ ys := by
  simp [List.removeAll]

/-- Lists with the same members leave out the same. -/
theorem filter_notMem_congr {ys zs : List Path} (h : ∀ p, p ∈ ys ↔ p ∈ zs)
    (xs : List Path) : (xs.filter fun p => p ∉ ys) = xs.filter fun p => p ∉ zs := by
  simp only [h]

theorem eraseDups_append_eq (xs ys : List Path) :
    (xs ++ ys).eraseDups = xs.eraseDups ++ (ys.filter fun p => p ∉ xs).eraseDups := by
  rw [List.eraseDups_append, removeAll_eq_filter]

/-- The seeds and everything that loaded paths refer to, in the order in which it comes
up. -/
def discovered (seeds : List Path) (calls : List Call) (loaded : List Path) : List Path :=
  (seeds.map Path.normalize ++ loaded.flatMap (referencesOf calls)).eraseDups

theorem discovered_append (seeds : List Path) (calls : List Call) (loaded more : List Path) :
    discovered seeds calls (loaded ++ more) =
      discovered seeds calls loaded ++
        ((more.flatMap (referencesOf calls)).filter
          fun p => p ∉ discovered seeds calls loaded).eraseDups := by
  have hmem : ∀ p, p ∈ discovered seeds calls loaded ↔
      p ∈ seeds.map Path.normalize ++ loaded.flatMap (referencesOf calls) :=
    fun p => List.mem_eraseDups
  rw [filter_notMem_congr hmem]
  unfold discovered
  rw [List.flatMap_append, ← List.append_assoc, eraseDups_append_eq]

theorem discovered_prefix {loaded more : List Path} (h : loaded <+: more) (seeds : List Path)
    (calls : List Call) : discovered seeds calls loaded <+: discovered seeds calls more := by
  obtain ⟨rest, rfl⟩ := h
  rw [discovered_append]
  exact List.prefix_append _ _

/-- A load adds nothing to what other paths bring up. -/
theorem discovered_concat_of_notMem {calls : List Call} {loaded : List Path} {p : Path}
    (h : p ∉ loaded) (seeds : List Path) (c : ConfigFile) :
    discovered seeds (calls ++ [.load p (.ok c)]) loaded = discovered seeds calls loaded := by
  have hsame : loaded.flatMap (referencesOf (calls ++ [.load p (.ok c)])) =
      loaded.flatMap (referencesOf calls) := by
    refine List.flatMap_congr ?_
    intro q hq
    exact referencesOf_concat_of_ne c fun heq => h (heq ▸ hq)
  unfold discovered
  rw [hsame]

/-! ## Levels fill the list of loaded paths -/

/-- The levels before one bring up that level behind them. -/
theorem discovered_levels (seeds : List Path) (calls : List Call) (n : Nat) :
    discovered seeds calls (levels seeds calls n).1 = (levels seeds calls (n + 1)).1 := by
  induction n with
  | zero => simp [discovered, levels]
  | succ n ih =>
    have hbefore : (levels seeds calls (n + 1)).1 =
        (levels seeds calls n).1 ++ (levels seeds calls n).2 := rfl
    calc discovered seeds calls (levels seeds calls (n + 1)).1
        = discovered seeds calls ((levels seeds calls n).1 ++ (levels seeds calls n).2) := by
          rw [hbefore]
      _ = (levels seeds calls (n + 1)).1 ++
            (((levels seeds calls n).2.flatMap (referencesOf calls)).filter
              fun p => p ∉ (levels seeds calls (n + 1)).1).eraseDups := by
          rw [discovered_append, ih]
      _ = (levels seeds calls (n + 2)).1 := rfl

theorem levels_fst_eq_flatMap (seeds : List Path) (calls : List Call) (n : Nat) :
    (levels seeds calls n).1 = (List.range n).flatMap (level seeds calls) := by
  induction n with
  | zero => rfl
  | succ n ih =>
    rw [List.range_succ, List.flatMap_append, ← ih]
    simp [levels, level]

/-- Every path of a list was the first one not loaded yet of those that the paths before
it bring up. -/
def LoadedNext (seeds : List Path) (calls : List Call) (paths : List Path) : Prop :=
  ∀ before p after, paths = before ++ p :: after →
    before ++ [p] <+: discovered seeds calls before

theorem levels_prefix_of_closed {seeds : List Path} {calls : List Call} {paths : List Path}
    (hclosed : discovered seeds calls paths = paths) (n : Nat) :
    (levels seeds calls n).1 <+: paths := by
  induction n with
  | zero => exact List.nil_prefix
  | succ n ih =>
    have hgrown := discovered_prefix ih seeds calls
    rwa [discovered_levels, hclosed] at hgrown

/-- As long as the levels do not fill the list, every level has a path. -/
theorem levels_fill_or_grow {seeds : List Path} {calls : List Call} {paths : List Path}
    (hnext : LoadedNext seeds calls paths) (hclosed : discovered seeds calls paths = paths)
    (n : Nat) :
    (levels seeds calls n).1 = paths ∨ n ≤ (levels seeds calls n).1.length := by
  induction n with
  | zero => exact .inr (Nat.zero_le _)
  | succ n ih =>
    rw [← discovered_levels]
    rcases ih with hfilled | hlong
    · rw [hfilled]
      exact .inl hclosed
    · obtain ⟨after, hpaths⟩ := levels_prefix_of_closed hclosed n
      cases after with
      | nil =>
        left
        rw [List.append_nil] at hpaths
        rw [hpaths, hclosed]
      | cons p after =>
        right
        have hlength := (hnext _ p after hpaths.symm).length_le
        rw [List.length_append, List.length_singleton] at hlength
        omega

/-- Behind as many levels as there are paths all paths are listed. -/
theorem levels_fst_eq {seeds : List Path} {calls : List Call} {paths : List Path}
    (hnext : LoadedNext seeds calls paths) (hclosed : discovered seeds calls paths = paths)
    {n : Nat} (hn : paths.length < n) : (levels seeds calls n).1 = paths := by
  rcases levels_fill_or_grow hnext hclosed n with hfilled | hlong
  · exact hfilled
  · have hlength := (levels_prefix_of_closed hclosed n).length_le
    omega

theorem exists_depth {seeds : List Path} {calls : List Call} {paths : List Path}
    (hnext : LoadedNext seeds calls paths) (hclosed : discovered seeds calls paths = paths) :
    ∃ depth, paths = (List.range depth).flatMap (level seeds calls) ∧
      ∀ n, depth ≤ n → level seeds calls n = [] := by
  refine ⟨paths.length + 1, ?_, ?_⟩
  · rw [← levels_fst_eq_flatMap, levels_fst_eq hnext hclosed (Nat.lt_succ_self _)]
  · intro n hn
    have hhere := levels_fst_eq hnext hclosed (Nat.lt_of_succ_le hn)
    have hbehind := levels_fst_eq hnext hclosed (Nat.lt_succ_of_lt (Nat.lt_of_succ_le hn))
    have hsplit : (levels seeds calls (n + 1)).1 =
        (levels seeds calls n).1 ++ level seeds calls n := rfl
    rw [hbehind, hhere] at hsplit
    exact List.append_right_eq_self.mp hsplit.symm

/-! ## Distances -/

theorem level_reachedIn {seeds : List Path} {calls : List Call} {n : Nat} {p : Path}
    (h : p ∈ level seeds calls n) : ReachedIn seeds calls n p := by
  induction n generalizing p with
  | zero =>
    have hseed : p ∈ seeds.map Path.normalize := List.mem_eraseDups.mp h
    obtain ⟨q, hq, rfl⟩ := List.mem_map.mp hseed
    exact .seed hq
  | succ n ih =>
    have hreference := List.mem_of_mem_filter (List.mem_eraseDups.mp h)
    obtain ⟨q, hq, hp⟩ := List.mem_flatMap.mp hreference
    obtain ⟨c, hload, hmem⟩ := mem_referencesOf.mp hp
    exact .reference (ih hq) hload hmem

theorem ReachedIn.mem_levels {seeds : List Path} {calls : List Call} {n : Nat} {p : Path}
    (h : ReachedIn seeds calls n p) : p ∈ (levels seeds calls (n + 1)).1 := by
  induction h with
  | seed hp =>
    rw [← discovered_levels]
    exact List.mem_eraseDups.mpr (List.mem_append_left _ (List.mem_map_of_mem hp))
  | reference _ hc hq ih =>
    rw [← discovered_levels]
    refine List.mem_eraseDups.mpr (List.mem_append_right _ ?_)
    exact List.mem_flatMap.mpr ⟨_, ih, mem_referencesOf.mpr ⟨_, hc, hq⟩⟩

theorem levels_fst_subset {seeds : List Path} {calls : List Call} {m n : Nat} (h : m ≤ n) :
    (levels seeds calls m).1 ⊆ (levels seeds calls n).1 := by
  induction h with
  | refl => exact List.Subset.refl _
  | step _ ih => exact List.Subset.trans ih (List.subset_append_left _ _)

theorem notMem_before_of_mem_level {seeds : List Path} {calls : List Call} {n : Nat} {p : Path}
    (h : p ∈ level seeds calls n) : p ∉ (levels seeds calls n).1 := by
  cases n with
  | zero => simp [levels]
  | succ n =>
    have hfilter := (List.mem_filter.mp (List.mem_eraseDups.mp h)).2
    exact of_decide_eq_true hfilter

/-- The number of its level is the distance of a path. -/
theorem isDistance_of_mem_level {seeds : List Path} {calls : List Call} {n : Nat} {p : Path}
    (h : p ∈ level seeds calls n) : IsDistance seeds calls p n := by
  refine ⟨level_reachedIn h, ?_⟩
  intro m hm
  by_contra hless
  have hbefore := levels_fst_subset (Nat.lt_of_not_le hless) (ReachedIn.mem_levels hm)
  exact notMem_before_of_mem_level h hbefore

theorem pairwise_distance_le (seeds : List Path) (calls : List Call) (depth : Nat) :
    ((List.range depth).flatMap (level seeds calls)).Pairwise fun p q =>
      ∀ m n, IsDistance seeds calls p m → IsDistance seeds calls q n → m ≤ n := by
  rw [List.pairwise_flatMap]
  constructor
  · intro i _
    refine List.pairwise_of_forall_mem_list ?_
    intro p hp q hq m n hm hn
    rw [hm.unique (isDistance_of_mem_level hp), hn.unique (isDistance_of_mem_level hq)]
  · refine List.pairwise_lt_range.imp ?_
    intro i j hij p hp q hq m n hm hn
    rw [hm.unique (isDistance_of_mem_level hp), hn.unique (isDistance_of_mem_level hq)]
    exact Nat.le_of_lt hij

/-! ## The queue -/

namespace Search

variable {σ : Type}

/-- What every load that is answered keeps holds of a resolution that ends well, with
only loaded paths left in the queue. -/
theorem workOff_ok {e : Engine σ} {d : Disk} {Inv : List Path → Search σ → Prop}
    (hstep : ∀ queue s p rest c s', Inv queue s →
      queue.dropWhile (s.visited.contains ·) = p :: rest → s.load e d p = (.ok c, s') →
      Inv (rest ++ c.resolvedReferences) s')
    {loads : Nat} {queue : List Path} {s s' : Search σ} {configs : List ConfigFile}
    (h : Inv queue s) (hend : workOff e d loads queue s = (some (.ok configs), s')) :
    ∃ left, Inv left s' ∧ ∀ p ∈ left, p ∈ s'.visited := by
  fun_induction workOff e d loads queue s with
  | case1 loads queue s hnext =>
    obtain ⟨-, rfl⟩ := Prod.mk.inj hend
    exact ⟨queue, h, by simpa using List.dropWhile_eq_nil_iff.mp hnext⟩
  | case2 queue s p rest hnext => cases hend
  | case3 queue s p rest hnext loads err s₁ hload => cases hend
  | case4 queue s p rest hnext loads c s₁ hload ih =>
    exact ih (hstep queue s p rest c s₁ h hnext hload) hend

/-- The order that a resolution keeps, with a queue still to be worked off. -/
structure Ordered (seeds queue : List Path) (s : Search σ) : Prop where
  paths : s.calls.filterMap Call.path? = s.visited.reverse
  /-- The paths loaded and those that wait are what the paths loaded bring up. -/
  front : s.visited.reverse ++ (queue.filter fun p => p ∉ s.visited).eraseDups =
    discovered seeds s.calls s.visited.reverse
  next : LoadedNext seeds s.calls s.visited.reverse

theorem ordered_start (seeds : List Path) (start : σ) :
    Ordered seeds (seeds.map Path.normalize) (Search.start start) where
  paths := rfl
  front := by simp [Search.start, discovered]
  next := by
    intro before p after h
    simp [Search.start] at h

/-- The first path that waits is the one that is loaded next. -/
theorem waiting_eq_cons {visited queue : List Path} {p : Path} {rest : List Path}
    (h : queue.dropWhile (visited.contains ·) = p :: rest) :
    (queue.filter fun q => q ∉ visited).eraseDups =
      p :: (rest.filter fun q => q ∉ p :: visited).eraseDups := by
  have hfresh : p ∉ visited := (dropWhile_visited h).1
  have hsplit := List.takeWhile_append_dropWhile (p := (visited.contains ·)) (l := queue)
  have hpassed : (queue.takeWhile (visited.contains ·)).filter (fun q => q ∉ visited) = [] := by
    refine List.filter_eq_nil_iff.mpr ?_
    intro q hq
    have hvisited := List.mem_takeWhile_imp hq
    simpa using hvisited
  rw [← hsplit, h, List.filter_append, hpassed, List.nil_append, List.filter_cons,
    if_pos (by simpa using hfresh), List.eraseDups_cons, List.filter_filter]
  congr 2
  refine List.filter_congr ?_
  intro q _
  by_cases hq : q = p <;> simp [hq]

/-- The references of an answer go behind everything that waits, less what is loaded or
waits already. -/
theorem waiting_append {visited rest : List Path} (references : List Path) (p : Path) :
    ((rest ++ references).filter fun q => q ∉ p :: visited).eraseDups =
      (rest.filter fun q => q ∉ p :: visited).eraseDups ++
        (references.filter fun q => q ∉
          visited.reverse ++ p :: (rest.filter fun q => q ∉ p :: visited).eraseDups).eraseDups := by
  rw [List.filter_append, eraseDups_append_eq, List.filter_filter]
  congr 2
  refine List.filter_congr ?_
  intro q _
  by_cases hq : q ∈ p :: visited
  · simp only [List.mem_cons] at hq
    rcases hq with rfl | hq <;> simp [*]
  · have hne : q ≠ p := fun h => hq (h ▸ List.mem_cons_self)
    have hnot : q ∉ visited := fun h => hq (List.mem_cons_of_mem p h)
    simp [hne, hnot]

theorem Ordered.load {seeds queue rest : List Path} {s s' : Search σ} {p : Path}
    {c : ConfigFile} (h : Ordered seeds queue s)
    (hnext : queue.dropWhile (s.visited.contains ·) = p :: rest)
    (hcalls : s'.calls = s.calls ++ [.load p (.ok c)]) (hvisited : s'.visited = p :: s.visited) :
    Ordered seeds (rest ++ c.resolvedReferences) s' := by
  have hfresh : p ∉ s.visited.reverse := by simpa using (dropWhile_visited hnext).1
  have hunloaded : p ∉ s.calls.filterMap Call.path? := by rwa [h.paths]
  have hfront := h.front
  rw [waiting_eq_cons hnext] at hfront
  have hreverse : s'.visited.reverse = s.visited.reverse ++ [p] := by simp [hvisited]
  refine ⟨?_, ?_, ?_⟩
  · simp [hcalls, hvisited, h.paths, Call.path?]
  · rw [hreverse, hcalls, hvisited, discovered_append, discovered_concat_of_notMem hfresh,
      List.flatMap_singleton, referencesOf_concat_self c hunloaded, ← hfront, waiting_append]
    simp
  · intro before q after hpaths
    rw [hcalls]
    rw [hreverse] at hpaths
    -- The path in question is the one just loaded, or it was loaded before.
    rcases List.eq_nil_or_concat after with rfl | ⟨after', last, rfl⟩
    · obtain ⟨rfl, hq⟩ := List.append_inj' hpaths rfl
      obtain rfl : p = q := by simpa using hq
      rw [discovered_concat_of_notMem hfresh, ← hfront]
      exact ⟨_, (List.append_cons _ p _).symm⟩
    · rw [List.concat_eq_append, ← List.cons_append, ← List.append_assoc] at hpaths
      obtain ⟨hearlier, -⟩ := List.append_inj' hpaths rfl
      have hmem : p ∉ before := fun hp => hfresh (by simp [hearlier, hp])
      rw [discovered_concat_of_notMem hmem]
      exact h.next before q after' hearlier

/-- When only loaded paths wait, the loaded paths bring up nothing but themselves. -/
theorem Ordered.closed {seeds queue : List Path} {s : Search σ} (h : Ordered seeds queue s)
    (hqueue : ∀ p ∈ queue, p ∈ s.visited) :
    discovered seeds s.calls s.visited.reverse = s.visited.reverse := by
  have hnone : (queue.filter fun p => p ∉ s.visited) = [] := by
    refine List.filter_eq_nil_iff.mpr ?_
    intro p hp
    simpa using hqueue p hp
  have hfront := h.front
  rw [hnone, List.eraseDups_nil, List.append_nil] at hfront
  exact hfront.symm

end Search

theorem resolve_ordered {σ : Type} {e : Engine σ} {d : Disk} {loads : Nat} {seeds : List Path}
    {start : σ} {configs : List ConfigFile} {s : Search σ}
    (hend : resolve e d loads seeds start = (some (.ok configs), s)) :
    ∃ queue, Search.Ordered seeds queue s ∧ ∀ p ∈ queue, p ∈ s.visited := by
  refine Search.workOff_ok ?_ (Search.ordered_start seeds start) hend
  intro queue s p rest c s' hordered hnext hload
  rcases Search.load_cases e d p s with
    ⟨err, s₁, hfailed, -⟩ | ⟨c₁, s₁, hanswered, hcalls, -, -, hvisited, -⟩
  · rw [hfailed] at hload
    cases hload
  · rw [hanswered] at hload
    cases hload
    exact hordered.load hnext hcalls hvisited

/-- The paths that a resolution loads when it ends well, in the order of the loads, are
the levels one after the other, until there are no more levels with paths.  The number
of its level is the distance of a path from the seeds, so distances never decrease in the
order of the loads, which is also that of the configurations in the result. -/
theorem resolve_breadth_first {σ : Type} {e : Engine σ} {d : Disk} {loads : Nat}
    {seeds : List Path} {start : σ} {configs : List ConfigFile} {s : Search σ}
    (hend : resolve e d loads seeds start = (some (.ok configs), s)) :
    s.calls.map Call.config? = configs.map some ∧
    (∃ depth, s.calls.filterMap Call.path? = (List.range depth).flatMap (level seeds s.calls) ∧
      ∀ n, depth ≤ n → level seeds s.calls n = []) ∧
    (∀ n, ∀ p ∈ level seeds s.calls n, IsDistance seeds s.calls p n) ∧
    (s.calls.filterMap Call.path?).Pairwise fun p q =>
      ∀ m n, IsDistance seeds s.calls p m → IsDistance seeds s.calls q n → m ≤ n := by
  obtain ⟨queue, hordered, hqueue⟩ := resolve_ordered hend
  have hended := resolve_ended e d loads seeds start
  rw [hend] at hended
  obtain ⟨hpending, hconfigs⟩ := hended
  obtain ⟨depth, hlevels, hempty⟩ := exists_depth hordered.next (hordered.closed hqueue)
  rw [hordered.paths, hconfigs]
  refine ⟨hpending.answered, ⟨depth, hlevels, hempty⟩,
    fun n p hp => isDistance_of_mem_level hp, ?_⟩
  rw [hlevels]
  exact pairwise_distance_le seeds s.calls depth

/-- Five configurations, of which the second refers to the third and to the fourth as
well, and the last two refer back to the first. -/
def crossedConfigs (p : Path) : Except EngineError ConfigFile :=
  if p = ⟨"/a.json"⟩ then .ok ⟨p, [], ["b.json", "c.json", "b.json"], [], none, []⟩
  else if p = ⟨"/b.json"⟩ then .ok ⟨p, [], ["c.json", "d.json"], [], none, []⟩
  else if p = ⟨"/c.json"⟩ then .ok ⟨p, [], ["d.json", "e.json"], [], none, []⟩
  else .ok ⟨p, [], ["a.json"], [], none, []⟩

/-- The last two configurations are at distance two, although one of them is also reached
over three references. -/
theorem resolve_crossedConfigs_breadth_first :
    ∃ configs s,
      resolve (Engine.ofTables crossedConfigs fun _ => .ok .empty) default 5
        [⟨"/./a.json"⟩] () = (some (.ok configs), s) ∧
      (level [⟨"/./a.json"⟩] s.calls 1 = [⟨"/b.json"⟩, ⟨"/c.json"⟩] ∧
        level [⟨"/./a.json"⟩] s.calls 2 = [⟨"/d.json"⟩, ⟨"/e.json"⟩]) ∧
      (∃ depth, s.calls.filterMap Call.path? =
        (List.range depth).flatMap (level [⟨"/./a.json"⟩] s.calls)) ∧
      IsDistance [⟨"/./a.json"⟩] s.calls ⟨"/d.json"⟩ 2 := by
  have hcomputed :
      (resolve (Engine.ofTables crossedConfigs fun _ => .ok .empty) default 5
        [⟨"/./a.json"⟩] ()).1.any Except.isOk = true ∧
      level [⟨"/./a.json"⟩] (resolve (Engine.ofTables crossedConfigs fun _ => .ok .empty)
        default 5 [⟨"/./a.json"⟩] ()).2.calls 1 = [⟨"/b.json"⟩, ⟨"/c.json"⟩] ∧
      level [⟨"/./a.json"⟩] (resolve (Engine.ofTables crossedConfigs fun _ => .ok .empty)
        default 5 [⟨"/./a.json"⟩] ()).2.calls 2 = [⟨"/d.json"⟩, ⟨"/e.json"⟩] := by
    decide +kernel
  rcases hend : resolve (Engine.ofTables crossedConfigs fun _ => .ok .empty) default 5
      [⟨"/./a.json"⟩] () with ⟨_ | err | configs, s⟩
  · simp [hend] at hcomputed
  · simp [hend, Except.isOk, Except.toBool] at hcomputed
  · rw [hend] at hcomputed
    obtain ⟨-, hlevels⟩ := hcomputed
    obtain ⟨-, ⟨depth, hpaths, -⟩, hdistance, -⟩ := resolve_breadth_first hend
    refine ⟨configs, s, rfl, hlevels, ⟨depth, hpaths⟩, hdistance 2 _ ?_⟩
    rw [hlevels.2]
    exact List.mem_cons_self

end LintRelay
