import LintRelay.Proofs.Path
import LintRelay.Proofs.Project.Resolution
set_option autoImplicit false

/-!
# Lexical locations

The location that an absolute path denotes is read off its components from left to right: a
name leads one directory down, and a step up leads back, or stays where it is at the root.

Normal form computes on a stack of components instead, and a step up at the root is not
dropped from it: it is pushed, and the next one that comes down to the root removes it
again.  So the normal form of an absolute path is its location and one bit, the parity of
the steps up that were made at the root (`normalComponents_rooted`).  Spellings of one
location have the same normal form when this bit agrees, and only then.  With a relative path
it is the same, but for the root: the place where it starts stands for it
(`components_normalize_eq`).
-/

namespace LintRelay.Path

/-! ## Locations -/

/-- The names on the way from the root, the last one first, after one more component. -/
def descend (names : List (List Char)) : Component → List (List Char)
  | .root => names
  | .here => names
  | .up => names.tail
  | .name s => s :: names

/-- The lexical location of an absolute path: the names on the way to it from the root.  A
relative path is read as if it started there. -/
def location (p : Path) : List (List Char) := (p.components.foldl descend []).reverse

/-- How many steps up components make at the root, when they start below the given names. -/
def overshootFrom : List (List Char) → List Component → Nat
  | _, [] => 0
  | [], .up :: rest => overshootFrom [] rest + 1
  | names, c :: rest => overshootFrom (descend names c) rest

/-- How many steps up a path makes at the root, or out of the place where it starts. -/
def overshoot (p : Path) : Nat := overshootFrom [] p.components

/-! ## Normal form of absolute paths -/

/-- Components that lead from the root to names, the last one first.  Of the steps up that
were made at the root, an odd one is still there. -/
def rooted (names : List (List Char)) (ups : Nat) : List Component :=
  names.map .name ++ if ups % 2 = 1 then [.up, .root] else [.root]

theorem advance_rooted_name (names : List (List Char)) (ups : Nat) (s : List Char) :
    advance (rooted names ups) (.name s) = rooted (s :: names) ups := rfl

theorem advance_rooted_up (name : List Char) (names : List (List Char)) (ups : Nat) :
    advance (rooted (name :: names) ups) .up = rooted names ups := by
  simp [rooted, advance]

/-- A step up at the root is kept, unless there is one to remove. -/
theorem advance_rooted_nil_up (ups : Nat) : advance (rooted [] ups) .up = rooted [] (ups + 1) := by
  rcases Nat.mod_two_eq_zero_or_one ups with heven | hodd
  · have hnext : (ups + 1) % 2 = 1 := by omega
    simp [rooted, advance, heven, hnext]
  · have hnext : (ups + 1) % 2 = 0 := by omega
    simp [rooted, advance, hodd, hnext]

theorem foldl_advance_rooted {cs : List Component} (hcs : ∀ c ∈ cs, c.Proper)
    (names : List (List Char)) (ups : Nat) :
    cs.foldl advance (rooted names ups) =
      rooted (cs.foldl descend names) (ups + overshootFrom names cs) := by
  induction cs generalizing names ups with
  | nil => rfl
  | cons c rest ih =>
    have hc : c.Proper := hcs c List.mem_cons_self
    have hrest : ∀ d ∈ rest, d.Proper := fun d hd => hcs d (List.mem_cons_of_mem c hd)
    rw [List.foldl_cons, List.foldl_cons]
    cases c with
    | root | here => exact False.elim hc
    | name s =>
      rw [advance_rooted_name, ih hrest]
      cases names <;> rfl
    | up =>
      cases names with
      | nil =>
        rw [advance_rooted_nil_up, ih hrest, overshootFrom]
        have hups : ups + 1 + overshootFrom [] rest = ups + (overshootFrom [] rest + 1) := by omega
        rw [hups]
        rfl
      | cons name names =>
        rw [advance_rooted_up, ih hrest]
        rfl

theorem components_of_isAbsolute {p : Path} (h : p.isAbsolute = true) :
    ∃ cs, p.components = .root :: cs ∧ ∀ c ∈ cs, c.Proper := by
  have hroot : startsAtRoot p.text.toList = true := h
  refine ⟨steps p.text.toList, ?_, proper_of_mem_steps _⟩
  simp [components, componentsOf, front, hroot]

theorem isAbsolute_iff_mem_components (p : Path) : p.isAbsolute = true ↔ .root ∈ p.components := by
  constructor
  · intro habsolute
    obtain ⟨cs, hcs, -⟩ := components_of_isAbsolute habsolute
    simp [hcs]
  · intro hmem
    have hproper : .root ∉ steps p.text.toList :=
      fun h => proper_of_mem_steps p.text.toList .root h
    have hstart : .root ∈ front p.text.toList := (List.mem_append.mp hmem).resolve_right hproper
    by_contra hrelative
    have hroot : startsAtRoot p.text.toList = false := by simpa [isAbsolute] using hrelative
    by_cases hdot : (segments p.text.toList).head? = some ['.'] <;>
      simp [front, hroot, hdot] at hstart

/-- The normal form of an absolute path is its location and the parity of its steps up at
the root. -/
theorem normalComponents_rooted {p : Path} (h : p.isAbsolute = true) :
    normalComponents p.components = (rooted p.location.reverse p.overshoot).reverse := by
  obtain ⟨cs, hcs, hproper⟩ := components_of_isAbsolute h
  have hfold := foldl_advance_rooted hproper [] 0
  rw [Nat.zero_add] at hfold
  unfold normalComponents location overshoot
  rw [hcs, List.reverse_reverse]
  exact congrArg List.reverse hfold

/-- The names among components. -/
def names (cs : List Component) : List (List Char) :=
  cs.filterMap fun c =>
    match c with
    | .name s => some s
    | _ => none

theorem names_rooted (ns : List (List Char)) (ups : Nat) : names (rooted ns ups) = ns := by
  have hnames : names (ns.map .name) = ns := by
    simp [names, List.filterMap_map]
  have hrest : names (if ups % 2 = 1 then [.up, .root] else [.root]) = [] := by
    split <;> rfl
  unfold rooted
  rw [names, List.filterMap_append]
  exact (congrArg₂ (· ++ ·) hnames hrest).trans (List.append_nil ns)

theorem up_mem_rooted_iff (ns : List (List Char)) (ups : Nat) :
    .up ∈ rooted ns ups ↔ ups % 2 = 1 := by
  unfold rooted
  split <;> simp_all

theorem rooted_inj {ns ms : List (List Char)} {j k : Nat} :
    rooted ns j = rooted ms k ↔ ns = ms ∧ j % 2 = k % 2 := by
  constructor
  · intro heq
    have hnames := congrArg names heq
    rw [names_rooted, names_rooted] at hnames
    have hups : j % 2 = 1 ↔ k % 2 = 1 := by rw [← up_mem_rooted_iff ns, heq, up_mem_rooted_iff]
    exact ⟨hnames, by omega⟩
  · rintro ⟨rfl, hparity⟩
    simp [rooted, hparity]

theorem normalize_eq_iff_components (p q : Path) :
    p.normalize = q.normalize ↔ normalComponents p.components = normalComponents q.components := by
  constructor
  · intro h
    rw [← components_normalize, ← components_normalize, h]
  · intro h
    unfold normalize
    rw [h]

/-- Spellings of one location have the same normal form when they make equally many steps up
at the root, up to an even number. -/
theorem normalize_eq_iff {p q : Path} (hp : p.isAbsolute = true) (hq : q.isAbsolute = true) :
    p.normalize = q.normalize ↔ p.location = q.location ∧ p.overshoot % 2 = q.overshoot % 2 := by
  rw [normalize_eq_iff_components, normalComponents_rooted hp, normalComponents_rooted hq,
    List.reverse_inj, rooted_inj, List.reverse_inj]

/-! ## Paths in normal form -/

theorem mem_advance {c d : Component} {read : List Component} (h : d ∈ advance read c) :
    d = c ∨ d ∈ read := by
  cases c with
  | root | name s => exact List.mem_cons.mp h
  | here => exact .inr h
  | up =>
    simp only [advance] at h
    split at h
    · exact .inl (List.mem_singleton.mp h)
    · exact List.mem_cons.mp h
    · exact .inr (List.mem_cons_of_mem _ h)

theorem reverse_rooted (ns : List (List Char)) (ups : Nat) :
    (rooted ns ups).reverse =
      .root :: ((if ups % 2 = 1 then [.up] else []) ++ ns.reverse.map .name) := by
  unfold rooted
  split <;> simp

theorem foldl_descend_names (ns start : List (List Char)) :
    (ns.map Component.name).foldl descend start = ns.reverse ++ start := by
  induction ns generalizing start with
  | nil => rfl
  | cons n ns ih => simp [descend, ih]

theorem overshootFrom_names (ns start : List (List Char)) :
    overshootFrom start (ns.map Component.name) = 0 := by
  induction ns generalizing start with
  | nil => cases start <;> rfl
  | cons n ns ih => cases start <;> exact ih _

/-- In front of the segments of a relative path at most the place where it starts is written. -/
theorem components_of_relative {p : Path} (h : p.isAbsolute = false) :
    p.components = steps p.text.toList ∨ p.components = .here :: steps p.text.toList := by
  have hroot : startsAtRoot p.text.toList = false := h
  unfold components componentsOf front
  by_cases hdot : (segments p.text.toList).head? = some ['.'] <;> simp [hroot, hdot]

theorem normalComponents_of_relative {p : Path} (h : p.isAbsolute = false) :
    normalComponents p.components = normalComponents (steps p.text.toList) := by
  rcases components_of_relative h with hcs | hcs <;> rw [hcs]
  rfl

theorem foldl_descend_of_relative {p : Path} (h : p.isAbsolute = false)
    (start : List (List Char)) :
    p.components.foldl descend start = (steps p.text.toList).foldl descend start := by
  rcases components_of_relative h with hcs | hcs <;> rw [hcs]
  rfl

theorem overshoot_of_relative {p : Path} (h : p.isAbsolute = false) :
    p.overshoot = overshootFrom [] (steps p.text.toList) := by
  rw [overshoot]
  rcases components_of_relative h with hcs | hcs <;> rw [hcs]
  rfl

/-- Reading on above the root is reading on above nothing. -/
theorem advance_append_root {read : List Component} {c : Component} (hread : .root ∉ read)
    (hc : c.Proper) : advance (read ++ [.root]) c = advance read c ++ [.root] := by
  cases c with
  | root | here => exact False.elim hc
  | name s => rfl
  | up =>
    cases read with
    | nil => rfl
    | cons x before =>
      cases x with
      | root => exact absurd List.mem_cons_self hread
      | here | up | name s => cases before <;> rfl

theorem foldl_advance_append_root {cs read : List Component} (hcs : ∀ c ∈ cs, c.Proper)
    (hread : .root ∉ read) :
    cs.foldl advance (read ++ [.root]) = cs.foldl advance read ++ [.root] := by
  induction cs generalizing read with
  | nil => rfl
  | cons c rest ih =>
    have hc : c.Proper := hcs c List.mem_cons_self
    have hnext : .root ∉ advance read c := by
      intro hmem
      rcases mem_advance hmem with rfl | hmem
      · exact hc
      · exact hread hmem
    rw [List.foldl_cons, List.foldl_cons, advance_append_root hread hc,
      ih (fun d hd => hcs d (List.mem_cons_of_mem c hd)) hnext]

/-- Written from the root, a relative path has the same normal form behind the root. -/
theorem normalComponents_root_cons {cs : List Component} (hcs : ∀ c ∈ cs, c.Proper) :
    normalComponents (.root :: cs) = .root :: normalComponents cs := by
  have hfold := foldl_advance_append_root hcs (List.not_mem_nil : Component.root ∉ [])
  unfold normalComponents
  rw [List.foldl_cons]
  exact (congrArg List.reverse hfold).trans (by simp)

/-- The root of a path, if it starts there, what is left of its steps out of the place where
it starts, and the names that it comes down to. -/
theorem components_normalize_eq (p : Path) :
    p.normalize.components =
      (if p.isAbsolute then [.root] else []) ++
        ((if p.overshoot % 2 = 1 then [.up] else []) ++ p.location.map .name) := by
  rw [components_normalize]
  cases habsolute : p.isAbsolute with
  | true =>
    rw [normalComponents_rooted habsolute, reverse_rooted, List.reverse_reverse]
    rfl
  | false =>
    have hproper := proper_of_mem_steps p.text.toList
    have hrooted : normalComponents (.root :: steps p.text.toList) =
        (rooted p.location.reverse p.overshoot).reverse := by
      rw [location, List.reverse_reverse, foldl_descend_of_relative habsolute,
        overshoot_of_relative habsolute, ← Nat.zero_add (overshootFrom _ _)]
      exact congrArg List.reverse (foldl_advance_rooted hproper [] 0)
    rw [normalComponents_root_cons hproper, reverse_rooted, List.reverse_reverse] at hrooted
    rw [normalComponents_of_relative habsolute]
    exact (List.cons.inj hrooted).2

theorem isAbsolute_normalize (p : Path) : p.normalize.isAbsolute = p.isAbsolute := by
  rw [Bool.eq_iff_iff, isAbsolute_iff_mem_components, components_normalize_eq]
  rcases Nat.mod_two_eq_zero_or_one p.overshoot with heven | hodd
  · cases p.isAbsolute <;> simp [heven]
  · cases p.isAbsolute <;> simp [hodd]

/-- Normal form keeps the location. -/
theorem location_normalize (p : Path) : p.normalize.location = p.location := by
  have hnames := foldl_descend_names p.location []
  rw [location, components_normalize_eq]
  rcases Nat.mod_two_eq_zero_or_one p.overshoot with heven | hodd
  · cases p.isAbsolute <;> simp [heven, descend, hnames]
  · cases p.isAbsolute <;> simp [hodd, descend, hnames]

/-- Of the steps up at the root, normal form keeps the parity. -/
theorem overshoot_normalize (p : Path) : p.normalize.overshoot = p.overshoot % 2 := by
  have hnames := overshootFrom_names p.location []
  rw [overshoot, components_normalize_eq]
  rcases Nat.mod_two_eq_zero_or_one p.overshoot with heven | hodd
  · cases p.isAbsolute <;> simp [heven, overshootFrom, descend, hnames]
  · cases p.isAbsolute <;> simp [hodd, overshootFrom, descend, hnames]

end LintRelay.Path

namespace LintRelay

/-! ## Resolutions -/

namespace Search

/-- However far a resolution gets, it loads paths in normal form, and none of them twice. -/
theorem Ended.loads_once {σ : Type} {e : Engine σ} {start : σ} {seeds : List Path}
    {result : Option (Except EngineError (List ConfigFile))} {s : Search σ}
    (h : Ended e start seeds result s) :
    (s.calls.filterMap Call.path?).Nodup ∧
      ∀ p ∈ s.calls.filterMap Call.path?, ∃ q : Path, p = q.normalize := by
  have hvisited : s.calls.filterMap Call.path? = s.visited.reverse ∧ s.visited.Nodup ∧
      ∀ p ∈ s.visited, Reached seeds s.calls p := by
    rcases result with _ | err | configs
    · obtain ⟨queue, hpending⟩ := h
      exact ⟨hpending.paths, hpending.nodup, hpending.visited_reached⟩
    · have hbroken : Broken e start seeds err s := h
      exact ⟨hbroken.paths, hbroken.nodup, hbroken.visited_reached⟩
    · exact ⟨h.1.paths, h.1.nodup, h.1.visited_reached⟩
  obtain ⟨hpaths, hnodup, hreached⟩ := hvisited
  rw [hpaths]
  exact ⟨List.nodup_reverse.mpr hnodup,
    fun p hp => (hreached p (List.mem_reverse.mp hp)).exists_normalize⟩

end Search

/-- What tells absolute paths in normal form apart. -/
theorem Path.eq_of_location {p q : Path} (hp : p.normalize.isAbsolute = true)
    (hq : q.normalize.isAbsolute = true) (hlocation : p.normalize.location = q.normalize.location)
    (hparity : p.normalize.overshoot % 2 = q.normalize.overshoot % 2) :
    p.normalize = q.normalize := by
  rw [isAbsolute_normalize] at hp hq
  rw [location_normalize, location_normalize] at hlocation
  rw [overshoot_normalize, overshoot_normalize, Nat.mod_mod, Nat.mod_mod] at hparity
  exact (normalize_eq_iff hp hq).mpr ⟨hlocation, hparity⟩

/-- Absolute paths have the same normal form if and only if they denote the same location and
the numbers of steps up that they make at the root are both even or both odd.  So whatever
engine and seeds a resolution has, and however far it gets, it loads no location twice with
the same parity: a location is loaded once, or twice when it is reached in both ways. -/
theorem normal_form_is_location_and_parity {σ : Type} (e : Engine σ) (d : Disk) (loads : Nat)
    (seeds : List Path) (start : σ) {p q : Path} (hp : p.isAbsolute = true)
    (hq : q.isAbsolute = true) :
    (p.normalize = q.normalize ↔
      p.location = q.location ∧ p.overshoot % 2 = q.overshoot % 2) ∧
    ((((resolve e d loads seeds start).2.calls.filterMap Call.path?).filter
      Path.isAbsolute).map fun p => (p.location, p.overshoot % 2)).Nodup := by
  refine ⟨Path.normalize_eq_iff hp hq, ?_⟩
  obtain ⟨hnodup, hnormal⟩ := (resolve_ended e d loads seeds start).loads_once
  refine (hnodup.filter _).map_on ?_
  intro p hp q hq heq
  obtain ⟨hp, habsolute⟩ := List.mem_filter.mp hp
  obtain ⟨hq, habsolute'⟩ := List.mem_filter.mp hq
  obtain ⟨p, rfl⟩ := hnormal p hp
  obtain ⟨q, rfl⟩ := hnormal q hq
  obtain ⟨hlocation, hparity⟩ := Prod.mk.inj heq
  exact Path.eq_of_location habsolute habsolute' hlocation hparity

/-- A configuration that refers to another one twice, the second time by way of the directory
above the root. -/
def climbingConfigs (p : Path) : Except EngineError ConfigFile :=
  if p = ⟨"/p/t.json"⟩ then .ok ⟨p, [], ["/a.json", "../../a.json"], [], none, []⟩
  else .ok ⟨p, [], [], [], none, []⟩

/-- Two steps up at the root are as good as none. -/
theorem normalize_of_two_overshoots :
    Path.isAbsolute ⟨"/b/../../../a"⟩ = true ∧ Path.isAbsolute ⟨"/./a"⟩ = true ∧
    Path.normalize ⟨"/b/../../../a"⟩ = Path.normalize ⟨"/./a"⟩ ∧
    ((((resolve (Engine.ofTables climbingConfigs fun _ => .ok .empty) default 3
        [⟨"/p/t.json"⟩] ()).2.calls.filterMap Call.path?).filter
      Path.isAbsolute).map fun p => (p.location, p.overshoot % 2)).Nodup := by
  have habsolute : Path.isAbsolute ⟨"/b/../../../a"⟩ = true := by decide
  have habsolute' : Path.isAbsolute ⟨"/./a"⟩ = true := by decide
  obtain ⟨hnormal, honce⟩ := normal_form_is_location_and_parity
    (Engine.ofTables climbingConfigs fun _ => .ok .empty) default 3 [⟨"/p/t.json"⟩] ()
    habsolute habsolute'
  exact ⟨habsolute, habsolute', hnormal.mpr ⟨by decide +kernel, by decide +kernel⟩, honce⟩

/-- A step up at the root leads nowhere, but it shows in the normal form: one location is
loaded under two spellings. -/
theorem resolve_climbingConfigs_loads_twice :
    (Path.location ⟨"/p/../../a.json"⟩ = Path.location ⟨"/a.json"⟩ ∧
      Path.normalize ⟨"/p/../../a.json"⟩ ≠ Path.normalize ⟨"/a.json"⟩) ∧
    (resolve (Engine.ofTables climbingConfigs fun _ => .ok .empty) default 3
        [⟨"/p/t.json"⟩] ()).2.calls.filterMap Call.path? =
      [⟨"/p/t.json"⟩, ⟨"/a.json"⟩, ⟨"/../a.json"⟩] := by
  refine ⟨⟨?_, ?_⟩, ?_⟩ <;> decide +kernel

end LintRelay
