import LintRelay.Proofs.Path.Location
set_option autoImplicit false

/-!
# What a normal form looks like and what it denotes

A normal form is the root if the path starts there, one step up or none, and names.  The names
are those of the lexical location; the step up is what is left of the steps that climbed out
of the place where the path starts, of which every second one removes the one before it.  At
the root this changes nothing, since a step up stays there: the location of an absolute path
is kept.  A relative path loses the steps that cancel: read from some directory, its normal
form leads elsewhere as soon as two steps climb out and there are two directories to leave
(`location_join`, `location_join_normalize`).

Reading a relative path from a directory is joining the two, and the components of the joined
path are those of the directory and those of the segments of the path (`components_join`).
-/

namespace LintRelay.Path

/-! ## Components of joined paths -/

theorem startsAtRoot_append {s : List Char} (hs : s ≠ []) (t : List Char) :
    startsAtRoot (s ++ t) = startsAtRoot s := by
  cases s with
  | nil => exact absurd rfl hs
  | cons c rest => by_cases hc : c = '/' <;> simp [startsAtRoot, hc]

theorem steps_append_slash (s t : List Char) : steps (s ++ '/' :: t) = steps s ++ steps t := by
  rw [steps, segments_append, List.filterMap_append]
  rfl

/-- What follows a slash does not stand in front. -/
theorem front_append_slash {s : List Char} (hs : s ≠ []) (t : List Char) :
    front (s ++ '/' :: t) = front s := by
  have hhead : (segments s ++ segments t).head? = (segments s).head? := by
    cases hsegments : segments s with
    | nil => exact absurd hsegments (segments_ne_nil s)
    | cons first more => rfl
  rw [front, startsAtRoot_append hs, segments_append, hhead]
  rfl

/-- A slash between two texts ends the segments of the first one. -/
theorem componentsOf_append_slash {s : List Char} (hs : s ≠ []) (t : List Char) :
    componentsOf (s ++ '/' :: t) = componentsOf s ++ steps t := by
  rw [componentsOf, front_append_slash hs, steps_append_slash, ← List.append_assoc]
  rfl

/-- A slash at the end of a text says nothing. -/
theorem componentsOf_concat_slash {s : List Char} (hs : s ≠ []) :
    componentsOf (s ++ ['/']) = componentsOf s := by
  rw [componentsOf_append_slash hs]
  exact List.append_nil _

theorem join_of_isAbsolute (b : Path) {p : Path} (h : p.isAbsolute = true) : b.join p = p := by
  simp [join, h]

theorem text_ne_empty_of_isAbsolute {b : Path} (h : b.isAbsolute = true) : b.text ≠ "" := by
  intro hempty
  simp [isAbsolute, hempty, startsAtRoot] at h

/-- A relative path adds the components of its segments to those of the directory that it is read
from. -/
theorem components_join {b : Path} (hb : b.text ≠ "") {p : Path} (h : p.isAbsolute = false) :
    (b.join p).components = b.components ++ steps p.text.toList := by
  have hne : b.text.toList ≠ [] := by simpa using hb
  by_cases hslash : b.text.toList.getLast? = some '/'
  · -- The slash at the end of the directory is the one between the two.
    obtain ⟨before, hbefore⟩ := List.getLast?_eq_some_iff.mp hslash
    have hjoin : (b.join p).text.toList = before ++ '/' :: p.text.toList := by
      simp [join, h, hb, hbefore]
    rw [components, hjoin, components, hbefore]
    cases before with
    | nil => rfl
    | cons c cs =>
      have hne' : c :: cs ≠ [] := by simp
      rw [componentsOf_append_slash hne', componentsOf_concat_slash hne']
  · have hjoin : (b.join p).text.toList = b.text.toList ++ '/' :: p.text.toList := by
      simp [join, h, hb, hslash]
    rw [components, hjoin, componentsOf_append_slash hne]
    rfl

theorem join_of_text_eq_empty {b : Path} (hb : b.text = "") (p : Path) : b.join p = p := by
  simp [join, hb]

theorem components_of_text_eq_empty {b : Path} (hb : b.text = "") : b.components = [] := by
  rw [components, hb]
  rfl

/-- A relative path that does not start with a dot adds its components. -/
theorem components_join_of_here_notMem (b : Path) {p : Path} (h : p.isAbsolute = false)
    (hhere : .here ∉ p.components) : (b.join p).components = b.components ++ p.components := by
  by_cases hb : b.text = ""
  · rw [join_of_text_eq_empty hb, components_of_text_eq_empty hb, List.nil_append]
  · rw [components_join hb h]
    rcases components_of_relative h with hcs | hcs
    · rw [hcs]
    · exact absurd (hcs ▸ List.mem_cons_self) hhere

theorem isAbsolute_join {b : Path} (hb : b.isAbsolute = true) (p : Path) :
    (b.join p).isAbsolute = true := by
  by_cases hp : p.isAbsolute = true
  · rwa [join_of_isAbsolute b hp]
  · rw [Bool.not_eq_true] at hp
    have hroot := (isAbsolute_iff_mem_components b).mp hb
    rw [isAbsolute_iff_mem_components, components_join (text_ne_empty_of_isAbsolute hb) hp]
    exact List.mem_append_left _ hroot

/-! ## No segment of a normal form is a dot -/

theorem dot_notMem_segments_joinChars {cs : List Component} (h : ∀ c ∈ cs, c.Proper) :
    ['.'] ∉ segments (joinChars cs) := by
  cases cs with
  | nil => simp [joinChars, segments]
  | cons c rest =>
    rw [segments_joinChars h]
    intro hmem
    obtain ⟨d, hd, hdot⟩ := List.mem_map.mp hmem
    exact (h d hd).chars_ne_dot hdot

theorem dot_notMem_segments_of_spelled {cs : List Component} (h : Spelled cs)
    (hhere : .here ∉ cs) : ['.'] ∉ segments (joinChars cs) := by
  cases cs with
  | nil => simp [joinChars, segments]
  | cons c rest =>
    obtain ⟨rfl | rfl | hc, hrest⟩ := h
    · -- In front of the slash that stands for the root there is an empty segment.
      cases rest with
      | nil => simp [joinChars, Component.chars, segments]
      | cons d more =>
        have hmore := dot_notMem_segments_joinChars hrest
        simpa [joinChars, segments] using hmore
    · exact absurd List.mem_cons_self hhere
    · refine dot_notMem_segments_joinChars fun d hd => ?_
      rcases List.mem_cons.mp hd with rfl | hd
      · exact hc
      · exact hrest d hd

theorem here_notMem_normalize (p : Path) : .here ∉ p.normalize.components := by
  rw [components_normalize_eq]
  cases p.isAbsolute <;> split <;> simp

theorem dot_notMem_segments_normalize (p : Path) :
    ['.'] ∉ segments p.normalize.text.toList := by
  have hspelled : Spelled (normalComponents p.components) :=
    spelled_normalComponents (spelled_componentsOf p.text.toList)
  have hhere : .here ∉ normalComponents p.components := by
    rw [← components_normalize]
    exact here_notMem_normalize p
  simpa [normalize, ofComponents] using dot_notMem_segments_of_spelled hspelled hhere

/-! ## Steps up in a normal form -/

theorem count_up_normalize (p : Path) :
    p.normalize.components.count .up = p.overshoot % 2 := by
  have hnames : (p.location.map Component.name).count .up = 0 :=
    List.count_eq_zero.mpr (by simp)
  rw [components_normalize_eq, List.count_append, List.count_append, hnames]
  rcases Nat.mod_two_eq_zero_or_one p.overshoot with heven | hodd
  · cases p.isAbsolute <;> simp [heven]
  · cases p.isAbsolute <;> simp [hodd]

/-- A step up can only be the first component behind the root. -/
theorem up_notMem_drop_normalize (p : Path) :
    .up ∉ p.normalize.components.drop (if p.isAbsolute then 2 else 1) := by
  have hnames : ∀ n, .up ∉ (p.location.map Component.name).drop n :=
    fun n hmem => by simpa using List.mem_of_mem_drop hmem
  rw [components_normalize_eq]
  rcases Nat.mod_two_eq_zero_or_one p.overshoot with heven | hodd
  · cases p.isAbsolute <;> simpa [heven] using hnames 1
  · cases p.isAbsolute <;> simp [hodd]

/-! ## Locations of joined paths -/

/-- What components lead to from names is what they lead to from nothing, below the names that
they do not climb out of. -/
theorem foldl_descend_append (cs : List Component) (ns start : List (List Char)) :
    cs.foldl descend (ns ++ start) = cs.foldl descend ns ++ start.drop (overshootFrom ns cs) := by
  induction cs generalizing ns start with
  | nil => cases ns <;> rfl
  | cons c rest ih =>
    rw [List.foldl_cons, List.foldl_cons]
    cases c with
    | root =>
      have hsame : overshootFrom ns (.root :: rest) = overshootFrom ns rest := by cases ns <;> rfl
      rw [hsame]
      exact ih ns start
    | here =>
      have hsame : overshootFrom ns (.here :: rest) = overshootFrom ns rest := by cases ns <;> rfl
      rw [hsame]
      exact ih ns start
    | name s =>
      have hsame : overshootFrom ns (.name s :: rest) = overshootFrom (s :: ns) rest := by
        cases ns <;> rfl
      rw [hsame]
      exact ih (s :: ns) start
    | up =>
      cases ns with
      | nil =>
        have hrest := ih [] start.tail
        rw [List.drop_tail] at hrest
        exact hrest
      | cons n more => exact ih more start

/-- A relative path leads out of as many directories as it makes steps out of the place where
it starts, and then down its names. -/
theorem location_join (b : Path) {p : Path} (h : p.isAbsolute = false) :
    (b.join p).location = b.location.take (b.location.length - p.overshoot) ++ p.location := by
  by_cases hb : b.text = ""
  · have hlocation : b.location = [] := by
      rw [location, components_of_text_eq_empty hb]
      rfl
    rw [join_of_text_eq_empty hb, hlocation, List.take_nil, List.nil_append]
  · have hfold := foldl_descend_append (steps p.text.toList) [] (b.components.foldl descend [])
    rw [List.nil_append, ← overshoot_of_relative h] at hfold
    unfold location
    rw [components_join hb h, List.foldl_append, hfold, ← foldl_descend_of_relative h,
      List.reverse_append, ← List.reverse_reverse (b.components.foldl descend []),
      List.drop_reverse]
    simp

/-- The normal form of a relative path leads out of one directory at most. -/
theorem location_join_normalize (b : Path) {p : Path} (h : p.isAbsolute = false) :
    (b.join p.normalize).location =
      b.location.take (b.location.length - p.overshoot % 2) ++ p.location := by
  have hrelative : p.normalize.isAbsolute = false := (isAbsolute_normalize p).trans h
  rw [location_join b hrelative, location_normalize, overshoot_normalize]

theorem take_sub_inj {α : Type} {l : List α} {j k : Nat} :
    l.take (l.length - j) = l.take (l.length - k) ↔ l.length - j = l.length - k := by
  constructor
  · intro heq
    have hlength := congrArg List.length heq
    simpa using hlength
  · intro heq
    rw [heq]

end LintRelay.Path

namespace LintRelay

/-! ## What normal forms denote -/

/-- A normal form is its own normal form.  None of its segments is a dot, it has one step up at
most, and that is its first component but for the root.  It starts at the root if and only if
the path does, and it denotes the same location. -/
theorem normal_form_denotes_location (p : Path) :
    p.normalize.normalize = p.normalize ∧
    ['.'] ∉ Path.segments p.normalize.text.toList ∧
    p.normalize.components.count .up ≤ 1 ∧
    .up ∉ p.normalize.components.drop (if p.isAbsolute then 2 else 1) ∧
    p.normalize.isAbsolute = p.isAbsolute ∧
    p.normalize.location = p.location := by
  refine ⟨p.normalize_normalize, p.dot_notMem_segments_normalize, ?_,
    p.up_notMem_drop_normalize, p.isAbsolute_normalize, p.location_normalize⟩
  rw [Path.count_up_normalize]
  omega

/-- Read from a directory, a relative path leaves as many directories as it makes steps out of
the place where it starts, and its normal form leaves one of them or none, by their parity.
So both lead to the same location if and only if the path makes one such step at most, or
there are not more directories to leave than the normal form leaves. -/
theorem relative_normal_form_climbs_by_parity (b : Path) {p : Path} (hp : p.isAbsolute = false) :
    (b.join p).location = b.location.take (b.location.length - p.overshoot) ++ p.location ∧
    (b.join p.normalize).location =
      b.location.take (b.location.length - p.overshoot % 2) ++ p.location ∧
    p.normalize.components.count .up = p.overshoot % 2 ∧
    ((b.join p.normalize).location = (b.join p).location ↔
      p.overshoot ≤ 1 ∨ b.location.length ≤ p.overshoot % 2) := by
  refine ⟨Path.location_join b hp, Path.location_join_normalize b hp, p.count_up_normalize, ?_⟩
  rw [Path.location_join b hp, Path.location_join_normalize b hp, List.append_left_inj,
    Path.take_sub_inj]
  omega

/-- Three steps out of a directory are one in normal form, which is as good in a directory of
the root. -/
theorem relative_normal_form_of_three_climbs :
    Path.isAbsolute ⟨"x/../../../../a"⟩ = false ∧
    Path.normalize ⟨"x/../../../../a"⟩ = ⟨"../a"⟩ ∧
    (Path.join ⟨"/b"⟩ ⟨"../a"⟩).location = (Path.join ⟨"/b"⟩ ⟨"x/../../../../a"⟩).location := by
  have hrelative : Path.isAbsolute ⟨"x/../../../../a"⟩ = false := by decide
  have hnormal : Path.normalize ⟨"x/../../../../a"⟩ = ⟨"../a"⟩ := by decide +kernel
  obtain ⟨-, -, -, hsame⟩ := relative_normal_form_climbs_by_parity ⟨"/b"⟩ hrelative
  refine ⟨hrelative, hnormal, ?_⟩
  rw [← hnormal]
  exact hsame.mpr (Or.inr (by decide +kernel))

/-- The second step out of a directory removes the first one: the normal form of a path that
leaves two directories leaves none. -/
theorem normalize_forgets_two_climbs :
    Path.isAbsolute ⟨"../../a"⟩ = false ∧ Path.isAbsolute ⟨"/b/c"⟩ = true ∧
    Path.normalize ⟨"../../a"⟩ = ⟨"a"⟩ ∧
    (Path.join ⟨"/b/c"⟩ ⟨"../../a"⟩).location = ["a".toList] ∧
    (Path.join ⟨"/b/c"⟩ (Path.normalize ⟨"../../a"⟩)).location =
      ["b".toList, "c".toList, "a".toList] := by
  refine ⟨?_, ?_, ?_, ?_, ?_⟩ <;> decide +kernel

end LintRelay
