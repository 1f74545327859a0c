import LintRelay.Path
set_option autoImplicit false

/-!
# Components of paths in normal form

A path is a text, and two texts may have the same components.  On paths in normal
form this cannot happen: their text is written from their components, and reading it
gives the same components back.  The carrying fact is `componentsOf_joinChars`; it
holds of components that a text can have, which is what `Spelled` says.
-/

namespace LintRelay.Path

/-! ## Splitting at slashes -/

theorem segments_ne_nil (cs : List Char) : segments cs ≠ [] := by
  cases cs with
  | nil => simp [segments]
  | cons c rest =>
    by_cases hc : c = '/'
    · simp [segments, hc]
    · simp only [segments, hc, if_false]
      cases segments rest <;> simp

theorem segments_of_slash_notMem {s : List Char} (hs : '/' ∉ s) : segments s = [s] := by
  induction s with
  | nil => rfl
  | cons c rest ih =>
    have hc : c ≠ '/' := fun h => hs (h ▸ List.mem_cons_self)
    have hrest : segments rest = [rest] := ih fun h => hs (List.mem_cons_of_mem c h)
    simp [segments, hc, hrest]

theorem segments_append_slash {s : List Char} (hs : '/' ∉ s) (t : List Char) :
    segments (s ++ '/' :: t) = s :: segments t := by
  induction s with
  | nil => simp [segments]
  | cons c rest ih =>
    have hc : c ≠ '/' := fun h => hs (h ▸ List.mem_cons_self)
    have hrest : segments (rest ++ '/' :: t) = rest :: segments t :=
      ih fun h => hs (List.mem_cons_of_mem c h)
    simp [segments, hc, hrest]

theorem segments_append (s t : List Char) :
    segments (s ++ '/' :: t) = segments s ++ segments t := by
  induction s with
  | nil => simp [segments]
  | cons c rest ih =>
    by_cases hc : c = '/'
    · simp [segments, hc, ih]
    · simp only [List.cons_append, segments, hc, if_false, ih]
      cases hrest : segments rest with
      | nil => exact absurd hrest (segments_ne_nil rest)
      | cons first more => rfl

/-- A text that ends with another character than a slash has a segment that is not empty. -/
theorem exists_segment_of_getLast? {cs : List Char} (hcs : cs ≠ [])
    (hlast : cs.getLast? ≠ some '/') : ∃ s ∈ segments cs, s ≠ [] := by
  induction cs with
  | nil => exact absurd rfl hcs
  | cons c rest ih =>
    by_cases hc : c = '/'
    · -- The text does not end here.
      have hrest : rest ≠ [] := by
        rintro rfl
        exact hlast (by simp [hc])
      have hlast' : rest.getLast? ≠ some '/' := by
        intro h
        exact hlast (by simp [List.getLast?_cons, h])
      obtain ⟨s, hs, hne⟩ := ih hrest hlast'
      exact ⟨s, by simp [segments, hc, hs], hne⟩
    · simp only [segments, hc, if_false]
      cases segments rest with
      | nil => exact ⟨[c], by simp, by simp⟩
      | cons first more => exact ⟨c :: first, by simp, by simp⟩

theorem slash_notMem_of_mem_segments (cs : List Char) : ∀ s ∈ segments cs, '/' ∉ s := by
  induction cs with
  | nil => simp [segments]
  | cons c rest ih =>
    intro s hs
    by_cases hc : c = '/'
    · simp only [segments, hc, if_true, List.mem_cons] at hs
      rcases hs with rfl | hs
      · simp
      · exact ih s hs
    · simp only [segments, hc, if_false] at hs
      cases hrest : segments rest with
      | nil =>
        rw [hrest] at hs
        simp only [List.mem_singleton] at hs
        subst hs
        simpa using fun h => hc h.symm
      | cons first more =>
        rw [hrest] at hs ih
        rcases List.mem_cons.mp hs with rfl | hs
        · have hfirst : '/' ∉ first := ih first List.mem_cons_self
          simpa [hfirst] using fun h => hc h.symm
        · exact ih s (List.mem_cons_of_mem first hs)

/-! ## Components that a text can have -/

/-- A component as a segment of a text gives it. -/
def Component.Proper : Component → Prop
  | .root => False
  | .here => False
  | .up => True
  | .name s => s ≠ [] ∧ s ≠ ['.'] ∧ s ≠ ['.', '.'] ∧ '/' ∉ s

/-- Components as a text has them: the root, or the place where the path starts, can only come
first. -/
def Spelled : List Component → Prop
  | [] => True
  | c :: rest => (c = .root ∨ c = .here ∨ c.Proper) ∧ ∀ d ∈ rest, d.Proper

theorem Spelled.of_proper {cs : List Component} (h : ∀ c ∈ cs, c.Proper) : Spelled cs := by
  cases cs with
  | nil => trivial
  | cons c rest =>
    exact ⟨Or.inr (Or.inr (h c List.mem_cons_self)), fun d hd => h d (List.mem_cons_of_mem c hd)⟩

theorem spelled_concat_iff {cs : List Component} {c : Component} (hne : cs ≠ []) :
    Spelled (cs ++ [c]) ↔ Spelled cs ∧ c.Proper := by
  cases cs with
  | nil => exact absurd rfl hne
  | cons first rest =>
    simp only [List.cons_append, Spelled, List.mem_append, List.mem_singleton, and_assoc]
    constructor
    · rintro ⟨hfirst, hall⟩
      exact ⟨hfirst, fun d hd => hall d (Or.inl hd), hall c (Or.inr rfl)⟩
    · rintro ⟨hfirst, hrest, hc⟩
      refine ⟨hfirst, fun d hd => ?_⟩
      rcases hd with hd | rfl
      · exact hrest d hd
      · exact hc

theorem proper_of_ofSegment {s : List Char} {c : Component} (hs : '/' ∉ s)
    (h : ofSegment s = some c) : c.Proper := by
  unfold ofSegment at h
  split at h
  · simp at h
  · rename_i hnone
    split at h
    · cases h
      trivial
    · rename_i hup
      cases h
      exact ⟨fun h => hnone (Or.inl h), fun h => hnone (Or.inr h), hup, hs⟩

theorem proper_of_mem_steps (cs : List Char) : ∀ c ∈ steps cs, c.Proper := by
  intro c hc
  obtain ⟨s, hs, hof⟩ := List.mem_filterMap.mp hc
  exact proper_of_ofSegment (slash_notMem_of_mem_segments cs s hs) hof

theorem spelled_componentsOf (cs : List Char) : Spelled (componentsOf cs) := by
  have hsteps := proper_of_mem_steps cs
  unfold componentsOf front
  split
  · exact ⟨Or.inl rfl, hsteps⟩
  · split
    · exact ⟨Or.inr (Or.inl rfl), hsteps⟩
    · exact Spelled.of_proper hsteps

/-! ## Writing components and reading them back -/

theorem Component.Proper.slash_notMem {c : Component} (h : c.Proper) : '/' ∉ c.chars := by
  cases c with
  | root | here => exact False.elim h
  | up => simp [chars]
  | name s => exact h.2.2.2

theorem Component.Proper.chars_ne_dot {c : Component} (h : c.Proper) : c.chars ≠ ['.'] := by
  cases c with
  | root | here => exact False.elim h
  | up => simp [chars]
  | name s => exact h.2.1

theorem Component.Proper.ofSegment_chars {c : Component} (h : c.Proper) :
    ofSegment c.chars = some c := by
  cases c with
  | root | here => exact False.elim h
  | up => rfl
  | name s =>
    obtain ⟨hempty, hdot, hdots, -⟩ := h
    simp [ofSegment, chars, hempty, hdot, hdots]

theorem Component.Proper.joinChars_cons {c d : Component} (h : c.Proper)
    (rest : List Component) :
    joinChars (c :: d :: rest) = c.chars ++ '/' :: joinChars (d :: rest) := by
  cases c with
  | root | here => exact False.elim h
  | up => rfl
  | name s => rfl

theorem segments_joinChars {c : Component} {rest : List Component}
    (h : ∀ d ∈ c :: rest, d.Proper) :
    segments (joinChars (c :: rest)) = (c :: rest).map Component.chars := by
  induction rest generalizing c with
  | nil =>
    have hc : c.Proper := h c List.mem_cons_self
    simpa [joinChars] using segments_of_slash_notMem hc.slash_notMem
  | cons d rest ih =>
    have hc : c.Proper := h c List.mem_cons_self
    rw [hc.joinChars_cons, segments_append_slash hc.slash_notMem,
      ih fun x hx => h x (List.mem_cons_of_mem c hx)]
    rfl

theorem filterMap_ofSegment_chars {cs : List Component} (h : ∀ c ∈ cs, c.Proper) :
    (cs.map Component.chars).filterMap ofSegment = cs := by
  induction cs with
  | nil => rfl
  | cons c rest ih =>
    have hc : c.Proper := h c List.mem_cons_self
    simp [hc.ofSegment_chars, ih fun d hd => h d (List.mem_cons_of_mem c hd)]

theorem Component.Proper.startsAtRoot_chars_append {c : Component} (h : c.Proper)
    (t : List Char) : startsAtRoot (c.chars ++ t) = false := by
  have hslash := h.slash_notMem
  have hne : c.chars ≠ [] := by
    cases c with
    | root | here => exact False.elim h
    | up => simp [chars]
    | name s => exact h.1
  cases hchars : c.chars with
  | nil => exact absurd hchars hne
  | cons x xs =>
    rw [hchars] at hslash
    rw [List.cons_append]
    unfold startsAtRoot
    split
    · rename_i heq
      cases heq
      exact absurd List.mem_cons_self hslash
    · rfl

theorem startsAtRoot_joinChars {cs : List Component} (h : ∀ c ∈ cs, c.Proper) :
    startsAtRoot (joinChars cs) = false := by
  cases cs with
  | nil => rfl
  | cons c rest =>
    have hc : c.Proper := h c List.mem_cons_self
    cases rest with
    | nil => simpa [joinChars] using hc.startsAtRoot_chars_append []
    | cons d rest =>
      rw [hc.joinChars_cons]
      exact hc.startsAtRoot_chars_append _

theorem steps_joinChars {c : Component} {rest : List Component}
    (h : ∀ d ∈ c :: rest, d.Proper) : steps (joinChars (c :: rest)) = c :: rest := by
  rw [steps, segments_joinChars h, filterMap_ofSegment_chars h]

theorem front_joinChars {c : Component} {rest : List Component}
    (h : ∀ d ∈ c :: rest, d.Proper) : front (joinChars (c :: rest)) = [] := by
  have hdot : c.chars ≠ ['.'] := (h c List.mem_cons_self).chars_ne_dot
  simp [front, startsAtRoot_joinChars h, segments_joinChars h, hdot]

/-- Reading components back from the text that they are written as. -/
theorem componentsOf_joinChars {cs : List Component} (h : Spelled cs) :
    componentsOf (joinChars cs) = cs := by
  cases cs with
  | nil => rfl
  | cons c rest =>
    obtain ⟨hfirst, hrest⟩ := h
    rcases hfirst with rfl | rfl | hc
    · -- The root is written as the slash in front of the first segment.
      cases rest with
      | nil => rfl
      | cons d more =>
        have hread := steps_joinChars hrest
        simpa [joinChars, componentsOf, front, startsAtRoot, steps, segments, ofSegment] using hread
    · -- The place where the path starts is a segment of its own.
      cases rest with
      | nil => rfl
      | cons d more =>
        have hread := steps_joinChars hrest
        simpa [joinChars, Component.chars, componentsOf, front, startsAtRoot, steps, segments,
          ofSegment] using hread
    · have hall : ∀ d ∈ c :: rest, d.Proper := by
        intro d hd
        rcases List.mem_cons.mp hd with rfl | hd
        · exact hc
        · exact hrest d hd
      rw [componentsOf, front_joinChars hall, steps_joinChars hall, List.nil_append]

theorem components_ofComponents {cs : List Component} (h : Spelled cs) :
    (ofComponents cs).components = cs := by
  simp [components, ofComponents, componentsOf_joinChars h]

/-! ## Normal form -/

/-- One more component keeps the components read so far spelled; they are kept with
the last one first. -/
theorem spelled_advance {read : List Component} {c : Component} (hread : Spelled read.reverse)
    (hc : c.Proper) : Spelled (advance read c).reverse := by
  have hpush : Spelled (c :: read).reverse := by
    cases hempty : read with
    | nil => exact ⟨Or.inr (Or.inr hc), by simp⟩
    | cons x before =>
      rw [← hempty, List.reverse_cons, spelled_concat_iff (by simp [hempty])]
      exact ⟨hread, hc⟩
  cases c with
  | root | here => exact False.elim hc
  | name s => exact hpush
  | up =>
    cases read with
    | nil => exact ⟨Or.inr (Or.inr trivial), by simp⟩
    | cons x before =>
      cases before with
      | nil =>
        cases x with
        | root => exact ⟨Or.inl rfl, by simp [Component.Proper]⟩
        | here | up | name s => trivial
      | cons y more =>
        have hdropped : advance (x :: y :: more) .up = y :: more := by cases x <;> rfl
        rw [hdropped]
        rw [List.reverse_cons, spelled_concat_iff (by simp)] at hread
        exact hread.1

theorem spelled_foldl_advance {cs read : List Component} (hcs : ∀ c ∈ cs, c.Proper)
    (hread : Spelled read.reverse) : Spelled (cs.foldl advance read).reverse := by
  induction cs generalizing read with
  | nil => exact hread
  | cons c rest ih =>
    have hc : c.Proper := hcs c List.mem_cons_self
    exact ih (fun d hd => hcs d (List.mem_cons_of_mem c hd)) (spelled_advance hread hc)

theorem spelled_normalComponents {cs : List Component} (h : Spelled cs) :
    Spelled (normalComponents cs) := by
  unfold normalComponents
  cases cs with
  | nil => trivial
  | cons c rest =>
    obtain ⟨hfirst, hrest⟩ := h
    rw [List.foldl_cons]
    refine spelled_foldl_advance hrest ?_
    rcases hfirst with rfl | rfl | hc
    · exact ⟨Or.inl rfl, by simp⟩
    · trivial
    · exact spelled_advance trivial hc

/-- The components of the normal form are those that the components of the path
come down to. -/
theorem components_normalize (p : Path) :
    p.normalize.components = normalComponents p.components :=
  components_ofComponents (spelled_normalComponents (spelled_componentsOf p.text.toList))

/-- Paths in normal form are determined by their components. -/
theorem normalize_eq_of_components_eq {p q : Path}
    (h : p.normalize.components = q.normalize.components) : p.normalize = q.normalize := by
  rw [components_normalize, components_normalize] at h
  unfold normalize
  rw [h]

/-! ## Normal form is reached once -/

/-- Components in normal form, the last one first: names, behind them at most one step up, and
behind that at most the root. -/
inductive Settled : List Component → Prop
  | nothing : Settled []
  | root : Settled [.root]
  | up : Settled [.up]
  | upFromRoot : Settled [.up, .root]
  | name {read : List Component} (s : List Char) (h : Settled read) : Settled (.name s :: read)

theorem Settled.advance {read : List Component} {c : Component} (h : Settled read)
    (hc : c.Proper) : Settled (advance read c) := by
  cases c with
  | root | here => exact False.elim hc
  | name s => exact .name s h
  | up =>
    cases h with
    | nothing => exact .up
    | root => exact .upFromRoot
    | up => exact .nothing
    | upFromRoot => exact .root
    | name s h => exact h

theorem Settled.foldl_advance {cs read : List Component} (hcs : ∀ c ∈ cs, c.Proper)
    (h : Settled read) : Settled (cs.foldl Path.advance read) := by
  induction cs generalizing read with
  | nil => exact h
  | cons c rest ih =>
    exact ih (fun d hd => hcs d (List.mem_cons_of_mem c hd)) (h.advance (hcs c List.mem_cons_self))

theorem settled_of_spelled {cs : List Component} (h : Spelled cs) :
    Settled (cs.foldl advance []) := by
  cases cs with
  | nil => exact .nothing
  | cons c rest =>
    obtain ⟨hfirst, hrest⟩ := h
    rw [List.foldl_cons]
    rcases hfirst with rfl | rfl | hc
    · exact Settled.root.foldl_advance hrest
    · exact Settled.nothing.foldl_advance hrest
    · exact (Settled.nothing.advance hc).foldl_advance hrest

/-- Reading components in normal form changes nothing. -/
theorem Settled.foldl_reverse {read : List Component} (h : Settled read) :
    read.reverse.foldl Path.advance [] = read := by
  induction h with
  | name s h ih =>
    rw [List.reverse_cons, List.foldl_append, ih]
    rfl
  | _ => rfl

/-- A path in normal form is its own normal form. -/
theorem normalize_normalize (p : Path) : p.normalize.normalize = p.normalize := by
  have hsettled := settled_of_spelled (spelled_componentsOf p.text.toList)
  have hnormal : normalComponents (normalComponents p.components) = normalComponents p.components :=
    congrArg List.reverse hsettled.foldl_reverse
  rw [normalize, components_normalize, hnormal]
  rfl

end LintRelay.Path
