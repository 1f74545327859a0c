import LintRelay.Disk.Node
set_option autoImplicit false

/-!
# Disk: what a change of the tree leaves as it was

A node is put at a location whose directory exists.  Below the location the new node is
found, and everywhere else the tree looks as before: only the directories on the way down
have other entries (`find?_put_other`).  A node that is put where there was none and taken
away again leaves no trace (`remove_put`).
-/

namespace LintRelay.Disk.Node

open LintRelay.Text (Bytes)

/-! ## Entries -/

theorem lookup_assign_self (name : String) (node : Node) (es : List (String × Node)) :
    lookup name (assign name node es) = some node := by
  induction es with
  | nil => simp [assign, lookup]
  | cons e es ih =>
    by_cases h : e.1 = name
    · simp [assign, lookup, h]
    · simp [assign, lookup, h, ih]

theorem lookup_assign_of_ne {name other : String} (h : name ≠ other) (node : Node)
    (es : List (String × Node)) : lookup other (assign name node es) = lookup other es := by
  induction es with
  | nil => simp [assign, lookup, h]
  | cons e es ih =>
    by_cases hname : e.1 = name
    · have hother : e.1 ≠ other := hname ▸ h
      simp [assign, lookup, hname, h]
    · simp [assign, lookup, hname, ih]

theorem assign_assign (name : String) (first second : Node) (es : List (String × Node)) :
    assign name second (assign name first es) = assign name second es := by
  induction es with
  | nil => simp [assign]
  | cons e es ih =>
    by_cases h : e.1 = name
    · simp [assign, h]
    · simp [assign, h, ih]

theorem assign_of_lookup {name : String} {node : Node} {es : List (String × Node)}
    (h : lookup name es = some node) : assign name node es = es := by
  induction es with
  | nil => cases h
  | cons e es ih =>
    by_cases hname : e.1 = name
    · simp only [lookup, hname, if_true, Option.some.injEq] at h
      simp [assign, hname, ← h, Prod.ext_iff]
    · simp only [lookup, hname, if_false] at h
      simp [assign, hname, ih h]

theorem unassign_assign {name : String} {es : List (String × Node)}
    (h : lookup name es = none) (node : Node) : unassign name (assign name node es) = es := by
  induction es with
  | nil => simp [assign, unassign]
  | cons e es ih =>
    by_cases hname : e.1 = name
    · simp [lookup, hname] at h
    · simp only [lookup, hname, if_false] at h
      simpa [assign, unassign, hname] using ih h

/-! ## Finding -/

theorem find?_cons (n : Node) (name : String) (rest : Location) :
    n.find? (name :: rest) = (n.child? name).bind (·.find? rest) := by
  rw [find?]
  cases n.child? name <;> rfl

theorem find?_append (n : Node) (l m : Location) :
    n.find? (l ++ m) = (n.find? l).bind (·.find? m) := by
  induction l generalizing n with
  | nil => rfl
  | cons name l ih =>
    rw [List.cons_append, find?_cons, find?_cons]
    cases n.child? name with
    | none => rfl
    | some c => exact ih c

theorem find?_concat (n : Node) (l : Location) (name : String) :
    n.find? (l ++ [name]) = (n.find? l).bind (·.child? name) := by
  rw [find?_append]
  congr 1
  funext c
  rw [find?_cons]
  cases c.child? name <;> rfl

/-- The bytes of the file at a location, if there is one. -/
def bytesAt (n : Node) (l : Location) : Bytes :=
  match n.find? l with
  | some (.file bytes) => bytes
  | _ => []

/-- The nodes are of one kind, and links lead to the same place. -/
inductive Alike : Node → Node → Prop
  | file (bytes bytes' : Bytes) : Alike (.file bytes) (.file bytes')
  | dir (es es' : List (String × Node)) : Alike (.dir es) (.dir es')
  | link (target : String) : Alike (.link target) (.link target)

theorem Alike.refl (n : Node) : Alike n n := by
  cases n with
  | file bytes => exact .file bytes bytes
  | dir es => exact .dir es es
  | link target => exact .link target

/-- Whatever a tree has, another one has, too, in its place. -/
def Grows (n n' : Node) : Prop :=
  ∀ l c, n.find? l = some c → ∃ c', n'.find? l = some c' ∧ Alike c c'

/-! ## Putting and removing -/

/-- There is a directory at a location. -/
def DirAt (n : Node) (l : Location) : Prop := ∃ es, n.find? l = some (.dir es)

/-- The directory at the end of a way down is reached through its first step. -/
theorem DirAt.cons {n : Node} {name : String} {rest : Location} (h : n.DirAt (name :: rest)) :
    ∃ es c, n = .dir es ∧ lookup name es = some c ∧ c.DirAt rest := by
  obtain ⟨entries, hfind⟩ := h
  rw [find?_cons] at hfind
  obtain ⟨c, hchild, hrest⟩ := Option.bind_eq_some_iff.mp hfind
  cases n with
  | file bytes => cases hchild
  | link target => cases hchild
  | dir es => exact ⟨es, c, rfl, hchild, entries, hrest⟩

theorem DirAt.nil {n : Node} (h : n.DirAt []) : ∃ es, n = .dir es := by
  obtain ⟨es, hfind⟩ := h
  exact ⟨es, Option.some.inj hfind⟩

theorem DirAt.root {n : Node} {l : Location} (h : n.DirAt l) : n.DirAt [] := by
  cases l with
  | nil => exact h
  | cons name rest =>
    obtain ⟨es, c, rfl, -, -⟩ := h.cons
    exact ⟨es, rfl⟩

/-- Only a directory has something below it. -/
theorem dirAt_of_find?_concat {n c : Node} {parent : Location} {last : String}
    (h : n.find? (parent ++ [last]) = some c) : n.DirAt parent := by
  rw [find?_concat] at h
  obtain ⟨node, hfind, hchild⟩ := Option.bind_eq_some_iff.mp h
  cases node with
  | dir es => exact ⟨es, hfind⟩
  | file bytes => cases hchild
  | link target => cases hchild

theorem put_below {name : String} {es : List (String × Node)} {c : Node}
    (hc : lookup name es = some c) (new : Node) (rest : Location) (last : String) :
    (Node.dir es).put new (name :: (rest ++ [last])) =
      .dir (assign name (c.put new (rest ++ [last])) es) := by
  cases rest <;> simp [put, hc]

theorem remove_below {name : String} {es : List (String × Node)} {c : Node}
    (hc : lookup name es = some c) (rest : Location) (last : String) :
    (Node.dir es).remove (name :: (rest ++ [last])) =
      .dir (assign name (c.remove (rest ++ [last])) es) := by
  cases rest <;> simp [remove, hc]

/-- A node that was put at a location is found there, with all that is below it. -/
theorem find?_put_below {n : Node} {parent : Location} (h : n.DirAt parent) (new : Node)
    (last : String) (m : Location) :
    (n.put new (parent ++ [last])).find? (parent ++ [last] ++ m) = new.find? m := by
  induction parent generalizing n with
  | nil =>
    obtain ⟨es, rfl⟩ := h.nil
    simp [put, find?_cons, child?, entries, lookup_assign_self]
  | cons name rest ih =>
    obtain ⟨es, c, rfl, hc, hrest⟩ := h.cons
    rw [List.cons_append, put_below hc, List.cons_append, find?_cons]
    simpa [child?, entries, lookup_assign_self] using ih hrest

theorem find?_put_self {n : Node} {parent : Location} (h : n.DirAt parent) (new : Node)
    (last : String) : (n.put new (parent ++ [last])).find? (parent ++ [last]) = some new := by
  have hbelow := find?_put_below h new last []
  rwa [List.append_nil] at hbelow

/-- Away from the location where a node is put the tree is the same, or there is a
directory as before. -/
theorem find?_put_other {n : Node} {parent : Location} (h : n.DirAt parent) (new : Node)
    (last : String) {m : Location} (hm : ¬ parent ++ [last] <+: m) :
    (n.put new (parent ++ [last])).find? m = n.find? m ∨
      n.DirAt m ∧ (n.put new (parent ++ [last])).DirAt m := by
  induction parent generalizing n m with
  | nil =>
    obtain ⟨es, rfl⟩ := h.nil
    cases m with
    | nil => exact .inr ⟨⟨es, rfl⟩, ⟨assign last new es, rfl⟩⟩
    | cons other m =>
      have hne : last ≠ other := by
        rintro rfl
        exact hm ⟨m, rfl⟩
      left
      simp [put, find?_cons, child?, entries, lookup_assign_of_ne hne]
  | cons name rest ih =>
    obtain ⟨es, c, rfl, hc, hrest⟩ := h.cons
    rw [List.cons_append, put_below hc]
    cases m with
    | nil => exact .inr ⟨⟨es, rfl⟩, ⟨_, rfl⟩⟩
    | cons other m =>
      by_cases hname : name = other
      · subst hname
        have hm' : ¬ rest ++ [last] <+: m := fun hprefix =>
          hm (List.cons_prefix_cons.mpr ⟨rfl, hprefix⟩)
        simpa [DirAt, find?_cons, child?, entries, lookup_assign_self, hc] using ih hrest hm'
      · left
        simp [find?_cons, child?, entries, lookup_assign_of_ne hname]

/-- A tree grows when a node is put in a place that was free, or replaces one that it
outgrows. -/
theorem grows_put {n : Node} {parent : Location} {last : String} (h : n.DirAt parent)
    {new : Node} (hnew : ∀ c, n.find? (parent ++ [last]) = some c → Grows c new) :
    Grows n (n.put new (parent ++ [last])) := by
  intro m c hc
  by_cases hprefix : parent ++ [last] <+: m
  · obtain ⟨rest, rfl⟩ := hprefix
    rw [find?_append] at hc
    obtain ⟨old, hold, hrest⟩ := Option.bind_eq_some_iff.mp hc
    rw [find?_put_below h]
    exact hnew old hold rest c hrest
  · rcases find?_put_other h new last hprefix with hsame | ⟨⟨es, hdir⟩, ⟨es', hdir'⟩⟩
    · exact ⟨c, hsame.trans hc, .refl c⟩
    · obtain rfl := Option.some.inj (hc.symm.trans hdir)
      exact ⟨_, hdir', .dir es es'⟩

theorem grows_file (bytes bytes' : Bytes) : Grows (.file bytes) (.file bytes') := by
  intro m c hc
  cases m with
  | nil =>
    obtain rfl := Option.some.inj hc
    exact ⟨_, rfl, .file bytes bytes'⟩
  | cons name rest => cases hc

theorem put_put_below {n : Node} {parent : Location} (h : n.DirAt parent) (first second : Node)
    (last lower : String) :
    (n.put first (parent ++ [last])).put second (parent ++ [last] ++ [lower]) =
      n.put (first.put second [lower]) (parent ++ [last]) := by
  induction parent generalizing n with
  | nil =>
    obtain ⟨es, rfl⟩ := h.nil
    simp [put, lookup_assign_self, assign_assign]
  | cons name rest ih =>
    obtain ⟨es, c, rfl, hc, hrest⟩ := h.cons
    simp only [List.cons_append]
    rw [put_below hc, put_below hc, put_below (lookup_assign_self name _ es), assign_assign,
      ih hrest]

/-- What was put where nothing was can be removed without a trace. -/
theorem remove_put {n : Node} {parent : Location} {last : String} (h : n.DirAt parent)
    (hmissing : n.find? (parent ++ [last]) = none) (new : Node) :
    (n.put new (parent ++ [last])).remove (parent ++ [last]) = n := by
  induction parent generalizing n with
  | nil =>
    obtain ⟨es, rfl⟩ := h.nil
    have hlookup : lookup last es = none := by
      simpa [find?_cons, child?, entries, find?, Option.bind_eq_none_iff] using hmissing
    simp [put, remove, unassign_assign hlookup]
  | cons name rest ih =>
    obtain ⟨es, c, rfl, hc, hrest⟩ := h.cons
    have hbelow : c.find? (rest ++ [last]) = none := by
      simpa [find?_cons, child?, entries, hc] using hmissing
    rw [List.cons_append, put_below hc, remove_below (lookup_assign_self name _ es),
      ih hrest hbelow, assign_assign, assign_of_lookup hc]

end LintRelay.Disk.Node
