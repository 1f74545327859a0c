import LintRelay.Proofs.Json.Outcome
import Mathlib.Data.List.Induction
import Mathlib.Data.String.Basic
set_option autoImplicit false

/-!
# JSON: written texts read back

What is written, in the compact form or with indentation, is read back by a decoder of the
right kind.  A free-form value comes back if it is one that a decoder can make
(`Canonical`): its members are in order, its integers are of 64 bits, its floats are read
from their written forms, and it is not nested deeper than the decoder goes.
-/

namespace LintRelay.Json

/-! ## Free-form values -/

/-- A value that a decoder makes, opening no more containers within each other than the depth
allows. -/
inductive Canonical : Nat → Value → Prop
  | null {depth : Nat} : Canonical depth .null
  | bool {depth : Nat} (b : Bool) : Canonical depth (.bool b)
  | int {depth : Nat} {i : Int} (h : Whole64 i) : Canonical depth (.int i)
  | float {depth : Nat} {x : Float} (h : ReadsBack x) : Canonical depth (.float x)
  | string {depth : Nat} (s : String) : Canonical depth (.string s)
  | array {depth : Nat} {vs : List Value} (h : ∀ v ∈ vs, Canonical depth v) :
    Canonical (depth + 1) (.array vs)
  | object {depth : Nat} {ms : List (String × Value)}
      (hsorted : ms.Pairwise fun m m' => m.1 < m'.1) (h : ∀ m ∈ ms, Canonical depth m.2) :
    Canonical (depth + 1) (.object ms)

/-- A name behind all others goes to the end. -/
theorem insertMember_of_lt {name : String} {ms : List (String × Value)}
    (h : ∀ m ∈ ms, m.1 < name) (v : Value) : insertMember name v ms = ms ++ [(name, v)] := by
  induction ms with
  | nil => rfl
  | cons m ms ih =>
    have hm : m.1 < name := h m List.mem_cons_self
    have hne : name ≠ m.1 := ne_of_gt hm
    have hge : ¬ name < m.1 := not_lt_of_gt hm
    simp only [insertMember, hne, hge, if_false, List.cons_append]
    rw [ih fun m' hm' => h m' (List.mem_cons_of_mem m hm')]

/-- Members in order stay as they are. -/
theorem sortMembers_of_sorted {ms : List (String × Value)}
    (h : ms.Pairwise fun m m' => m.1 < m'.1) : sortMembers ms = ms := by
  have hfold : ∀ acc : List (String × Value),
      (acc ++ ms).Pairwise (fun m m' => m.1 < m'.1) →
      ms.foldl (fun acc m => insertMember m.1 m.2 acc) acc = acc ++ ms := by
    clear h
    induction ms with
    | nil => simp
    | cons m ms ih =>
      intro acc hacc
      have hlast : ∀ m' ∈ acc, m'.1 < m.1 := fun m' hm' =>
        (List.pairwise_append.mp hacc).2.2 m' hm' m List.mem_cons_self
      rw [List.foldl_cons, insertMember_of_lt hlast, ih, List.append_assoc, List.singleton_append]
      simpa using hacc
  exact hfold [] h

theorem lookup_cons_eq_ite (key name : String) (v : Value) (ms : List (String × Value)) :
    ((name, v) :: ms).lookup key = if key = name then some v else ms.lookup key := by
  rw [List.lookup_cons]
  by_cases hkey : key = name
  · simp [hkey]
  · rw [beq_false_of_ne hkey, if_neg hkey]

theorem lookup_insertMember (key name : String) (v : Value) (ms : List (String × Value)) :
    (insertMember name v ms).lookup key = if key = name then some v else ms.lookup key := by
  induction ms with
  | nil => exact lookup_cons_eq_ite key name v []
  | cons m ms ih =>
    obtain ⟨n, w⟩ := m
    rw [insertMember]
    by_cases hname : name = n
    · subst hname
      simp only [if_true, lookup_cons_eq_ite]
      by_cases hkey : key = name <;> simp [hkey]
    · by_cases hlt : name < n
      · simp only [hname, hlt, if_true, if_false, lookup_cons_eq_ite]
      · simp only [hname, hlt, if_false, lookup_cons_eq_ite, ih]
        by_cases hkey : key = n
        · subst hkey
          simp [Ne.symm hname]
        · simp [hkey]

/-- Under a name, the sorted members have what came last under it. -/
theorem lookup_sortMembers (key : String) (ms : List (String × Value)) :
    (sortMembers ms).lookup key = ms.reverse.lookup key := by
  induction ms using List.reverseRecOn with
  | nil => rfl
  | append_singleton ms m ih =>
    have hsort : sortMembers (ms ++ [m]) = insertMember m.1 m.2 (sortMembers ms) := by
      simp [sortMembers]
    rw [hsort, lookup_insertMember, ih, List.reverse_append, List.reverse_singleton,
      List.singleton_append, lookup_cons_eq_ite]

/-- The compact form of an object stands for its members in order. -/
theorem denotes_object {depth : Nat} {ms : List (String × Value)}
    (h : ∀ m ∈ ms, Denotes depth m.2.chars m.2) :
    Denotes (depth + 1) (Value.object ms).chars (.object (sortMembers ms)) := by
  have hdenotes : Denotes (depth + 1) (Value.object ms).chars (.object (sortMembers
      ((ms.map fun m => (m.1, m.2.chars, m.2)).map fun m => (m.1, m.2.2)))) := by
    refine .object ?_ ?_
    · rw [List.map_map]
      exact objectText_chars ms
    · intro m hm
      obtain ⟨m', hm', rfl⟩ := List.mem_map.mp hm
      exact h m' hm'
  have hmembers : ((ms.map fun m => (m.1, m.2.chars, m.2)).map fun m => (m.1, m.2.2)) = ms := by
    rw [List.map_map]
    exact List.map_id ms
  rwa [hmembers] at hdenotes

/-- The compact form of a value that a decoder makes stands for this value. -/
theorem Canonical.denotes {depth : Nat} {v : Value} (h : Canonical depth v) :
    Denotes depth v.chars v := by
  induction h with
  | null =>
    rw [Value.chars]
    exact .null
  | bool b =>
    rw [Value.chars]
    exact .bool b
  | int h =>
    rw [Value.chars]
    exact .number (numberText_intChars h)
  | float h =>
    rw [Value.chars]
    exact .number h
  | string s => exact .string (stringText_chars s)
  | @array depth vs _ ih =>
    have hdenotes : Denotes (depth + 1) (Value.array vs).chars
        (.array ((vs.map fun v => (v.chars, v)).map Prod.snd)) := by
      refine .array ?_ ?_
      · rw [List.map_map]
        exact arrayText_chars vs
      · simpa using ih
    have hvalues : (vs.map fun v => (v.chars, v)).map Prod.snd = vs := by
      rw [List.map_map]
      exact List.map_id vs
    rwa [hvalues] at hdenotes
  | @object depth ms hsorted _ ih =>
    have hdenotes := denotes_object ih
    rwa [sortMembers_of_sorted hsorted] at hdenotes

theorem Canonical.reads {depth : Nat} {v : Value} (h : Canonical depth v) :
    Reads (value depth) v.chars v := h.denotes.reads

/-! ## Plain kinds -/

theorem reads_natUpTo_chars {n bound : Nat} (hn : n ≤ bound) (hbound : bound ≤ maxSignificand)
    (depth : Nat) : Reads (natUpTo bound depth) (nat n).chars n := by
  have hchars : (nat n).chars = Decimal.natChars n := by
    rw [nat, Value.chars]
    rfl
  rw [hchars]
  exact reads_natUpTo hn hbound depth

theorem reads_nat64 {n : Nat} (hn : n ≤ maxSignificand) (depth : Nat) :
    Reads (nat64 depth) (nat n).chars n := reads_natUpTo_chars hn (Nat.le_refl _) depth

theorem reads_bool (depth : Nat) (b : Bool) : Reads (bool depth) (Value.bool b).chars b := by
  have htrue : (Value.bool true).chars = ['t', 'r', 'u', 'e'] := by simp [Value.chars]
  have hfalse : (Value.bool false).chars = ['f', 'a', 'l', 's', 'e'] := by simp [Value.chars]
  cases b with
  | true =>
    rw [htrue]
    refine .of_cons (by decide) (by decide) fun blanks rest _ _ hskip => ?_
    simp only [bool, hskip]
    rfl
  | false =>
    rw [hfalse]
    refine .of_cons (by decide) (by decide) fun blanks rest _ _ hskip => ?_
    simp only [bool, hskip]
    rfl

theorem reads_string_chars (depth : Nat) (s : String) :
    Reads (string depth) (Value.string s).chars s := (stringText_chars s).reads depth

theorem ReadsBack.reads {x : Float} (h : ReadsBack x) (depth : Nat) :
    Reads (float depth) (Value.float x).chars x := by
  rw [Value.chars]
  exact NumberText.reads_float h depth

/-- A name among those of a choice is read as what it stands for. -/
theorem reads_oneOf {α : Type} {names : List (String × α)} {s : String} {a : α}
    (h : lookupName names s = .ok a) (depth : Nat) :
    Reads (oneOf names depth) (Value.string s).chars a := by
  obtain ⟨body, hbody, htext⟩ := stringText_chars s
  rw [htext]
  refine .of_cons (by decide) (by decide) fun blanks rest _ _ hskip => ?_
  simp only [oneOf, hskip]
  rw [List.append_assoc, List.singleton_append, stringTail_spells hbody rest]
  simp only [h]

/-! ## Containers -/

section Containers

variable {α : Type} {d : Decoder α} {depth : Nat}

theorem reads_list {f : α → Value} {as : List α} (h : ∀ a ∈ as, Reads (d depth) (f a).chars a) :
    Reads (list d (depth + 1)) (Value.array (as.map f)).chars as := by
  have hitems : List.Forall₂ (Gives (d depth)) ((as.map f).map Value.chars) (as.map some) := by
    rw [List.map_map, List.forall₂_map_left_iff, List.forall₂_map_right_iff]
    exact List.forall₂_same.mpr fun a ha => (h a ha).gives
  have hlist := (arrayText_chars (as.map f)).gives hitems
  rw [gathered_map_some] at hlist
  exact hlist.reads

theorem reads_nullable {f : α → Value} {o : Option α}
    (h : ∀ a ∈ o, Reads (d depth) (f a).chars a ∧ (f a).chars.head? ≠ some 'n') :
    Reads (nullable d depth) (optional f o).chars o := by
  cases o with
  | none =>
    rw [optional, Value.chars]
    exact reads_nullable_null d depth
  | some a =>
    obtain ⟨hreads, hnull⟩ := h a rfl
    exact (hreads.gives.nullable hnull).reads

theorem Reads.decode {text : Value} {a : α} (h : Reads (d maxDepth) text.chars a) :
    decode d text.compact = .ok a := by
  rw [Json.decode, Value.compact, String.toList_ofList]
  exact h.decodeChars

end Containers

/-! ## Records -/

/-- The members of an object are read into a result one after the other. -/
inductive Folds {β : Type} (member : β → String → Except Fault (Step β)) :
    List (String × List Char) → β → β → Prop
  | nil (acc : β) : Folds member [] acc acc
  | cons {name : String} {text : List Char} {ms : List (String × List Char)} {step : Step β}
      {acc next final : β} (hmember : member acc name = .ok step) (hreads : Reads step text next)
      (hrest : Folds member ms next final) : Folds member ((name, text) :: ms) acc final

theorem Folds.folded {β : Type} {member : β → String → Except Fault (Step β)}
    {ms : List (String × List Char)} {acc final : β} (h : Folds member ms acc final) :
    Folded member ms acc (some final) := by
  induction h with
  | nil acc => exact .nil acc
  | cons hmember hreads _ ih => exact .next hmember hreads.gives ih

section Records

variable {δ α : Type} {fields : List (Member δ)} {depth : Nat}

/-- A member with a known name is read with its field, once. -/
theorem Folds.field {field : Member δ} {name : String} {draft final : δ} {text : List Char}
    {fill : δ → δ} {ms : List (String × List Char)}
    (hfield : fields.find? (fun f => f.name = name) = some field)
    (hunfilled : field.filled draft = false) (hreads : Reads (field.read depth) text fill)
    (hrest : Folds (recordMember fields depth) ms (fill draft) final) :
    Folds (recordMember fields depth) ((name, text) :: ms) draft final := by
  have hmember := recordMember.eq_def fields depth draft name
  simp only [hfield, hunfilled, Bool.false_eq_true, if_false] at hmember
  refine .cons hmember ⟨hreads.starts, fun blanks rest hblanks hrest => ?_⟩ hrest
  simp [hreads.read blanks rest hblanks hrest]

theorem reads_of {get : δ → Option α} {set : δ → α → δ} {d : Decoder α} {name : String}
    {text : List Char} {a : α} (h : Reads (d depth) text a) :
    Reads ((Member.of name get set d).read depth) text (fun draft => set draft a) where
  starts := h.starts
  read blanks rest hblanks hrest := by
    simp [Member.of, h.read blanks rest hblanks hrest]

theorem reads_object {ms : List (String × Value)} {start draft : δ}
    {finish : δ → Except Fault α} {a : α}
    (h : Folds (recordMember fields depth) (ms.map fun m => (m.1, m.2.chars)) start draft)
    (hfinish : finish draft = .ok a) :
    Reads (record fields start finish (depth + 1)) (Value.object ms).chars a := by
  have hgives : Gives (record fields start finish (depth + 1)) (Value.object ms).chars (some a) :=
    (objectText_chars ms).gives h.folded (by rintro _ ⟨⟩; exact hfinish) (by rintro ⟨⟩)
  exact hgives.reads

/-- A record is decoded from the compact text of an object with its members. -/
theorem decode_compact_object {ms : List (String × Value)} {start draft : δ}
    {finish : δ → Except Fault α} {a : α}
    (h : Folds (recordMember fields 126) (ms.map fun m => (m.1, m.2.chars)) start draft)
    (hfinish : finish draft = .ok a) :
    decode (record fields start finish) (Value.object ms).compact = .ok a :=
  (reads_object h hfinish).decode

end Records

/-! ## Indented values -/

/-- An array that is written with indentation is read when its items are. -/
theorem reads_indented_array {indent depth : Nat} {vs : List Value}
    (h : ∀ v ∈ vs, Reads (value depth) (v.indentedChars (indent + 1)) v) :
    Reads (value (depth + 1)) ((Value.array vs).indentedChars indent) (.array vs) := by
  have htext := (Layout.indented indent).arrayText
    ((vs.map fun v => (v.indentedChars (indent + 1), v)).map Prod.fst)
  have hitems : ∀ i ∈ vs.map fun v => (v.indentedChars (indent + 1), v),
      Reads (value depth) i.1 i.2 := by
    simpa using h
  have hreads := htext.reads_value hitems
  simpa [indentedChars_array, Function.comp_def] using hreads

/-- An object that is written with indentation is read when the values of its members are,
and its members are in order. -/
theorem reads_indented_object {indent depth : Nat} {ms : List (String × Value)}
    (h : ∀ m ∈ ms, Reads (value depth) (m.2.indentedChars (indent + 1)) m.2)
    (hsorted : sortMembers ms = ms) :
    Reads (value (depth + 1)) ((Value.object ms).indentedChars indent) (.object ms) := by
  have htext := (Layout.indented indent).objectText
    ((ms.map fun m => (m.1, m.2.indentedChars (indent + 1), m.2)).map fun m => (m.1, m.2.1))
  have hmembers : ∀ m ∈ ms.map fun m => (m.1, m.2.indentedChars (indent + 1), m.2),
      Reads (value depth) m.2.1 m.2.2 := by
    intro m hm
    obtain ⟨m', hm', rfl⟩ := List.mem_map.mp hm
    exact h m' hm'
  have hreads := htext.reads_value hmembers
  simpa [indentedChars_object, Function.comp_def, hsorted] using hreads

theorem reads_indented_string (indent depth : Nat) (s : String) :
    Reads (value depth) ((Value.string s).indentedChars indent) (.string s) := by
  have hchars : (Value.string s).indentedChars indent = (Value.string s).chars := by
    simp [Value.indentedChars]
  rw [hchars]
  exact (stringText_chars s).reads_value depth

theorem reads_indented_true (indent depth : Nat) :
    Reads (value depth) ((Value.bool true).indentedChars indent) (.bool true) := by
  have hchars : (Value.bool true).indentedChars indent = "true".toList := by
    simp [Value.indentedChars, Value.chars]
  rw [hchars]
  exact reads_value_bool depth true

end LintRelay.Json
