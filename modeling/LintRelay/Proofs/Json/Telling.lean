import LintRelay.Proofs.Json.Outcome
import Mathlib.Logic.Function.Basic
set_option autoImplicit false

/-!
# JSON: objects that tell about a record

The text of an object may have the members of a record in any order, leave some of them out
and have others that nobody knows (`Tells`).  What has been read of the record is a draft
that depends on which of the known members have been met, and not on their order; so a
record comes out of every such object in the same way.
-/

namespace LintRelay.Json

/-- Members that tell about a record.  The known members are given with what their texts must
be; each stands once unless it is left out, and members with other names may stand anywhere
among them. -/
structure Tells (known : List (String × (List Char → Prop))) (left : String → Bool)
    (ms : List (String × List Char)) : Prop where
  once : ((ms.map Prod.fst).filter fun n => n ∈ known.map Prod.fst).Nodup
  told : ∀ m ∈ ms, ∀ form, (m.1, form) ∈ known → form m.2
  kept : ∀ n ∈ known.map Prod.fst, n ∈ ms.map Prod.fst ↔ left n = false
  others : ∀ m ∈ ms, m.1 ∉ known.map Prod.fst → Valid m.2

/-- The text of an object that tells about a record. -/
def TellingText (known : List (String × (List Char → Prop))) (left : String → Bool)
    (text : List Char) : Prop :=
  ∃ ms, ObjectText ms text ∧ Tells known left ms

/-- A whole text of some form, with blanks around it. -/
def Document (form : List Char → Prop) (text : String) : Prop :=
  ∃ before inner after, Blank before ∧ Blank after ∧ form inner ∧
    text.toList = before ++ (inner ++ after)

theorem Document.decode {α : Type} {d : Decoder α} {form : List Char → Prop} {text : String}
    {out : Option α} (h : Document form text)
    (hform : ∀ inner, form inner → Gives (d maxDepth) inner out) :
    decode d text = verdict out := by
  obtain ⟨before, inner, after, hbefore, hafter, hinner, htext⟩ := h
  unfold Json.decode
  rw [htext]
  exact (hform inner hinner).decodeChars hbefore hafter

/-! ## Texts in which something may be missing -/

/-- A text gives a value if it is whole, and nothing otherwise. -/
structure GivesIf {α : Type} (step : Step α) (text : List Char) (whole : Prop) (a : α) : Prop where
  ofWhole : whole → Gives step text (some a)
  ofMissing : ¬ whole → Gives step text none

theorem Reads.givesIf {α : Type} {step : Step α} {text : List Char} {a : α}
    (h : Reads step text a) {whole : Prop} (hwhole : whole) : GivesIf step text whole a :=
  ⟨fun _ => h.gives, fun hnot => absurd hwhole hnot⟩

theorem GivesIf.congr {α : Type} {step : Step α} {text : List Char} {whole whole' : Prop} {a : α}
    (h : GivesIf step text whole a) (hiff : whole ↔ whole') : GivesIf step text whole' a :=
  ⟨fun hwhole => h.ofWhole (hiff.mpr hwhole), fun hnot => h.ofMissing (mt hiff.mp hnot)⟩

/-- The text of a natural number. -/
def NatText (n : Nat) (text : List Char) : Prop := text = Decimal.natChars n

/-- A text of a float: a number that is read as this float. -/
def FloatText (x : Float) (text : List Char) : Prop := ∃ n, NumberText text n ∧ n.toFloat = x

/-- `null`, or a text for the value that is there. -/
def OptionalText {α : Type} (form : α → List Char → Prop) : Option α → List Char → Prop
  | none, text => text = "null".toList
  | some a, text => form a text

/-- An array with a text for each item, which may depend on the place of the item. -/
def ListText {α : Type} (form : Nat → α → List Char → Prop) (as : List α) (text : List Char) :
    Prop :=
  ∃ texts, ArrayText texts text ∧ texts.length = as.length ∧
    ∀ i a t, as[i]? = some a → texts[i]? = some t → form i a t

section Kinds

variable {α β : Type} {d : Decoder β} {depth : Nat} {text : List Char}

theorem NatText.reads {n bound : Nat} (h : NatText n text) (hn : n ≤ bound)
    (hbound : bound ≤ maxSignificand) (depth : Nat) : Reads (natUpTo bound depth) text n := by
  obtain rfl : text = Decimal.natChars n := h
  exact reads_natUpTo hn hbound depth

theorem natText_chars (n : Nat) : NatText n (nat n).chars := by
  rw [nat, Value.chars]
  rfl

theorem FloatText.reads {x : Float} (h : FloatText x text) (depth : Nat) :
    Reads (float depth) text x := by
  obtain ⟨n, hn, rfl⟩ := h
  exact hn.reads_float depth

/-! ### No other text starts like `null` -/

theorem NatText.head?_ne {n : Nat} (h : NatText n text) : text.head? ≠ some 'n' := by
  obtain rfl : text = Decimal.natChars n := h
  obtain ⟨c, cs, d, hchars, hd, -, -⟩ := natChars_eq_cons n
  rw [hchars]
  simpa using (ne_of_digit? hd).1

theorem FloatText.head?_ne {x : Float} (h : FloatText x text) : text.head? ≠ some 'n' := by
  obtain ⟨n, hn, -⟩ := h
  obtain ⟨c, cs, rfl, rfl | ⟨d, hd⟩⟩ := hn.starts
  · simp
  · simpa using (ne_of_digit? hd).1

theorem StringText.head?_ne {s : String} (h : StringText s text) : text.head? ≠ some 'n' := by
  obtain ⟨body, -, rfl⟩ := h
  simp

theorem TellingText.head?_ne {known : List (String × (List Char → Prop))}
    {left : String → Bool} (h : TellingText known left text) : text.head? ≠ some 'n' := by
  obtain ⟨ms, ⟨_⟩, -⟩ := h
  simp

theorem ListText.head?_ne {form : Nat → α → List Char → Prop} {as : List α}
    (h : ListText form as text) : text.head? ≠ some 'n' := by
  obtain ⟨texts, ⟨_⟩, -⟩ := h
  simp

/-! ### Optional values and lists -/

theorem OptionalText.givesIf {form : α → List Char → Prop} {o : Option α}
    (h : OptionalText form o text) {whole : α → Prop} {f : α → β}
    (hform : ∀ a ∈ o, form a text →
      GivesIf (d depth) text (whole a) (f a) ∧ text.head? ≠ some 'n') :
    GivesIf (nullable d depth) text (∀ a ∈ o, whole a) (o.map f) := by
  cases o with
  | none =>
    obtain rfl : text = "null".toList := h
    exact (reads_nullable_null d depth).givesIf (by rintro _ ⟨⟩)
  | some a =>
    obtain ⟨hgives, hnull⟩ := hform a rfl h
    constructor
    · intro hwhole
      exact (hgives.ofWhole (hwhole a rfl)).nullable hnull
    · intro hnot
      refine (hgives.ofMissing fun hwhole => hnot ?_).nullable hnull
      rintro _ ⟨⟩
      exact hwhole

theorem OptionalText.reads {d : Decoder α} {form : α → List Char → Prop} {o : Option α}
    (h : OptionalText form o text)
    (hform : ∀ a ∈ o, form a text → Reads (d depth) text a ∧ text.head? ≠ some 'n') :
    Reads (nullable d depth) text o := by
  cases o with
  | none =>
    obtain rfl : text = "null".toList := h
    exact reads_nullable_null d depth
  | some a =>
    obtain ⟨hreads, hnull⟩ := hform a rfl h
    exact (hreads.gives.nullable hnull).reads

theorem ListText.givesIf {form : Nat → α → List Char → Prop} {as : List α}
    (h : ListText form as text) {whole : Nat → α → Prop} {f : Nat → α → β}
    (hform : ∀ i a t, as[i]? = some a → form i a t → GivesIf (d depth) t (whole i a) (f i a)) :
    GivesIf (list d (depth + 1)) text (∀ i a, as[i]? = some a → whole i a) (as.mapIdx f) := by
  classical
  obtain ⟨texts, htext, hlength, htexts⟩ := h
  -- What becomes of the items one by one.
  let out (i : Nat) (a : α) : Option β := if whole i a then some (f i a) else none
  have hgives : List.Forall₂ (Gives (d depth)) texts (as.mapIdx out) := by
    refine List.forall₂_iff_get.mpr ⟨by simpa using hlength, fun i hi hi' => ?_⟩
    have hi'' : i < as.length := by simpa using hi'
    have hitem := hform i as[i] texts[i] (List.getElem?_eq_getElem hi'')
      (htexts i as[i] texts[i] (List.getElem?_eq_getElem hi'') (List.getElem?_eq_getElem hi))
    simp only [List.get_eq_getElem, List.getElem_mapIdx, out]
    split
    next hwhole => exact hitem.ofWhole hwhole
    next hnot => exact hitem.ofMissing hnot
  constructor
  · intro hwhole
    have houts : as.mapIdx out = (as.mapIdx f).map some := by
      refine List.ext_getElem (by simp) fun i hi hi' => ?_
      have hi'' : i < as.length := by simpa using hi
      simp [out, hwhole i as[i] (List.getElem?_eq_getElem hi'')]
    have hlist := htext.gives hgives
    rwa [houts, gathered_map_some] at hlist
  · intro hnot
    push Not at hnot
    obtain ⟨i, a, ha, hmissing⟩ := hnot
    have hmem : none ∈ as.mapIdx out := by
      refine List.mem_iff_getElem?.mpr ⟨i, ?_⟩
      simp [List.getElem?_mapIdx, ha, out, hmissing]
    have hlist := htext.gives hgives
    rwa [gathered_of_none_mem hmem] at hlist

theorem ListText.reads {d : Decoder α} {form : α → List Char → Prop} {as : List α}
    (h : ListText (fun _ => form) as text)
    (hform : ∀ a ∈ as, ∀ t, form a t → Reads (d depth) t a) :
    Reads (list d (depth + 1)) text as := by
  have hgives : GivesIf (list d (depth + 1)) text (∀ (i : Nat) a, as[i]? = some a → True)
      (as.mapIdx fun _ a => a) := by
    refine h.givesIf fun i a t ha ht => ?_
    exact (hform a (List.mem_of_getElem? ha) t ht).givesIf trivial
  have hsame : (as.mapIdx fun _ a => a) = as := List.ext_getElem (by simp) (by simp)
  have hall := hgives.ofWhole fun _ _ _ => trivial
  rw [hsame] at hall
  exact hall.reads

end Kinds

/-! ## Places in a draft -/

/-- A member's place in a draft. -/
def place {α : Type} (seen : String → Bool) (name : String) (a : α) : Option α :=
  if seen name then some a else none

theorem place_update {α : Type} (seen : String → Bool) (met name : String) (a : α) :
    place (Function.update seen met true) name a =
      if name = met then some a else place seen name a := by
  by_cases hname : name = met
  · simp [place, hname]
  · simp [place, hname]

/-! ## Members of a record -/

section Records

variable {δ α : Type} {fields : List (Member δ)} {depth : Nat}

theorem recordMember_unknown {name : String} {text : List Char}
    (hname : fields.find? (fun f => f.name = name) = none) (htext : Valid text) (draft : δ) :
    ∃ step, recordMember fields depth draft name = .ok step ∧ Gives step text (some draft) := by
  have hmember := recordMember.eq_def fields depth draft name
  simp only [hname] at hmember
  refine ⟨_, hmember, htext.skips.starts, fun blanks rest hblanks hrest => ?_⟩
  rw [htext.skip hblanks hrest, outcome_some]

theorem recordMember_known {field : Member δ} {name : String} {text : List Char} {draft : δ}
    {out : Option (δ → δ)} (hfield : fields.find? (fun f => f.name = name) = some field)
    (hunfilled : field.filled draft = false) (hread : Gives (field.read depth) text out) :
    ∃ step, recordMember fields depth draft name = .ok step ∧
      Gives step text (out.map fun fill => fill draft) := by
  have hmember := recordMember.eq_def fields depth draft name
  simp only [hfield, hunfilled, Bool.false_eq_true, if_false] at hmember
  refine ⟨_, hmember, hread.starts, fun blanks rest hblanks hrest => ?_⟩
  rw [hread.gives blanks rest hblanks hrest]
  cases out <;> rfl

theorem Gives.of {get : δ → Option α} {set : δ → α → δ} {d : Decoder α} {name : String}
    {text : List Char} {out : Option α} (h : Gives (d depth) text out) :
    Gives ((Member.of name get set d).read depth) text
      (out.map fun a draft => set draft a) where
  starts := h.starts
  gives blanks rest hblanks hrest := by
    simp only [Member.of, h.gives blanks rest hblanks hrest]
    cases out <;> rfl

/-! ## Drafts by the members that have been met -/

variable {draftOf : (String → Bool) → δ}

/-- A member with a text of its form goes to its place in the draft; nothing comes of it when
something is missing in the text. -/
structure Fills (fields : List (Member δ)) (depth : Nat) (draftOf : (String → Bool) → δ)
    (name : String) (form : List Char → Prop) (whole : Prop) : Prop where
  fills : ∃ field, fields.find? (fun f => f.name = name) = some field ∧
    (∀ seen, seen name = false → field.filled (draftOf seen) = false) ∧
    ∀ text, form text →
      (whole → ∃ fill, Gives (field.read depth) text (some fill) ∧
        ∀ seen, fill (draftOf seen) = draftOf (Function.update seen name true)) ∧
      (¬ whole → Gives (field.read depth) text none)

theorem Fills.of {get : δ → Option α} {set : δ → α → δ} {d : Decoder α} {name : String}
    {form : List Char → Prop} {whole : Prop} {a : α}
    (hfield : fields.find? (fun f => f.name = name) = some (Member.of name get set d))
    (hget : ∀ seen, get (draftOf seen) = place seen name a)
    (hset : ∀ seen, set (draftOf seen) a = draftOf (Function.update seen name true))
    (hgives : ∀ text, form text → GivesIf (d depth) text whole a) :
    Fills fields depth draftOf name form whole := by
  refine ⟨_, hfield, fun seen hseen => ?_, fun text htext => ⟨fun h => ?_, fun h => ?_⟩⟩
  · simp [Member.of, hget, place, hseen]
  · exact ⟨_, ((hgives text htext).ofWhole h).of, hset⟩
  · exact ((hgives text htext).ofMissing h).of

variable {known : List (String × (List Char → Prop))} {whole : String → Prop}

/-- The first of some members goes to its place, if it is known and nothing is missing in it. -/
theorem exists_step (hfields : ∀ m ∈ known, Fills fields depth draftOf m.1 m.2 (whole m.1))
    (hunknown : ∀ n ∉ known.map Prod.fst, fields.find? (fun f => f.name = n) = none)
    {name : String} {text : List Char} (htold : ∀ form, (name, form) ∈ known → form text)
    (hother : name ∉ known.map Prod.fst → Valid text) {seen : String → Bool}
    (hseen : name ∈ known.map Prod.fst → seen name = false)
    (hwhole : name ∈ known.map Prod.fst → whole name) :
    ∃ step, recordMember fields depth (draftOf seen) name = .ok step ∧
      Gives step text (some (draftOf (if name ∈ known.map Prod.fst then
        Function.update seen name true else seen))) := by
  by_cases hname : name ∈ known.map Prod.fst
  · obtain ⟨m, hm, rfl⟩ := List.mem_map.mp hname
    obtain ⟨field, hfield, hfilled, htext⟩ := (hfields m hm).fills
    obtain ⟨fill, hgives, hfill⟩ := (htext text (htold m.2 hm)).1 (hwhole hname)
    obtain ⟨step, hstep, hread⟩ := recordMember_known hfield (hfilled seen (hseen hname)) hgives
    rw [Option.map_some, hfill] at hread
    exact ⟨step, hstep, by rwa [if_pos hname]⟩
  · rw [if_neg hname]
    exact recordMember_unknown (hunknown name hname) (hother hname) _

/-- The names that have been met behind some more members. -/
def met (known : List (String × (List Char → Prop))) (seen : String → Bool)
    (ms : List (String × List Char)) : String → Bool :=
  fun n => seen n || (decide (n ∈ known.map Prod.fst) && decide (n ∈ ms.map Prod.fst))

theorem met_nil (known : List (String × (List Char → Prop))) (seen : String → Bool) :
    met known seen [] = seen := by
  funext n
  simp [met]

theorem met_cons (known : List (String × (List Char → Prop))) (seen : String → Bool)
    (m : String × List Char) (ms : List (String × List Char)) :
    met known seen (m :: ms) =
      met known (if m.1 ∈ known.map Prod.fst then Function.update seen m.1 true else seen) ms := by
  funext n
  by_cases hm : m.1 ∈ known.map Prod.fst
  · rw [if_pos hm]
    by_cases hn : n = m.1
    · subst hn
      simp [met, hm]
    · simp only [met, Function.update_of_ne hn, List.map_cons, List.mem_cons, hn, false_or]
  · have hn : n ∈ known.map Prod.fst → n ≠ m.1 := by
      rintro h rfl
      exact hm h
    rw [if_neg hm]
    by_cases h : n ∈ known.map Prod.fst
    · simp only [met, List.map_cons, List.mem_cons, hn h, false_or]
    · simp only [met, h, decide_false, Bool.false_and]

/-- Members that may still be read into a draft: none of them has been met, and none stands
twice. -/
structure Pending (known : List (String × (List Char → Prop))) (seen : String → Bool)
    (ms : List (String × List Char)) : Prop where
  once : ((ms.map Prod.fst).filter fun n => n ∈ known.map Prod.fst).Nodup
  fresh : ∀ m ∈ ms, m.1 ∈ known.map Prod.fst → seen m.1 = false
  told : ∀ m ∈ ms, ∀ form, (m.1, form) ∈ known → form m.2
  others : ∀ m ∈ ms, m.1 ∉ known.map Prod.fst → Valid m.2

theorem Pending.tail {seen : String → Bool} {m : String × List Char}
    {ms : List (String × List Char)} (h : Pending known seen (m :: ms)) :
    Pending known (if m.1 ∈ known.map Prod.fst then Function.update seen m.1 true else seen)
      ms where
  once := by
    have honce := h.once
    rw [List.map_cons] at honce
    exact honce.sublist ((List.sublist_cons_self _ _).filter _)
  fresh m' hm' hknown := by
    have hfresh := h.fresh m' (List.mem_cons_of_mem m hm') hknown
    split
    next hm =>
      have hne : m'.1 ≠ m.1 := by
        intro heq
        have honce := h.once
        rw [List.map_cons, List.filter_cons_of_pos (by simpa using hm)] at honce
        refine (List.nodup_cons.mp honce).1 (List.mem_filter.mpr ⟨?_, by simpa using hm⟩)
        rw [← heq]
        exact List.mem_map_of_mem hm'
      rwa [Function.update_of_ne hne]
    · exact hfresh
  told m' hm' := h.told m' (List.mem_cons_of_mem m hm')
  others m' hm' := h.others m' (List.mem_cons_of_mem m hm')

section Folding

variable (hfields : ∀ m ∈ known, Fills fields depth draftOf m.1 m.2 (whole m.1))
  (hunknown : ∀ n ∉ known.map Prod.fst, fields.find? (fun f => f.name = n) = none)

include hfields hunknown

/-- Members in which nothing is missing are read into a draft, in any order. -/
theorem folded_whole {ms : List (String × List Char)} {seen : String → Bool}
    (h : Pending known seen ms) (hwhole : ∀ m ∈ ms, m.1 ∈ known.map Prod.fst → whole m.1) :
    Folded (recordMember fields depth) ms (draftOf seen) (some (draftOf (met known seen ms))) := by
  induction ms generalizing seen with
  | nil =>
    rw [met_nil]
    exact .nil _
  | cons m ms ih =>
    obtain ⟨step, hstep, hgives⟩ := exists_step hfields hunknown (h.told m List.mem_cons_self)
      (h.others m List.mem_cons_self) (h.fresh m List.mem_cons_self)
      (hwhole m List.mem_cons_self)
    rw [met_cons]
    exact .next hstep hgives (ih h.tail fun m' hm' => hwhole m' (List.mem_cons_of_mem m hm'))

/-- Nothing comes of members with something missing in one of them. -/
theorem folded_missing {ms : List (String × List Char)} {seen : String → Bool}
    (h : Pending known seen ms)
    (hmissing : ∃ m ∈ ms, m.1 ∈ known.map Prod.fst ∧ ¬ whole m.1) :
    Folded (recordMember fields depth) ms (draftOf seen) none := by
  induction ms generalizing seen with
  | nil =>
    obtain ⟨m, hm, -⟩ := hmissing
    cases hm
  | cons m ms ih =>
    by_cases hfirst : m.1 ∈ known.map Prod.fst → whole m.1
    · obtain ⟨step, hstep, hgives⟩ := exists_step hfields hunknown (h.told m List.mem_cons_self)
        (h.others m List.mem_cons_self) (h.fresh m List.mem_cons_self) hfirst
      refine .next hstep hgives (ih h.tail ?_)
      obtain ⟨m', hm', hknown, hnot⟩ := hmissing
      rcases List.mem_cons.mp hm' with rfl | hm'
      · exact absurd (hfirst hknown) hnot
      · exact ⟨m', hm', hknown, hnot⟩
    · obtain ⟨hknown, hnot⟩ := Classical.not_imp.mp hfirst
      obtain ⟨k, hk, hname⟩ := List.mem_map.mp hknown
      have htold := h.told m List.mem_cons_self k.2 (by rwa [← hname])
      have hfresh := h.fresh m List.mem_cons_self hknown
      rw [← hname] at hnot hfresh
      obtain ⟨field, hfield, hfilled, htext⟩ := (hfields k hk).fills
      obtain ⟨step, hstep, hread⟩ :=
        recordMember_known hfield (hfilled seen hfresh) ((htext m.2 htold).2 hnot)
      rw [hname] at hstep
      exact .stop hstep hread

end Folding

/-- The known members that are not left out. -/
def keptOf (known : List (String × (List Char → Prop))) (left : String → Bool) : String → Bool :=
  fun n => decide (n ∈ known.map Prod.fst) && !left n

theorem place_keptOf {name : String} (hname : name ∈ known.map Prod.fst) (left : String → Bool)
    (a : α) : place (keptOf known left) name a = if left name then none else some a := by
  simp only [place, keptOf, hname]
  cases left name <;> rfl

/-- A member that is left out takes its default. -/
theorem getD_kept {α : Type} (gone : Bool) (a b : α) :
    (if gone then none else some a).getD b = if gone then b else a := by
  cases gone <;> rfl

theorem Tells.met_eq_keptOf {left : String → Bool} {ms : List (String × List Char)}
    (h : Tells known left ms) : met known (fun _ => false) ms = keptOf known left := by
  funext n
  by_cases hn : n ∈ known.map Prod.fst
  · simp only [met, keptOf, hn, h.kept n hn]
    cases left n <;> rfl
  · simp only [met, keptOf, hn, decide_false, Bool.false_and, Bool.or_false]

/-- A record comes out of an object that tells about it: the draft with exactly the known
members that are not left out decides. -/
theorem TellingText.givesIf {left : String → Bool} {text : List Char} {start : δ}
    {finish : δ → Except Fault α} {complete : Prop} {a : α} (h : TellingText known left text)
    (hnames : fields.map Member.name = known.map Prod.fst)
    (hstart : draftOf (fun _ => false) = start)
    (hfields : ∀ m ∈ known, Fills fields depth draftOf m.1 m.2 (whole m.1))
    (hcomplete : complete → (∀ n ∈ known.map Prod.fst, left n = false → whole n) ∧
      finish (draftOf (keptOf known left)) = .ok a)
    (hincomplete : ¬ complete → (∀ n ∈ known.map Prod.fst, left n = false → whole n) →
      finish (draftOf (keptOf known left)) = .error .mismatch) :
    GivesIf (record fields start finish (depth + 1)) text complete a := by
  obtain ⟨ms, htext, htells⟩ := h
  have hunknown : ∀ n ∉ known.map Prod.fst, fields.find? (fun f => f.name = n) = none := by
    intro n hn
    rw [← hnames] at hn
    refine List.find?_eq_none.mpr fun f hf hname => hn ?_
    exact of_decide_eq_true hname ▸ List.mem_map_of_mem hf
  have hpending : Pending known (fun _ => false) ms :=
    ⟨htells.once, fun _ _ _ => rfl, htells.told, htells.others⟩
  have hfolded : (∀ n ∈ known.map Prod.fst, left n = false → whole n) →
      Folded (recordMember fields depth) ms start (some (draftOf (keptOf known left))) := by
    intro hall
    rw [← hstart, ← htells.met_eq_keptOf]
    exact folded_whole hfields hunknown hpending fun m hm hknown =>
      hall m.1 hknown ((htells.kept m.1 hknown).mp (List.mem_map_of_mem hm))
  constructor
  · intro hdone
    obtain ⟨hall, hfinish⟩ := hcomplete hdone
    exact htext.gives (hfolded hall) (by rintro _ ⟨⟩; exact hfinish) (by rintro ⟨⟩)
  · intro hnot
    by_cases hall : ∀ n ∈ known.map Prod.fst, left n = false → whole n
    · have hfinish := hincomplete hnot hall
      exact htext.gives (hfolded hall) (by rintro _ ⟨⟩; exact hfinish) (by rintro ⟨⟩)
    · push Not at hall
      obtain ⟨n, hn, hkept, hmissing⟩ := hall
      obtain ⟨m, hm, rfl⟩ := List.mem_map.mp ((htells.kept n hn).mpr hkept)
      have hstop := folded_missing hfields hunknown hpending ⟨m, hm, hn, hmissing⟩
      rw [hstart] at hstop
      exact htext.gives hstop (by rintro _ ⟨⟩) fun _ => rfl

end Records

end LintRelay.Json
