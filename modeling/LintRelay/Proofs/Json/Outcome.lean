import LintRelay.Proofs.Json.Grammar
import Mathlib.Data.List.Forall2
set_option autoImplicit false

/-!
# JSON: what a reader makes of a text

A reader that meets a text of the right form either gets a value out of it or finds
something missing in it; `Gives` says which, wherever the text stands.  A list or an object
gives something when all its parts do, and the first part that gives nothing ends the
reading.
-/

namespace LintRelay.Json

/-! ## Outcomes -/

/-- A value, or the complaint that there is no such value. -/
def verdict {α : Type} : Option α → Except Fault α
  | some a => .ok a
  | none => .error .mismatch

/-- A value and the characters behind it, or the complaint. -/
def outcome {α : Type} (out : Option α) (rest : List Char) : Except Fault (α × List Char) :=
  (verdict out).map fun a => (a, rest)

theorem outcome_some {α : Type} (a : α) (rest : List Char) :
    outcome (some a) rest = .ok (a, rest) := rfl

theorem outcome_none {α : Type} (rest : List Char) :
    outcome (none : Option α) rest = .error .mismatch := rfl

/-- All values of a list, if none is missing. -/
def gathered {α : Type} : List (Option α) → Option (List α)
  | [] => some []
  | none :: _ => none
  | some a :: outs => (gathered outs).map (a :: ·)

theorem gathered_map_some {α : Type} (as : List α) : gathered (as.map some) = some as := by
  induction as with
  | nil => rfl
  | cons a as ih => simp [gathered, ih]

theorem gathered_of_none_mem {α : Type} {outs : List (Option α)} (h : none ∈ outs) :
    gathered outs = none := by
  induction outs with
  | nil => cases h
  | cons out outs ih =>
    cases out with
    | none => rfl
    | some a => simp [gathered, ih (by simpa using h)]

/-- What a step reader makes of a text, behind blanks and in front of a delimiter. -/
structure Gives {α : Type} (step : Step α) (text : List Char) (out : Option α) : Prop where
  starts : ∃ c cs, text = c :: cs ∧ isSpace c = false ∧ c ≠ ']'
  gives : ∀ blanks rest, Blank blanks → Delimited rest →
    step (blanks ++ (text ++ rest)) = outcome out rest

theorem Reads.gives {α : Type} {step : Step α} {text : List Char} {a : α}
    (h : Reads step text a) : Gives step text (some a) := ⟨h.starts, h.read⟩

theorem Gives.reads {α : Type} {step : Step α} {text : List Char} {a : α}
    (h : Gives step text (some a)) : Reads step text a := ⟨h.starts, h.gives⟩

theorem Gives.of_cons {α : Type} {step : Step α} {c : Char} {cs : List Char} {out : Option α}
    (hspace : isSpace c = false) (hend : c ≠ ']')
    (hstep : ∀ blanks rest, Blank blanks → Delimited rest →
      skipSpace (blanks ++ (c :: cs ++ rest)) = c :: (cs ++ rest) →
      step (blanks ++ (c :: cs ++ rest)) = outcome out rest) :
    Gives step (c :: cs) out where
  starts := ⟨c, cs, rfl, hspace, hend⟩
  gives blanks rest hblanks hrest :=
    hstep blanks rest hblanks hrest (skipSpace_append_cons hblanks hspace _)

/-- Behind blanks, a reader finds its text. -/
theorem Gives.behind {α : Type} {step : Step α} {text : List Char} {out : Option α}
    (h : Gives step text out) {blanks rest : List Char} (hblanks : Blank blanks)
    (hrest : Delimited rest) :
    ∃ c cs, skipSpace (blanks ++ (text ++ rest)) = c :: cs ∧ c ≠ ']' ∧
      step (c :: cs) = outcome out rest := by
  obtain ⟨c, cs, rfl, hspace, hend⟩ := h.starts
  exact ⟨c, cs ++ rest, skipSpace_append_cons hblanks hspace _, hend,
    h.gives [] rest (by simp [Blank]) hrest⟩

/-- A whole text, with blanks around it, decodes to what it gives. -/
theorem Gives.decodeChars {α : Type} {d : Decoder α} {text : List Char} {out : Option α}
    (h : Gives (d maxDepth) text out) {before after : List Char} (hbefore : Blank before)
    (hafter : Blank after) : decodeChars d (before ++ (text ++ after)) = verdict out := by
  have hend : skipSpace after = [] := by
    have hskip := skipSpace_append hafter []
    rwa [List.append_nil] at hskip
  have hdelimited : Delimited after := by
    have hdelimited := delimited_append hafter delimited_nil
    rwa [List.append_nil] at hdelimited
  unfold Json.decodeChars
  rw [h.gives before after hbefore hdelimited]
  cases out with
  | none => rfl
  | some a => simp [outcome_some, verdict, hend]

/-! ## Lists -/

section Items

variable {α : Type} {item : Step α}

theorem itemsLoop_outcome {texts : List (List Char)} {text : List Char}
    (h : Tail Eq ']' texts text) {outs : List (Option α)}
    (hitems : List.Forall₂ (Gives item) texts outs) {fuel : Nat} (hfuel : texts.length < fuel)
    (read : List α) (rest : List Char) :
    itemsLoop item fuel false read (text ++ rest) =
      outcome ((gathered outs).map (read.reverse ++ ·)) rest := by
  induction h generalizing outs fuel read with
  | close hblanks =>
    cases hitems
    obtain ⟨fuel, rfl⟩ := Nat.exists_eq_add_of_lt hfuel
    rw [List.append_assoc, List.singleton_append, itemsLoop,
      skipSpace_append_cons hblanks (by decide)]
    simp [gathered, outcome_some]
  | @next t texts blanks gap _ more hblanks hgap hform hmore ih =>
    subst hform
    obtain ⟨fuel, rfl⟩ : ∃ m, fuel = m + 1 := ⟨fuel - 1, by omega⟩
    cases hitems with
    | @cons _ out _ outs hgives hitems =>
      obtain ⟨c, cs, hnext, hend, hitem⟩ :=
        hgives.behind hgap (hmore.delimited (.inl rfl) rest)
      rw [List.append_assoc, List.cons_append, itemsLoop,
        skipSpace_append_cons hblanks (by decide)]
      simp only [List.append_assoc, hnext, hend, hitem, Bool.false_eq_true, if_false, if_true,
        Char.reduceEq]
      cases out with
      | none => rfl
      | some a =>
        simp only [outcome_some]
        rw [ih hitems (by simpa using hfuel) (a :: read)]
        simp [gathered, Function.comp_def]

theorem Tail.length_lt {ι : Type} {form : ι → List Char → Prop} {closing : Char} {is : List ι}
    {text : List Char} (h : Tail form closing is text) : is.length < text.length := by
  induction h with
  | close hblanks => simp
  | next _ _ _ _ ih =>
    simp only [List.length_cons, List.length_append]
    omega

/-- The items of a list give a list, if all of them give something. -/
theorem items_outcome {texts : List (List Char)} {inner : List Char}
    (h : Enclosed Eq ']' texts inner) {outs : List (Option α)}
    (hitems : List.Forall₂ (Gives item) texts outs) (rest : List Char) :
    items item (inner ++ rest) = outcome (gathered outs) rest := by
  unfold items
  cases h with
  | empty hblanks =>
    cases hitems
    rw [List.append_assoc, List.singleton_append, itemsLoop,
      skipSpace_append_cons hblanks (by decide)]
    simp [gathered, outcome_some]
  | @items t texts gap _ more hgap hform hmore =>
    subst hform
    cases hitems with
    | @cons _ out _ outs hgives hitems =>
      have hfuel : texts.length < (gap ++ (t ++ more) ++ rest).length := by
        have hlength := hmore.length_lt
        simp only [List.length_append]
        omega
      obtain ⟨c, cs, hnext, hend, hitem⟩ :=
        hgives.behind hgap (hmore.delimited (.inl rfl) rest)
      generalize (gap ++ (t ++ more) ++ rest).length = fuel at hfuel
      rw [List.append_assoc, List.append_assoc, itemsLoop]
      simp only [hnext, hend, hitem, if_false, if_true]
      cases out with
      | none => rfl
      | some a =>
        simp only [outcome_some]
        rw [itemsLoop_outcome hmore hitems hfuel [a]]
        simp [gathered]

end Items

/-! ## Objects -/

/-- The members of an object are read into a result one after the other, up to the first
that gives nothing. -/
inductive Folded {β : Type} (member : β → String → Except Fault (Step β)) :
    List (String × List Char) → β → Option β → Prop
  | nil (acc : β) : Folded member [] acc (some acc)
  | next {name : String} {text : List Char} {ms : List (String × List Char)} {step : Step β}
      {acc next : β} {out : Option β} (hmember : member acc name = .ok step)
      (hgives : Gives step text (some next)) (hrest : Folded member ms next out) :
    Folded member ((name, text) :: ms) acc out
  | stop {name : String} {text : List Char} {ms : List (String × List Char)} {step : Step β}
      {acc : β} (hmember : member acc name = .ok step) (hgives : Gives step text none) :
    Folded member ((name, text) :: ms) acc none

section Members

variable {β : Type} {member : β → String → Except Fault (Step β)}

/-- The name of a member, the colon and the value are read in turn. -/
theorem MemberText.read {name : String} {value text : List Char}
    (h : MemberText (name, value) text) {step : Step β} {out : Option β}
    (hgives : Gives step value out) :
    ∃ more, text = '"' :: more ∧ ∀ rest, Delimited rest → ∃ afterName afterColon,
      stringTail (more ++ rest) = .ok (name, afterName) ∧
      colon afterName = .ok ((), afterColon) ∧ step afterColon = outcome out rest := by
  obtain @⟨_, body, before, after, _, hname, hbefore, hafter⟩ := h
  refine ⟨_, rfl, fun rest hrest => ?_⟩
  refine ⟨before ++ ':' :: (after ++ (value ++ rest)), after ++ (value ++ rest), ?_, ?_,
    hgives.gives after rest hafter hrest⟩
  · have hread := stringTail_spells hname (before ++ ':' :: (after ++ (value ++ rest)))
    simpa using hread
  · unfold colon
    rw [skipSpace_append_cons hbefore (by decide)]
    simp

theorem membersLoop_outcome {ms : List (String × List Char)} {text : List Char}
    (h : Tail MemberText '\x7d' ms text) {acc : β} {out : Option β}
    (hfolded : Folded member ms acc out) {fuel : Nat} (hfuel : ms.length < fuel)
    (rest : List Char) :
    membersLoop member fuel false acc (text ++ rest) = outcome out rest := by
  induction h generalizing acc fuel with
  | close hblanks =>
    cases hfolded
    obtain ⟨fuel, rfl⟩ := Nat.exists_eq_add_of_lt hfuel
    rw [List.append_assoc, List.singleton_append, membersLoop,
      skipSpace_append_cons hblanks (by decide)]
    simp [outcome_some]
  | @next m ms blanks gap t more hblanks hgap hform hmore ih =>
    obtain ⟨fuel, rfl⟩ : ∃ n, fuel = n + 1 := ⟨fuel - 1, by omega⟩
    have hquote := skipSpace_append_cons hgap (c := '"') (by decide)
    rw [List.append_assoc, List.cons_append, membersLoop,
      skipSpace_append_cons hblanks (by decide)]
    cases hfolded with
    | next hmember hgives hrest =>
      obtain ⟨name, rfl, hread⟩ := hform.read hgives
      obtain ⟨afterName, afterColon, hname, hcolon, hstep⟩ :=
        hread (more ++ rest) (hmore.delimited (.inr rfl) rest)
      simp only [List.append_assoc, List.cons_append, hquote, Bool.false_eq_true, if_false,
        if_true, Char.reduceEq, hname, hmember, hcolon, hstep, outcome_some]
      exact ih hrest (by simpa using hfuel)
    | stop hmember hgives =>
      obtain ⟨name, rfl, hread⟩ := hform.read hgives
      obtain ⟨afterName, afterColon, hname, hcolon, hstep⟩ :=
        hread (more ++ rest) (hmore.delimited (.inr rfl) rest)
      simp only [List.append_assoc, List.cons_append, hquote, Bool.false_eq_true, if_false,
        if_true, Char.reduceEq, hname, hmember, hcolon, hstep, outcome_none]

/-- The members of an object are read one after the other. -/
theorem members_outcome {ms : List (String × List Char)} {inner : List Char}
    (h : Enclosed MemberText '\x7d' ms inner) {start : β} {out : Option β}
    (hfolded : Folded member ms start out) (rest : List Char) :
    members member start (inner ++ rest) = outcome out rest := by
  unfold members
  cases h with
  | empty hblanks =>
    cases hfolded
    rw [List.append_assoc, List.singleton_append, membersLoop,
      skipSpace_append_cons hblanks (by decide)]
    simp [outcome_some]
  | @items m ms gap t more hgap hform hmore =>
    have hfuel : ms.length < (gap ++ (t ++ more) ++ rest).length := by
      have hlength := hmore.length_lt
      simp only [List.length_append]
      omega
    have hquote := skipSpace_append_cons hgap (c := '"') (by decide)
    generalize (gap ++ (t ++ more) ++ rest).length = fuel at hfuel
    rw [List.append_assoc, List.append_assoc, membersLoop]
    cases hfolded with
    | next hmember hgives hrest =>
      obtain ⟨name, rfl, hread⟩ := hform.read hgives
      obtain ⟨afterName, afterColon, hname, hcolon, hstep⟩ :=
        hread (more ++ rest) (hmore.delimited (.inr rfl) rest)
      simp only [List.cons_append, hquote, if_false, if_true, Char.reduceEq, hname, hmember,
        hcolon, hstep, outcome_some]
      exact membersLoop_outcome hmore hrest hfuel rest
    | stop hmember hgives =>
      obtain ⟨name, rfl, hread⟩ := hform.read hgives
      obtain ⟨afterName, afterColon, hname, hcolon, hstep⟩ :=
        hread (more ++ rest) (hmore.delimited (.inr rfl) rest)
      simp only [List.cons_append, hquote, if_false, if_true, Char.reduceEq, hname, hmember,
        hcolon, hstep, outcome_none]

end Members

/-! ## Plain kinds -/

theorem StringText.reads {text : List Char} {s : String} (h : StringText s text) (depth : Nat) :
    Reads (string depth) text s := by
  obtain ⟨body, hbody, rfl⟩ := h
  refine .of_cons (by decide) (by decide) fun blanks rest _ _ hskip => ?_
  simp only [string, hskip]
  rw [List.append_assoc, List.singleton_append]
  exact stringTail_spells hbody rest

theorem NumberText.not_blank {text : List Char} {n : Number} (h : NumberText text n) :
    ∃ c cs, text = c :: cs ∧ isSpace c = false ∧ c ≠ ']' := by
  obtain ⟨c, cs, rfl, rfl | ⟨d, hd⟩⟩ := h.starts
  · exact ⟨'-', cs, rfl, by decide, by decide⟩
  · obtain ⟨hspace, hend, -⟩ := of_digit? hd
    exact ⟨c, cs, rfl, hspace, hend⟩

/-- The float that a number stands for. -/
def Number.toFloat : Number → Float
  | .int i => floatOfInt i
  | .float x => x

theorem NumberText.reads_float {text : List Char} {n : Number} (h : NumberText text n)
    (depth : Nat) : Reads (float depth) text n.toFloat where
  starts := h.not_blank
  read blanks rest hblanks hrest := by
    unfold float
    rw [h.anyNumber hblanks hrest]
    cases n <;> rfl

theorem reads_natUpTo {n bound : Nat} (hn : n ≤ bound) (hbound : bound ≤ maxSignificand)
    (depth : Nat) : Reads (natUpTo bound depth) (Decimal.natChars n) n := by
  have hnumber := numberText_natChars (Nat.le_trans hn hbound)
  refine ⟨hnumber.not_blank, fun blanks rest hblanks hrest => ?_⟩
  unfold natUpTo
  rw [hnumber.anyNumber hblanks hrest]
  simp [hn]

theorem reads_nullable_null {α : Type} (d : Decoder α) (depth : Nat) :
    Reads (nullable d depth) "null".toList none := by
  refine .of_cons (by decide) (by decide) fun blanks rest _ _ hskip => ?_
  simp only [nullable, hskip]
  rfl

/-- A text that is not `null` is read as the value it stands for. -/
theorem Gives.nullable {α : Type} {d : Decoder α} {depth : Nat} {text : List Char}
    {out : Option α} (h : Gives (d depth) text out) (hnull : text.head? ≠ some 'n') :
    Gives (nullable d depth) text (out.map some) := by
  obtain ⟨c, cs, rfl, hspace, hend⟩ := h.starts
  refine .of_cons hspace hend fun blanks rest _ hrest hskip => ?_
  have hn : c ≠ 'n' := by simpa using hnull
  have hgives := h.gives [] rest (by simp [Blank]) hrest
  rw [List.nil_append, List.cons_append] at hgives
  simp only [Json.nullable, hskip]
  split
  next hchars => exact absurd (List.cons.inj hchars).1 hn
  · rw [hgives]
    cases out <;> rfl

theorem ArrayText.gives {α : Type} {d : Decoder α} {depth : Nat} {texts : List (List Char)}
    {text : List Char} (h : ArrayText texts text) {outs : List (Option α)}
    (hitems : List.Forall₂ (Gives (d depth)) texts outs) :
    Gives (list d (depth + 1)) text (gathered outs) := by
  obtain ⟨h⟩ := h
  refine .of_cons (by decide) (by decide) fun blanks rest _ _ hskip => ?_
  simp only [list, hskip, items_outcome h hitems rest]

/-- An object gives what is made of the draft behind its members. -/
theorem ObjectText.gives {δ α : Type} {fields : List (Member δ)} {depth : Nat}
    {ms : List (String × List Char)} {text : List Char}
    (h : ObjectText ms text) {start : δ} {out : Option δ} {finish : δ → Except Fault α}
    {result : Option α} (hfolded : Folded (recordMember fields depth) ms start out)
    (hfinish : ∀ draft, out = some draft → finish draft = verdict result)
    (hnone : out = none → result = none) :
    Gives (record fields start finish (depth + 1)) text result := by
  obtain ⟨h⟩ := h
  refine .of_cons (by decide) (by decide) fun blanks rest _ _ hskip => ?_
  simp only [record, hskip, members_outcome h hfolded rest]
  cases out with
  | none => rw [hnone rfl, outcome_none, outcome_none]
  | some draft =>
    simp only [outcome_some, hfinish draft rfl]
    cases result <;> rfl

/-! ## Free-form values -/

/-- The text stands for the value, and opens no more containers within each other than the
depth allows.  The members of an object are put in order, and the last of equal names
counts. -/
inductive Denotes : Nat → List Char → Value → Prop
  | null {depth : Nat} : Denotes depth "null".toList .null
  | bool {depth : Nat} (b : Bool) : Denotes depth (if b then "true" else "false").toList (.bool b)
  | number {depth : Nat} {text : List Char} {n : Number} (h : NumberText text n) :
    Denotes depth text n.toValue
  | string {depth : Nat} {text : List Char} {s : String} (h : StringText s text) :
    Denotes depth text (.string s)
  | array {depth : Nat} {items : List (List Char × Value)} {text : List Char}
      (h : ArrayText (items.map Prod.fst) text) (hitems : ∀ i ∈ items, Denotes depth i.1 i.2) :
    Denotes (depth + 1) text (.array (items.map Prod.snd))
  | object {depth : Nat} {ms : List (String × List Char × Value)} {text : List Char}
      (h : ObjectText (ms.map fun m => (m.1, m.2.1)) text)
      (hmembers : ∀ m ∈ ms, Denotes depth m.2.1 m.2.2) :
    Denotes (depth + 1) text (.object (sortMembers (ms.map fun m => (m.1, m.2.2))))

theorem NumberText.reads_value {text : List Char} {n : Number} (h : NumberText text n)
    (depth : Nat) : Reads (value depth) text n.toValue where
  starts := h.not_blank
  read blanks rest hblanks hrest := by
    cases h with
    | unsigned h =>
      have hread := number_local false h hrest
      obtain ⟨c, cs, d, rfl, hd⟩ := exists_digit_of_number h
      obtain ⟨hspace, -, hminus⟩ := of_digit? hd
      obtain ⟨hn, ht, hf, hquote, hbracket, hbrace⟩ := ne_of_digit? hd
      rw [List.cons_append, List.nil_append] at hread
      unfold value
      rw [List.cons_append, skipSpace_append_cons hblanks hspace]
      simp [hd, numberValue, hread]
    | negative h =>
      have hread := number_local true h hrest
      unfold value
      rw [List.cons_append, skipSpace_append_cons hblanks (by decide)]
      simp [numberValue, hread]

theorem StringText.reads_value {text : List Char} {s : String} (h : StringText s text)
    (depth : Nat) : Reads (value depth) text (.string s) := by
  obtain ⟨body, hbody, rfl⟩ := h
  refine .of_cons (by decide) (by decide) fun blanks rest _ _ hskip => ?_
  unfold value
  simp only [hskip]
  rw [List.append_assoc, List.singleton_append, stringTail_spells hbody rest]

theorem reads_value_null (depth : Nat) : Reads (value depth) "null".toList .null := by
  refine .of_cons (by decide) (by decide) fun blanks rest _ _ hskip => ?_
  unfold value
  simp only [hskip]
  rfl

theorem reads_value_bool (depth : Nat) (b : Bool) :
    Reads (value depth) (if b then "true" else "false").toList (.bool b) := by
  cases b with
  | true =>
    show Reads (value depth) ['t', 'r', 'u', 'e'] (.bool true)
    refine .of_cons (by decide) (by decide) fun blanks rest _ _ hskip => ?_
    unfold value
    simp only [hskip]
    rfl
  | false =>
    refine .of_cons (by decide) (by decide) fun blanks rest _ _ hskip => ?_
    unfold value
    simp only [hskip]
    rfl

/-- The items of a list that are all read. -/
theorem items_reads {α : Type} {item : Step α} {pairs : List (List Char × α)}
    {inner : List Char} (h : Enclosed Eq ']' (pairs.map Prod.fst) inner)
    (hitems : ∀ p ∈ pairs, Reads item p.1 p.2) (rest : List Char) :
    items item (inner ++ rest) = .ok (pairs.map Prod.snd, rest) := by
  have hgives : List.Forall₂ (Gives item) (pairs.map Prod.fst)
      ((pairs.map Prod.snd).map some) := by
    rw [List.map_map, List.forall₂_map_left_iff, List.forall₂_map_right_iff]
    exact List.forall₂_same.mpr fun p hp => (hitems p hp).gives
  rw [items_outcome h hgives, gathered_map_some, outcome_some]

/-- The members of a free-form object are put into their places. -/
theorem folded_freeMember {step : Step Value} (ms : List (String × List Char × Value))
    (h : ∀ m ∈ ms, Reads step m.2.1 m.2.2) (acc : List (String × Value)) :
    Folded (freeMember step) (ms.map fun m => (m.1, m.2.1)) acc
      (some ((ms.map fun m => (m.1, m.2.2)).foldl
        (fun acc m => insertMember m.1 m.2 acc) acc)) := by
  induction ms generalizing acc with
  | nil => exact .nil acc
  | cons m ms ih =>
    have hm := h m List.mem_cons_self
    refine .next rfl (Reads.gives ⟨hm.starts, fun blanks rest hblanks hrest => ?_⟩)
      (ih (fun m' hm' => h m' (List.mem_cons_of_mem m hm')) _)
    simp [hm.read blanks rest hblanks hrest]

theorem members_free {step : Step Value} {ms : List (String × List Char × Value)}
    {inner : List Char} (h : Enclosed MemberText '\x7d' (ms.map fun m => (m.1, m.2.1)) inner)
    (hmembers : ∀ m ∈ ms, Reads step m.2.1 m.2.2) (rest : List Char) :
    members (freeMember step) [] (inner ++ rest) =
      .ok (sortMembers (ms.map fun m => (m.1, m.2.2)), rest) := by
  rw [members_outcome h (folded_freeMember ms hmembers []), outcome_some, sortMembers]

theorem ArrayText.reads_value {depth : Nat} {items : List (List Char × Value)}
    {text : List Char} (h : ArrayText (items.map Prod.fst) text)
    (hitems : ∀ i ∈ items, Reads (value depth) i.1 i.2) :
    Reads (value (depth + 1)) text (.array (items.map Prod.snd)) := by
  obtain ⟨h⟩ := h
  refine .of_cons (by decide) (by decide) fun blanks rest _ _ hskip => ?_
  unfold value
  simp only [hskip, items_reads h hitems rest]

theorem ObjectText.reads_value {depth : Nat} {ms : List (String × List Char × Value)}
    {text : List Char} (h : ObjectText (ms.map fun m => (m.1, m.2.1)) text)
    (hmembers : ∀ m ∈ ms, Reads (value depth) m.2.1 m.2.2) :
    Reads (value (depth + 1)) text (.object (sortMembers (ms.map fun m => (m.1, m.2.2)))) := by
  obtain ⟨h⟩ := h
  refine .of_cons (by decide) (by decide) fun blanks rest _ _ hskip => ?_
  unfold value
  simp only [hskip, members_free h hmembers rest]

/-- A value is read from any text that stands for it, at a depth that the text keeps to. -/
theorem Denotes.reads {depth : Nat} {text : List Char} {v : Value} (h : Denotes depth text v) :
    Reads (value depth) text v := by
  induction h with
  | null => exact reads_value_null _
  | bool b => exact reads_value_bool _ b
  | number h => exact h.reads_value _
  | string h => exact h.reads_value _
  | array h _ ih => exact h.reads_value ih
  | object h _ ih => exact h.reads_value ih

/-- A free-form object is read from any text that stands for it. -/
theorem Denotes.reads_freeObject {depth : Nat} {text : List Char} {ms : List (String × Value)}
    (h : Denotes depth text (.object ms)) : Reads (freeObject depth) text ms := by
  generalize hv : Value.object ms = v at h
  cases h with
  | object h hmembers =>
    obtain rfl := Value.object.inj hv
    obtain ⟨h⟩ := h
    refine .of_cons (by decide) (by decide) fun blanks rest _ _ hskip => ?_
    simp only [freeObject, hskip, members_free h (fun m hm => (hmembers m hm).reads) rest]
  | @number _ _ n h => cases n <;> cases hv
  | null => cases hv
  | bool b => cases hv
  | string h => cases hv
  | array h hitems => cases hv

end LintRelay.Json
