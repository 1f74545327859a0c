import LintRelay.Glob.Matcher
set_option autoImplicit false

/-!
# What globs stand for

The matcher carries sets of rests from token to token.  Here globs get a meaning without any
order of work: a token stands for stretches of bytes, and a list of tokens for the
concatenations of what its tokens stand for.  `isMatch_iff` says that this is what the matcher
decides.  The rests that a function of the matcher gives are described by what was taken in
front of them, function by function.
-/

namespace LintRelay.Glob

open LintRelay.Text (Bytes)

/-! ## Meaning -/

mutual

/-- The token stands for a stretch of bytes. -/
def Token.Takes (scope : Scope) : Token → Bytes → Prop
  | .literal c, taken => taken = String.utf8EncodeChar c
  | .any, taken => ∃ b, scope.admits b = true ∧ taken = [b]
  | .zeroOrMore, taken => ∀ b ∈ taken, scope.admits b = true
  | .leadingSegments, taken => taken = [] ∨ ∃ front, taken = front ++ [slash]
  | .trailingSegments, taken => ∃ rest, taken = slash :: rest
  | .innerSegments, taken => ∃ front, taken = slash :: front ∧
      (front = [] ∨ ∃ names, front = names ++ [slash])
  | .charClass negated ranges, taken => ∃ b, (inClass ranges b != negated) = true ∧ taken = [b]
  | .choice branches, taken =>
    allVoid branches = true ∧ taken = [] ∨ SomeStands scope branches taken

/-- The tokens, one behind the other, stand for bytes. -/
def Stands (scope : Scope) : List Token → Bytes → Prop
  | [], bytes => bytes = []
  | t :: more, bytes =>
    ∃ taken rest, bytes = taken ++ rest ∧ t.Takes scope taken ∧ Stands scope more rest

/-- One of the branches stands for bytes; void branches stand for nothing. -/
def SomeStands (scope : Scope) : List (List Token) → Bytes → Prop
  | [], _ => False
  | b :: more, bytes =>
    isVoidBranch b = false ∧ Stands scope b bytes ∨ SomeStands scope more bytes

end

theorem stands_append_iff {scope : Scope} {front back : List Token} {bytes : Bytes} :
    Stands scope (front ++ back) bytes ↔
      ∃ taken rest, bytes = taken ++ rest ∧ Stands scope front taken ∧ Stands scope back rest := by
  induction front generalizing bytes with
  | nil =>
    constructor
    · intro hback
      exact ⟨[], bytes, rfl, rfl, hback⟩
    · rintro ⟨_, rest, rfl, rfl, hback⟩
      exact hback
  | cons t more ih =>
    simp only [List.cons_append, Stands, ih]
    constructor
    · rintro ⟨first, _, rfl, htakes, second, rest, rfl, hmore, hback⟩
      exact ⟨first ++ second, rest, by simp, ⟨first, second, rfl, htakes, hmore⟩, hback⟩
    · rintro ⟨_, rest, rfl, ⟨first, second, rfl, htakes, hmore⟩, hback⟩
      exact ⟨first, second ++ rest, by simp, htakes, second, rest, rfl, hmore, hback⟩

/-! ## Rests -/

theorem mem_suffixes {bytes rest : Bytes} :
    rest ∈ suffixes bytes ↔ ∃ taken, bytes = taken ++ rest := by
  induction bytes with
  | nil => simp [suffixes]
  | cons b more ih =>
    rw [suffixes, List.mem_cons, ih]
    constructor
    · rintro (rfl | ⟨taken, rfl⟩)
      · exact ⟨[], rfl⟩
      · exact ⟨b :: taken, rfl⟩
    · rintro ⟨taken, htaken⟩
      cases taken with
      | nil => exact .inl htaken.symm
      | cons x taken => exact .inr ⟨taken, (List.cons.inj htaken).2⟩

theorem mem_afterRun {admits : UInt8 → Bool} {bytes rest : Bytes} :
    rest ∈ afterRun admits bytes ↔
      ∃ taken, bytes = taken ++ rest ∧ ∀ b ∈ taken, admits b = true := by
  induction bytes with
  | nil =>
    constructor
    · intro h
      obtain rfl := List.mem_singleton.mp h
      exact ⟨[], rfl, by simp⟩
    · rintro ⟨taken, htaken, -⟩
      obtain ⟨-, rfl⟩ := List.append_eq_nil_iff.mp htaken.symm
      exact List.mem_singleton.mpr rfl
  | cons b more ih =>
    rw [afterRun, List.mem_cons]
    constructor
    · rintro (rfl | h)
      · exact ⟨[], rfl, by simp⟩
      · split at h
        · rename_i hb
          obtain ⟨taken, rfl, htaken⟩ := ih.mp h
          exact ⟨b :: taken, rfl, List.forall_mem_cons.mpr ⟨hb, htaken⟩⟩
        · cases h
    · rintro ⟨taken, htaken, hall⟩
      cases taken with
      | nil => exact .inl htaken.symm
      | cons x taken =>
        obtain ⟨rfl, rfl⟩ := List.cons.inj htaken
        obtain ⟨hb, hmore⟩ := List.forall_mem_cons.mp hall
        rw [if_pos hb]
        exact .inr (ih.mpr ⟨taken, rfl, hmore⟩)

theorem mem_afterSlashes {bytes rest : Bytes} :
    rest ∈ afterSlashes bytes ↔ ∃ front, bytes = front ++ slash :: rest := by
  induction bytes with
  | nil => simp [afterSlashes]
  | cons b more ih =>
    rw [afterSlashes, List.mem_append, ih]
    constructor
    · rintro (h | ⟨front, rfl⟩)
      · split at h
        · rename_i hb
          obtain rfl := List.mem_singleton.mp h
          exact ⟨[], by rw [eq_of_beq hb]; rfl⟩
        · cases h
      · exact ⟨b :: front, rfl⟩
    · rintro ⟨front, hfront⟩
      cases front with
      | nil =>
        obtain ⟨rfl, rfl⟩ := List.cons.inj hfront
        exact .inl (by simp)
      | cons x front => exact .inr ⟨front, (List.cons.inj hfront).2⟩

/-- Nothing, or all up to a slash. -/
theorem mem_cons_afterSlashes {bytes rest : Bytes} :
    rest ∈ bytes :: afterSlashes bytes ↔
      ∃ taken, bytes = taken ++ rest ∧ (taken = [] ∨ ∃ front, taken = front ++ [slash]) := by
  rw [List.mem_cons, mem_afterSlashes]
  constructor
  · rintro (rfl | ⟨front, rfl⟩)
    · exact ⟨[], rfl, .inl rfl⟩
    · exact ⟨front ++ [slash], by simp, .inr ⟨front, rfl⟩⟩
  · rintro ⟨_, hbytes, rfl | ⟨front, rfl⟩⟩
    · exact .inl hbytes.symm
    · exact .inr ⟨front, by simpa using hbytes⟩

theorem mem_afterPrefix {front bytes rest : Bytes} :
    rest ∈ afterPrefix front bytes ↔ bytes = front ++ rest := by
  induction front generalizing bytes with
  | nil => simp [afterPrefix, eq_comm]
  | cons p ps ih =>
    cases bytes with
    | nil => simp [afterPrefix]
    | cons b bytes =>
      by_cases hp : p = b
      · simp [afterPrefix, hp, ih]
      · simp [afterPrefix, hp, Ne.symm hp]

theorem mem_afterByte {admits : UInt8 → Bool} {bytes rest : Bytes} :
    rest ∈ afterByte admits bytes ↔
      ∃ taken, bytes = taken ++ rest ∧ ∃ b, admits b = true ∧ taken = [b] := by
  constructor
  · intro h
    cases bytes with
    | nil => cases h
    | cons b more =>
      rw [afterByte] at h
      split at h
      · rename_i hb
        obtain rfl := List.mem_singleton.mp h
        exact ⟨[b], rfl, b, hb, rfl⟩
      · cases h
  · rintro ⟨_, rfl, b, hb, rfl⟩
    simp [afterByte, hb]

/-! ## Matching -/

theorem mem_rests_trailingSegments {scope : Scope} {bytes rest : Bytes} :
    rest ∈ Token.trailingSegments.rests scope bytes ↔
      ∃ more, bytes = slash :: more ∧ rest ∈ suffixes more := by
  cases bytes with
  | nil => simp [Token.rests]
  | cons b more => by_cases hb : b = slash <;> simp [Token.rests, hb]

theorem mem_rests_innerSegments {scope : Scope} {bytes rest : Bytes} :
    rest ∈ Token.innerSegments.rests scope bytes ↔
      ∃ more, bytes = slash :: more ∧ rest ∈ more :: afterSlashes more := by
  cases bytes with
  | nil => simp [Token.rests]
  | cons b more => by_cases hb : b = slash <;> simp [Token.rests, hb]

/-- Branches that are all void stand for nothing. -/
theorem not_someStands_of_allVoid {scope : Scope} {branches : List (List Token)}
    (h : allVoid branches = true) (bytes : Bytes) : ¬ SomeStands scope branches bytes := by
  induction branches with
  | nil => exact id
  | cons b more ih =>
    obtain ⟨hb, hmore⟩ := (Bool.and_eq_true _ _).mp h
    rintro (⟨hfull, -⟩ | hstands)
    · cases hfull.symm.trans hb
    · exact ih hmore hstands

mutual

/-- What a token leaves is what stands behind a stretch that it stands for. -/
theorem Token.mem_rests_iff (scope : Scope) (t : Token) {bytes rest : Bytes} :
    rest ∈ t.rests scope bytes ↔ ∃ taken, bytes = taken ++ rest ∧ t.Takes scope taken := by
  cases t with
  | literal c => simp [Token.rests, Token.Takes, mem_afterPrefix]
  | any => simp only [Token.rests, Token.Takes, mem_afterByte]
  | zeroOrMore => simp only [Token.rests, Token.Takes, mem_afterRun]
  | leadingSegments => simp only [Token.rests, Token.Takes, mem_cons_afterSlashes]
  | trailingSegments =>
    simp only [mem_rests_trailingSegments, Token.Takes, mem_suffixes]
    constructor
    · rintro ⟨_, rfl, taken, rfl⟩
      exact ⟨slash :: taken, rfl, taken, rfl⟩
    · rintro ⟨_, rfl, taken, rfl⟩
      exact ⟨taken ++ rest, rfl, taken, rfl⟩
  | innerSegments =>
    simp only [mem_rests_innerSegments, Token.Takes, mem_cons_afterSlashes]
    constructor
    · rintro ⟨_, rfl, front, rfl, hfront⟩
      exact ⟨slash :: front, rfl, front, rfl, hfront⟩
    · rintro ⟨_, rfl, front, rfl, hfront⟩
      exact ⟨front ++ rest, rfl, front, rfl, hfront⟩
  | charClass negated ranges => simp only [Token.rests, Token.Takes, mem_afterByte]
  | choice branches =>
    simp only [Token.rests, Token.Takes]
    split
    · rename_i hvoid
      simp [hvoid, not_someStands_of_allVoid hvoid, eq_comm]
    · rename_i hfull
      simp [hfull, List.mem_eraseDups, mem_branchRests_iff scope branches]

theorem mem_restsOf_iff (scope : Scope) (tokens : List Token) {rests : List Bytes}
    {rest : Bytes} :
    rest ∈ restsOf scope tokens rests ↔
      ∃ taken, taken ++ rest ∈ rests ∧ Stands scope tokens taken := by
  cases tokens with
  | nil => simp [restsOf, Stands]
  | cons t more =>
    rw [restsOf, mem_restsOf_iff scope more]
    simp only [List.mem_eraseDups, List.mem_flatMap, t.mem_rests_iff scope, Stands]
    constructor
    · rintro ⟨second, ⟨_, hstart, first, rfl, htakes⟩, hmore⟩
      exact ⟨first ++ second, by simpa using hstart, first, second, rfl, htakes, hmore⟩
    · rintro ⟨_, hstart, first, second, rfl, htakes, hmore⟩
      exact ⟨second, ⟨_, hstart, first, by simp, htakes⟩, hmore⟩

theorem mem_branchRests_iff (scope : Scope) (branches : List (List Token))
    {bytes rest : Bytes} :
    rest ∈ branchRests scope branches bytes ↔
      ∃ taken, bytes = taken ++ rest ∧ SomeStands scope branches taken := by
  cases branches with
  | nil => simp [branchRests, SomeStands]
  | cons b more =>
    have hfirst : rest ∈ (if isVoidBranch b then [] else restsOf scope b [bytes]) ↔
        ∃ taken, bytes = taken ++ rest ∧ isVoidBranch b = false ∧ Stands scope b taken := by
      cases isVoidBranch b with
      | true => simp
      | false => simp [mem_restsOf_iff scope b, eq_comm]
    rw [branchRests, List.mem_append, hfirst, mem_branchRests_iff scope more]
    simp only [SomeStands, and_or_left, exists_or]

end

/-- The matcher decides what globs stand for. -/
theorem isMatch_iff {scope : Scope} {tokens : List Token} {bytes : Bytes} :
    isMatch scope tokens bytes = true ↔
      isEverything tokens = true ∨ Stands scope tokens bytes := by
  rw [isMatch, Bool.or_eq_true, List.contains_iff_mem, mem_restsOf_iff]
  simp

end LintRelay.Glob
