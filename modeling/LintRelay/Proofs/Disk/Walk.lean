import LintRelay.Disk.Walk
import LintRelay.Proofs.Disk.Files
import LintRelay.Proofs.Path.Normal
set_option autoImplicit false

/-!
# Disk: what a walk lists

In a tree without links a walk depends on nothing but the tree below its root.  `listing` gives
the locations that it comes to, and the entries of the walk are those of the listing
(`walkBelow_of_plain`).  The locations come in increasing order (`pairwise_listing`), and a
location is listed when every directory on the way to it is entered (`mem_listing_iff`).
-/

namespace LintRelay.Disk

namespace Node

/-! ## Plain trees -/

/-- A name as an entry of a directory can have it. -/
def ProperName (name : String) : Prop := (Path.Component.name name.toList).Proper

mutual

/-- The tree has no links, and the names in each directory are proper and different. -/
def Plain : Node → Prop
  | .file _ => True
  | .link _ => False
  | .dir es => (es.map Prod.fst).Nodup ∧ PlainEntries es

/-- The entries have proper names, and the trees below them are plain. -/
def PlainEntries : List (String × Node) → Prop
  | [] => True
  | (name, n) :: rest => ProperName name ∧ n.Plain ∧ PlainEntries rest

end

theorem plainEntries_iff {es : List (String × Node)} :
    PlainEntries es ↔ ∀ e ∈ es, ProperName e.1 ∧ e.2.Plain := by
  induction es with
  | nil => simp [PlainEntries]
  | cons e es ih => simp [PlainEntries, ih, and_assoc]

theorem Plain.nodup_entries {n : Node} (h : n.Plain) : (n.entries.map Prod.fst).Nodup := by
  cases n with
  | file bytes => exact List.nodup_nil
  | link target => exact List.nodup_nil
  | dir es => exact h.1

theorem Plain.of_mem_entries {n : Node} (h : n.Plain) {e : String × Node} (he : e ∈ n.entries) :
    ProperName e.1 ∧ e.2.Plain := by
  cases n with
  | file bytes => cases he
  | link target => cases he
  | dir es => exact plainEntries_iff.mp h.2 e he

theorem mem_of_lookup {es : List (String × Node)} {name : String} {c : Node}
    (h : lookup name es = some c) : (name, c) ∈ es := by
  induction es with
  | nil => cases h
  | cons e es ih =>
    by_cases hname : e.1 = name
    · simp only [lookup, hname, if_true, Option.some.injEq] at h
      exact List.mem_cons.mpr (.inl (by rw [← hname, ← h]))
    · simp only [lookup, hname, if_false] at h
      exact List.mem_cons_of_mem e (ih h)

theorem lookup_of_mem {es : List (String × Node)} (hnames : (es.map Prod.fst).Nodup)
    {name : String} {c : Node} (h : (name, c) ∈ es) : lookup name es = some c := by
  induction es with
  | nil => cases h
  | cons e es ih =>
    rw [List.map_cons, List.nodup_cons] at hnames
    rcases List.mem_cons.mp h with rfl | hrest
    · simp [lookup]
    · have hname : e.1 ≠ name := fun heq => hnames.1 (heq ▸ List.mem_map_of_mem hrest)
      rw [lookup, if_neg hname]
      exact ih hnames.2 hrest

theorem Plain.child?_eq_some_iff {n : Node} (h : n.Plain) {name : String} {c : Node} :
    n.child? name = some c ↔ (name, c) ∈ n.entries :=
  ⟨mem_of_lookup, lookup_of_mem h.nodup_entries⟩

theorem Plain.child {n : Node} (h : n.Plain) {name : String} {c : Node}
    (hchild : n.child? name = some c) : ProperName name ∧ c.Plain :=
  h.of_mem_entries (h.child?_eq_some_iff.mp hchild)

theorem Plain.properNames {n c : Node} (h : n.Plain) {rel : Location}
    (hfind : n.find? rel = some c) : ∀ name ∈ rel, ProperName name := by
  induction rel generalizing n with
  | nil => exact List.forall_mem_nil _
  | cons name rest ih =>
    rw [find?_cons] at hfind
    obtain ⟨child, hchild, hrest⟩ := Option.bind_eq_some_iff.mp hfind
    exact List.forall_mem_cons.mpr ⟨(h.child hchild).1, ih (h.child hchild).2 hrest⟩

/-! ## Numbers of nodes -/

theorem count_le_countEntries {es : List (String × Node)} {e : String × Node} (he : e ∈ es) :
    e.2.count ≤ countEntries es := by
  induction es with
  | nil => cases he
  | cons first rest ih =>
    rw [countEntries]
    rcases List.mem_cons.mp he with rfl | he
    · exact Nat.le_add_right _ _
    · exact Nat.le_add_left_of_le (ih he)

theorem count_lt_of_mem_entries {n : Node} {e : String × Node} (he : e ∈ n.entries) :
    e.2.count < n.count := by
  cases n with
  | file bytes => cases he
  | link target => cases he
  | dir es =>
    have hle : e.2.count ≤ countEntries es := count_le_countEntries he
    rw [count]
    omega

theorem count_le_of_find? {n c : Node} {l : Location} (h : n.find? l = some c) :
    c.count ≤ n.count := by
  induction l generalizing n with
  | nil =>
    obtain rfl := Option.some.inj h
    exact Nat.le_refl _
  | cons name rest ih =>
    rw [find?_cons] at h
    obtain ⟨child, hchild, hrest⟩ := Option.bind_eq_some_iff.mp h
    exact (ih hrest).trans (Nat.le_of_lt (count_lt_of_mem_entries (mem_of_lookup hchild)))

/-! ## Locations that a walk comes to -/

/-- The locations that one entry of a directory contributes, when those below it are known. -/
def listingAt (enters : String → Bool) (below : List Location) (e : String × Node) :
    List Location :=
  if e.2.isDir then if enters e.1 then [e.1] :: below.map (e.1 :: ·) else [] else [[e.1]]

/-- The locations below a node, depth first, without the directories that are not entered and
all below them. -/
def listing (enters : String → Bool) : Nat → Node → List Location
  | 0, _ => []
  | fuel + 1, n =>
    (sortEntries n.entries).flatMap fun e => listingAt enters (listing enters fuel e.2) e

/-- The location is there, and every directory on the way to it, and at its end, is entered. -/
def Open (enters : String → Bool) : Node → Location → Prop
  | _, [] => True
  | n, name :: rest =>
    ∃ c, n.child? name = some c ∧ (c.isDir = true → enters name = true) ∧ Open enters c rest

theorem mem_sortEntries {e : String × Node} {es : List (String × Node)} :
    e ∈ sortEntries es ↔ e ∈ es :=
  List.mem_mergeSort

theorem pairwise_sortEntries {es : List (String × Node)} (h : (es.map Prod.fst).Nodup) :
    (sortEntries es).Pairwise fun a b => a.1 < b.1 := by
  have hsorted : (sortEntries es).Pairwise fun a b => (!decide (b.1 < a.1)) = true := by
    refine List.pairwise_mergeSort ?_ ?_ es
    · intro a b c hab hbc
      simp only [Bool.not_eq_true', decide_eq_false_iff_not, String.not_lt] at hab hbc ⊢
      exact String.le_trans hab hbc
    · intro a b
      simp only [Bool.or_eq_true, Bool.not_eq_true', decide_eq_false_iff_not, String.not_lt]
      exact String.le_total a.1 b.1
  have hdistinct : (sortEntries es).Pairwise fun a b => a.1 ≠ b.1 :=
    List.pairwise_map.mp (((List.mergeSort_perm es _).map Prod.fst).nodup_iff.mpr h)
  refine (hsorted.and hdistinct).imp ?_
  rintro a b ⟨hle, hne⟩
  simp only [Bool.not_eq_true', decide_eq_false_iff_not, String.not_lt] at hle
  exact String.not_le.mp fun hge => hne (String.le_antisymm hle hge)

theorem mem_listingAt_iff {enters : String → Bool} {below : List Location} {e : String × Node}
    {rel : Location} :
    rel ∈ listingAt enters below e ↔
      (e.2.isDir = true → enters e.1 = true) ∧
        (rel = [e.1] ∨ e.2.isDir = true ∧ ∃ rest ∈ below, rel = e.1 :: rest) := by
  unfold listingAt
  split_ifs with hdir henters
  · simp [hdir, henters, eq_comm]
  · simp [hdir, henters]
  · simp [hdir]

theorem exists_cons_of_mem_listingAt {enters : String → Bool} {below : List Location}
    {e : String × Node} {rel : Location} (h : rel ∈ listingAt enters below e) :
    ∃ rest, rel = e.1 :: rest := by
  rcases (mem_listingAt_iff.mp h).2 with rfl | ⟨-, rest, -, rfl⟩
  · exact ⟨[], rfl⟩
  · exact ⟨rest, rfl⟩

theorem pairwise_listingAt {enters : String → Bool} {below : List Location}
    (hbelow : below.Pairwise (· < ·)) (hne : [] ∉ below) (e : String × Node) :
    (listingAt enters below e).Pairwise (· < ·) := by
  unfold listingAt
  split_ifs
  · rw [List.pairwise_cons, List.pairwise_map]
    constructor
    · intro rel hrel
      obtain ⟨rest, hrest, rfl⟩ := List.mem_map.mp hrel
      obtain ⟨name, more, rfl⟩ := List.exists_cons_of_ne_nil (ne_of_mem_of_not_mem hrest hne)
      exact List.cons_lt_cons_iff.mpr (.inr ⟨rfl, List.nil_lt_cons name more⟩)
    · exact hbelow.imp fun h => List.cons_lt_cons_iff.mpr (.inr ⟨rfl, h⟩)
  · exact List.Pairwise.nil
  · exact List.pairwise_singleton _ _

theorem nil_notMem_listing (enters : String → Bool) (fuel : Nat) (n : Node) :
    [] ∉ listing enters fuel n := by
  cases fuel with
  | zero => exact List.not_mem_nil
  | succ fuel =>
    intro h
    obtain ⟨e, -, hrel⟩ := List.mem_flatMap.mp h
    obtain ⟨rest, hrest⟩ := exists_cons_of_mem_listingAt hrel
    cases hrest

/-- Locations are listed in increasing order, compared name by name. -/
theorem pairwise_listing (enters : String → Bool) (fuel : Nat) {n : Node} (h : n.Plain) :
    (listing enters fuel n).Pairwise (· < ·) := by
  induction fuel generalizing n with
  | zero => exact List.Pairwise.nil
  | succ fuel ih =>
    rw [listing, List.pairwise_flatMap]
    constructor
    · intro e he
      have hplain : e.2.Plain := (h.of_mem_entries (mem_sortEntries.mp he)).2
      exact pairwise_listingAt (ih hplain) (nil_notMem_listing enters fuel e.2) e
    · refine (pairwise_sortEntries h.nodup_entries).imp fun {a b} hab => ?_
      intro x hx y hy
      obtain ⟨x', rfl⟩ := exists_cons_of_mem_listingAt hx
      obtain ⟨y', rfl⟩ := exists_cons_of_mem_listingAt hy
      exact List.cons_lt_cons_iff.mpr (.inl hab)

theorem not_open_cons {enters : String → Bool} {n : Node} (h : n.isDir = false)
    (name : String) (rest : Location) : ¬ Open enters n (name :: rest) := by
  rintro ⟨c, hchild, -⟩
  cases n with
  | dir es => cases h
  | file bytes => cases hchild
  | link target => cases hchild

theorem Open.exists_find? {enters : String → Bool} {n : Node} {rel : Location}
    (h : Open enters n rel) : ∃ c, n.find? rel = some c := by
  induction rel generalizing n with
  | nil => exact ⟨n, rfl⟩
  | cons name rest ih =>
    obtain ⟨c, hchild, -, hrest⟩ := h
    rw [find?_cons, hchild, Option.bind_some]
    exact ih hrest

/-- With enough fuel, the listing has every location that can be reached. -/
theorem mem_listing_iff {enters : String → Bool} {fuel : Nat} {n : Node} (h : n.Plain)
    (hfuel : n.count ≤ fuel) {rel : Location} :
    rel ∈ listing enters fuel n ↔ rel ≠ [] ∧ Open enters n rel := by
  induction fuel generalizing n rel with
  | zero => cases n <;> simp [count] at hfuel
  | succ fuel ih =>
    rw [listing, List.mem_flatMap]
    constructor
    · rintro ⟨e, he, hrel⟩
      have hmem : e ∈ n.entries := mem_sortEntries.mp he
      have hchild : n.child? e.1 = some e.2 := h.child?_eq_some_iff.mpr hmem
      obtain ⟨henters, rfl | ⟨-, rest, hrest, rfl⟩⟩ := mem_listingAt_iff.mp hrel
      · exact ⟨List.cons_ne_nil _ _, e.2, hchild, henters, trivial⟩
      · have hless := count_lt_of_mem_entries hmem
        have hopen := (ih (h.of_mem_entries hmem).2 (by omega)).mp hrest
        exact ⟨List.cons_ne_nil _ _, e.2, hchild, henters, hopen.2⟩
    · rintro ⟨hne, hopen⟩
      obtain ⟨name, rest, rfl⟩ := List.exists_cons_of_ne_nil hne
      obtain ⟨c, hchild, henters, hrest⟩ := hopen
      have hmem : (name, c) ∈ n.entries := h.child?_eq_some_iff.mp hchild
      refine ⟨(name, c), mem_sortEntries.mpr hmem, mem_listingAt_iff.mpr ⟨henters, ?_⟩⟩
      cases rest with
      | nil => exact .inl rfl
      | cons next more =>
        have hdir : c.isDir = true := by
          by_contra hfile
          exact not_open_cons (by simpa using hfile) next more hrest
        have hless : c.count < n.count := count_lt_of_mem_entries hmem
        have hlisted : next :: more ∈ listing enters fuel c :=
          (ih (h.child hchild).2 (by omega)).mpr ⟨List.cons_ne_nil _ _, hrest⟩
        exact .inr ⟨hdir, _, hlisted, rfl⟩

/-- Together with the node itself, the listing is of all that can be reached. -/
theorem mem_cons_listing_iff {enters : String → Bool} {fuel : Nat} {n : Node} (h : n.Plain)
    (hfuel : n.count ≤ fuel) {rel : Location} :
    rel ∈ [] :: listing enters fuel n ↔ Open enters n rel := by
  rw [List.mem_cons, mem_listing_iff h hfuel]
  by_cases hnil : rel = []
  · simp [hnil, Open]
  · simp [hnil]

theorem pairwise_cons_listing (enters : String → Bool) (fuel : Nat) {n : Node} (h : n.Plain) :
    ([] :: listing enters fuel n).Pairwise (· < ·) := by
  refine List.pairwise_cons.mpr ⟨fun rel hrel => ?_, pairwise_listing enters fuel h⟩
  have hne : rel ≠ [] := ne_of_mem_of_not_mem hrel (nil_notMem_listing enters fuel n)
  obtain ⟨name, rest, rfl⟩ := List.exists_cons_of_ne_nil hne
  exact List.nil_lt_cons name rest

theorem listing_of_not_isDir {n : Node} (h : n.isDir = false) (enters : String → Bool)
    (fuel : Nat) : listing enters fuel n = [] := by
  cases fuel with
  | zero => rfl
  | succ fuel =>
    cases n with
    | dir es => cases h
    | file bytes => simp [listing, entries, sortEntries]
    | link target => simp [listing, entries, sortEntries]

/-- A walk comes to a file if it enters every directory above it. -/
theorem open_iff_of_file {enters : String → Bool} {n : Node} {rel : Location} {bytes : Text.Bytes}
    (h : n.find? rel = some (.file bytes)) :
    Open enters n rel ↔ ∀ name ∈ rel.dropLast, enters name = true := by
  induction rel generalizing n with
  | nil => simp [Open]
  | cons name rest ih =>
    rw [find?_cons] at h
    obtain ⟨c, hchild, hrest⟩ := Option.bind_eq_some_iff.mp h
    simp only [Open, hchild, Option.some.injEq, exists_eq_left', ih hrest]
    cases rest with
    | nil =>
      obtain rfl := Option.some.inj hrest
      simp [isDir]
    | cons next more =>
      have hdir : c.isDir = true := by
        cases c with
        | dir es => rfl
        | file _ => cases hrest
        | link _ => cases hrest
      simp [hdir]

end Node

open Node (Plain ProperName Open listing listingAt)

/-! ## Paths of locations -/

/-- The path of a location below that of a directory. -/
def pathBelow (path : Path) (rel : Location) : Path := rel.foldl entryPath path

theorem components_entryPath (path : Path) {name : String} (h : ProperName name) :
    (entryPath path name).components = path.components ++ [.name name.toList] := by
  have hspelled : Path.Spelled [.name name.toList] :=
    .of_proper fun c hc => by rwa [List.mem_singleton.mp hc]
  have hname : Path.components ⟨name⟩ = [.name name.toList] := Path.componentsOf_joinChars hspelled
  have hrelative : Path.isAbsolute ⟨name⟩ = false := by
    rw [Bool.eq_false_iff, ne_eq, Path.isAbsolute_iff_mem_components, hname]
    simp
  have hhere : .here ∉ Path.components ⟨name⟩ := by simp [hname]
  rw [entryPath, Path.components_join_of_here_notMem path hrelative hhere, hname]

theorem components_pathBelow (path : Path) {rel : Location} (h : ∀ name ∈ rel, ProperName name) :
    (pathBelow path rel).components =
      path.components ++ rel.map fun name => .name name.toList := by
  induction rel generalizing path with
  | nil => exact (List.append_nil _).symm
  | cons name rest ih =>
    obtain ⟨hname, hrest⟩ := List.forall_mem_cons.mp h
    rw [pathBelow, List.foldl_cons, ← pathBelow, ih _ hrest, components_entryPath path hname,
      List.append_assoc, List.map_cons, List.singleton_append]

/-- Different locations have different paths. -/
theorem pathBelow_inj (path : Path) {rel rel' : Location} (h : ∀ name ∈ rel, ProperName name)
    (h' : ∀ name ∈ rel', ProperName name) (heq : pathBelow path rel = pathBelow path rel') :
    rel = rel' := by
  have hcomponents := congrArg Path.components heq
  rw [components_pathBelow path h, components_pathBelow path h', List.append_cancel_left_eq]
    at hcomponents
  refine List.map_injective_iff.mpr ?_ hcomponents
  intro a b hab
  simpa [String.toList_inj] using hab

/-! ## The entries of a walk -/

/-- The entry of a walk for an entry of the directory that it has come to. -/
def entryIn (top : Entry) (e : String × Node) : Entry :=
  ⟨entryPath top.path e.1, e.1, top.depth + 1, kindOf e.2⟩

/-- The entry at a location below the node of another entry. -/
def entryBelow (top : Entry) (n : Node) (rel : Location) : Entry :=
  ⟨pathBelow top.path rel, rel.getLastD top.name, top.depth + rel.length,
    ((n.find? rel).map kindOf).getD .file⟩

theorem entryBelow_nil {top : Entry} {n : Node} (h : top.kind = kindOf n) :
    entryBelow top n [] = top := by
  simp [entryBelow, pathBelow, Node.find?, ← h]

theorem entryBelow_cons {n c : Node} {name : String} (h : n.child? name = some c) (top : Entry)
    (rest : Location) :
    entryBelow top n (name :: rest) = entryBelow (entryIn top (name, c)) c rest := by
  have hdepth : top.depth + (rest.length + 1) = top.depth + 1 + rest.length := by omega
  rw [entryBelow, entryBelow, List.getLastD_cons, Node.find?_cons, h, List.length_cons, hdepth]
  rfl

theorem kindOf_eq_dir_iff {n : Node} : kindOf n = .dir ↔ n.isDir = true := by
  cases n <;> simp [kindOf, Node.isDir]

/-- Below the root the rule leaves out only directories, and these by their names. -/
def WalkRule.Enters (rule : WalkRule) (enters : String → Bool) : Prop :=
  ∀ e : Entry, 0 < e.depth → (rule.keep e = true ↔ (e.kind = .dir → enters e.name = true))

/-- What a walk makes of one entry, when it is known what it lists below it. -/
theorem map_listingAt {rule : WalkRule} {enters : String → Bool} (hrule : rule.Enters enters)
    {n : Node} {e : String × Node} (hchild : n.child? e.1 = some e.2) (top : Entry)
    (below : List Location) :
    ((listingAt enters below e).map fun rel => .ok (entryBelow top n rel)) =
      if rule.keep (entryIn top e) then
        .ok (entryIn top e) ::
          (if kindOf e.2 = .dir then
            below.map fun rel => .ok (entryBelow (entryIn top e) e.2 rel)
           else [])
      else ([] : Found) := by
  have hself : entryBelow top n [e.1] = entryIn top e := by
    rw [entryBelow_cons hchild, entryBelow_nil rfl]
  have hkeep : rule.keep (entryIn top e) = true ↔ (e.2.isDir = true → enters e.1 = true) := by
    rw [hrule _ (Nat.succ_pos _), ← kindOf_eq_dir_iff]
    rfl
  simp only [hkeep, kindOf_eq_dir_iff, listingAt]
  by_cases hdir : e.2.isDir = true
  · by_cases henters : enters e.1 = true
    · simp [hdir, henters, hself, entryBelow_cons hchild]
    · simp [hdir, henters]
  · simp [hdir, hself]

/-- Below a node without links, a walk has the entries of the listing. -/
theorem walkBelow_of_plain {d : Disk} {rule : WalkRule} {enters : String → Bool}
    (hrule : rule.Enters enters) (fuel : Nat) (ancestors : List Ancestor) {here : Location}
    {n : Node} (hfind : d.tree.find? here = some n) (hplain : n.Plain) (top : Entry) :
    walkBelow d rule fuel ancestors here top.path top.depth =
      (listing enters fuel n).map fun rel => .ok (entryBelow top n rel) := by
  induction fuel generalizing ancestors here n top with
  | zero => rfl
  | succ fuel ih =>
    rw [walkBelow, hfind, listing, List.map_flatMap]
    refine List.flatMap_congr fun e he => ?_
    have hmem : e ∈ n.entries := Node.mem_sortEntries.mp he
    have hchild : n.child? e.1 = some e.2 := hplain.child?_eq_some_iff.mpr hmem
    have hplain' : e.2.Plain := (hplain.of_mem_entries hmem).2
    have hfind' : d.tree.find? (here ++ [e.1]) = some e.2 := by
      rw [Node.find?_concat, hfind, Option.bind_some, hchild]
    rw [map_listingAt hrule hchild, ← ih (⟨here ++ [e.1], entryPath top.path e.1⟩ :: ancestors)
      hfind' hplain' (entryIn top e)]
    obtain ⟨name, child⟩ := e
    cases child with
    | link target => exact hplain'.elim
    | file bytes => rfl
    | dir es => rfl

/-! ## The root of a walk -/

/-- Steps that lead somewhere lead there or to a link when the last name is not followed. -/
theorem Leads.exists_entry {t : Node} {links : Nat} {here l : Location} {steps : List Step}
    (h : Leads t ⟨true, false⟩ links here steps l) :
    ∃ l', Leads t ⟨false, false⟩ links here steps l' ∧
      (l' = l ∨ ∃ target, t.find? l' = some (.link target)) := by
  induction h with
  | done links here => exact ⟨here, .done links here, .inl rfl⟩
  | stay hdir _ ih =>
    obtain ⟨l', hleads, hplace⟩ := ih
    exact ⟨l', .stay hdir hleads, hplace⟩
  | up hdir _ ih =>
    obtain ⟨l', hleads, hplace⟩ := ih
    exact ⟨l', .up hdir hleads, hplace⟩
  | down hdir hshort hchild hplain _ ih =>
    obtain ⟨l', hleads, hplace⟩ := ih
    exact ⟨l', .down hdir hshort hchild hplain hleads, hplace⟩
  | missing hmanner => cases hmanner
  | entry hmanner => cases hmanner
  | @follow links here l name target rest _ hdir hshort hchild htarget _ ih =>
    by_cases hlast : rest = []
    · subst hlast
      exact ⟨here ++ [name], .entry rfl hdir hshort hchild, .inr ⟨target, hchild⟩⟩
    · obtain ⟨l', hleads, hplace⟩ := ih
      exact ⟨l', .follow (.inl hlast) hdir hshort hchild htarget hleads, hplace⟩

theorem exists_locateEntry {d : Disk} {p : Path} {l : Location} (h : d.locate p = .ok l) :
    ∃ l', d.locateEntry p = .ok l' ∧
      (l' = l ∨ ∃ target, d.tree.find? l' = some (.link target)) := by
  obtain ⟨hnul, hempty, hleads⟩ := locateWith_eq_ok_iff.mp h
  obtain ⟨l', hleads', hplace⟩ := hleads.exists_entry
  exact ⟨l', locateWith_eq_ok_iff.mpr ⟨hnul, hempty, hleads'⟩, hplace⟩

theorem exists_locate_of_node {d : Disk} {p : Path} {n : Node} (h : d.node p = .ok n) :
    ∃ l, d.locate p = .ok l ∧ d.tree.find? l = some n := by
  unfold node at h
  cases hlocate : d.locate p with
  | error e => simp [hlocate] at h
  | ok l =>
    cases hfind : d.tree.find? l with
    | none => simp [hlocate, hfind] at h
    | some found =>
      simp only [hlocate, hfind, Except.ok.injEq] at h
      exact ⟨l, rfl, h ▸ hfind⟩

/-- A place that steps lead to and that is no link is also where they lead when the last name is
followed. -/
theorem Leads.follow_last {t : Node} {links : Nat} {here l : Location} {steps : List Step}
    (h : Leads t ⟨false, false⟩ links here steps l)
    (hl : ∀ target, t.find? l ≠ some (.link target)) :
    Leads t ⟨true, false⟩ links here steps l := by
  induction h with
  | done links here => exact .done links here
  | stay hdir _ ih => exact .stay hdir (ih hl)
  | up hdir _ ih => exact .up hdir (ih hl)
  | down hdir hshort hchild hplain _ ih => exact .down hdir hshort hchild hplain (ih hl)
  | missing hmanner => cases hmanner
  | entry _ _ _ hchild => exact absurd hchild (hl _)
  | follow _ hdir hshort hchild htarget _ ih =>
    exact .follow (.inr rfl) hdir hshort hchild htarget (ih hl)

/-- The node that a path names; a link at its end is not followed. -/
def named? (d : Disk) (p : Path) : Option Node :=
  (d.locateEntry p).toOption.bind d.tree.find?

theorem named?_eq_some_iff {d : Disk} {p : Path} {n : Node} :
    d.named? p = some n ↔ ∃ l, d.locateEntry p = .ok l ∧ d.tree.find? l = some n := by
  unfold named?
  cases d.locateEntry p <;> simp [Except.toOption]

/-- A path names nothing only if it leads nowhere. -/
theorem named?_eq_none_iff {d : Disk} {p : Path} :
    d.named? p = none ↔ ∃ e, d.locateEntry p = .error e := by
  cases hentry : d.locateEntry p with
  | error e => simp [named?, hentry, Except.toOption]
  | ok l =>
    obtain ⟨-, ⟨c, hc⟩ | ⟨hmissing, -⟩⟩ := exists_of_locateWith hentry
    · simp [named?, hentry, Except.toOption, hc]
    · cases hmissing

theorem node_of_named? {d : Disk} {p : Path} {n : Node} (h : d.named? p = some n)
    (hplain : n.Plain) : d.node p = .ok n := by
  obtain ⟨l, hentry, hfind⟩ := named?_eq_some_iff.mp h
  obtain ⟨hnul, hempty, hleads⟩ := locateWith_eq_ok_iff.mp hentry
  have hlink : ∀ target, d.tree.find? l ≠ some (.link target) := by
    intro target hlink
    obtain rfl := Option.some.inj (hfind.symm.trans hlink)
    exact hplain
  have hlocate : d.locate p = .ok l :=
    locateWith_eq_ok_iff.mpr ⟨hnul, hempty, hleads.follow_last hlink⟩
  simp only [node, hlocate, hfind]

/-- The entry that a walk starts with. -/
def rootEntry (root : Path) (n : Node) : Entry := ⟨root, nameOf root, 0, kindOf n⟩

/-- The locations that a walk comes to, from its root on. -/
def listed (rule : WalkRule) (enters : String → Bool) (d : Disk) (root : Path) (n : Node) :
    List Location :=
  if rule.keep (rootEntry root n) then [] :: listing enters (d.tree.count + 1) n else []

theorem pairwise_listed (rule : WalkRule) (enters : String → Bool) (d : Disk) (root : Path)
    {n : Node} (hplain : n.Plain) : (listed rule enters d root n).Pairwise (· < ·) := by
  unfold listed
  split_ifs
  · exact Node.pairwise_cons_listing enters _ hplain
  · exact List.Pairwise.nil

theorem mem_listed_iff (rule : WalkRule) {enters : String → Bool} {d : Disk} {root : Path}
    {n : Node} (hroot : d.node root = .ok n) (hplain : n.Plain) {rel : Location} :
    rel ∈ listed rule enters d root n ↔
      rule.keep (rootEntry root n) = true ∧ Open enters n rel := by
  obtain ⟨l, -, hfind⟩ := exists_locate_of_node hroot
  have hfuel : n.count ≤ d.tree.count + 1 := (Node.count_le_of_find? hfind).trans (Nat.le_succ _)
  unfold listed
  split_ifs with hkeep
  · rw [Node.mem_cons_listing_iff hplain hfuel]
    exact (and_iff_right hkeep).symm
  · simp [hkeep]

section Root

variable {d : Disk} {rule : WalkRule} {enters : String → Bool} (hrule : rule.Enters enters)
  {root : Path} {n : Node} (hplain : n.Plain)

include hrule hplain

/-- What a walk makes of its root. -/
theorem map_listed {l : Location} (hfind : d.tree.find? l = some n) :
    ((listed rule enters d root n).map fun rel => .ok (entryBelow (rootEntry root n) n rel)) =
      if rule.keep (rootEntry root n) then
        .ok (rootEntry root n) ::
          (if kindOf n = .dir then
            d.walkBelow rule (d.tree.count + 1) [⟨l, root⟩] l root 0
           else [])
      else ([] : Found) := by
  have hbelow : (if kindOf n = .dir then
        d.walkBelow rule (d.tree.count + 1) [⟨l, root⟩] l root 0 else []) =
      (listing enters (d.tree.count + 1) n).map fun rel =>
        .ok (entryBelow (rootEntry root n) n rel) := by
    split_ifs with hdir
    · exact walkBelow_of_plain hrule _ _ hfind hplain (rootEntry root n)
    · rw [kindOf_eq_dir_iff, Bool.not_eq_true] at hdir
      rw [Node.listing_of_not_isDir hdir, List.map_nil]
  rw [hbelow, listed]
  split_ifs
  · rw [List.map_cons, entryBelow_nil rfl]
  · rfl

/-- A walk that may go through a link at its root, but finds none below it, has the entries of
the listing. -/
theorem walk_of_plain (hfollow : rule.followLinks = true) (hroot : d.node root = .ok n) :
    d.walk rule root =
      (listed rule enters d root n).map fun rel => .ok (entryBelow (rootEntry root n) n rel) := by
  obtain ⟨l, hlocate, hfind⟩ := exists_locate_of_node hroot
  obtain ⟨l', hentry, hplace⟩ := exists_locateEntry hlocate
  have htarget : (if ((d.tree.find? l').map kindOf).getD .file = .link then d.locate root
      else .ok l') = .ok l := by
    rcases hplace with rfl | ⟨target, hlink⟩
    · split_ifs
      · exact hlocate
      · rfl
    · simp [hlink, kindOf, hlocate]
  rw [map_listed hrule hplain hfind]
  simp only [walk, hentry, htarget, hfind, hfollow, Option.map_some, Option.getD_some, if_true,
    Bool.not_true, Bool.and_false, Bool.false_eq_true, if_false]
  rfl

/-- A walk that starts at no link and finds none has the entries of the listing, whether it would
follow links or not. -/
theorem walk_of_named (hroot : d.named? root = some n) :
    d.walk rule root =
      (listed rule enters d root n).map fun rel => .ok (entryBelow (rootEntry root n) n rel) := by
  obtain ⟨l, hentry, hfind⟩ := named?_eq_some_iff.mp hroot
  have hkind : kindOf n ≠ .link := by
    cases n with
    | link target => exact hplain.elim
    | file bytes => rintro ⟨⟩
    | dir es => rintro ⟨⟩
  rw [map_listed hrule hplain hfind]
  simp only [walk, hentry, hfind, Option.map_some, Option.getD_some, hkind, if_false, ite_self,
    decide_false, Bool.false_and, Bool.false_eq_true]
  rfl

end Root

/-- A walk of what is not there tells so. -/
theorem walk_of_missing {d : Disk} {root : Path} (h : d.named? root = none) (rule : WalkRule) :
    ∃ e, d.walk rule root = [.error (.os root e)] := by
  obtain ⟨e, hentry⟩ := named?_eq_none_iff.mp h
  exact ⟨e, by simp only [walk, hentry]⟩

end LintRelay.Disk
