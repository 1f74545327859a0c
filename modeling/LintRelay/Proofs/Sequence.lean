set_option autoImplicit false

/-!
# Histories read from their end

What holds at the end of a history is often decided by what happened since something else has
happened last: `since` is that part of the history, and `latest` what it tells last.  Both are
followed along a history by what one more event does to them (`since_concat`, `latest_concat`).
-/

namespace LintRelay.Sequence

variable {α β : Type}

theorem filterMap_concat (f : α → Option β) (l : List α) (a : α) :
    (l ++ [a]).filterMap f = l.filterMap f ++ (f a).toList := by
  cases h : f a <;> simp [h]

/-- The elements behind the last one of a kind. -/
def since (kind : α → Bool) (l : List α) : List α :=
  (l.reverse.takeWhile fun a => !kind a).reverse

theorem since_concat (kind : α → Bool) (l : List α) (a : α) :
    since kind (l ++ [a]) = if kind a then [] else since kind l ++ [a] := by
  unfold since
  rw [List.reverse_append, List.reverse_singleton, List.singleton_append, List.takeWhile_cons]
  cases kind a <;> simp

theorem since_append {kind : α → Bool} (l : List α) {more : List α}
    (h : ∀ a ∈ more, kind a = false) : since kind (l ++ more) = since kind l ++ more := by
  have hall : ∀ a ∈ more.reverse, (!kind a) = true := by
    intro a ha
    rw [h a (List.mem_reverse.mp ha)]
    rfl
  unfold since
  rw [List.reverse_append, List.takeWhile_append_of_pos hall, List.reverse_append,
    List.reverse_reverse]

/-- What elements of a kind leave behind of something that each element may tell. -/
theorem filterMap_since_concat (kind : α → Bool) (tell : α → Option β) (l : List α) (a : α) :
    (since kind (l ++ [a])).filterMap tell =
      if kind a then [] else (since kind l).filterMap tell ++ (tell a).toList := by
  rw [since_concat]
  cases kind a with
  | true => rfl
  | false => exact filterMap_concat tell _ a

/-- What is told last behind the last element of a kind. -/
def latest (kind : α → Bool) (tell : α → Option β) (l : List α) : Option β :=
  ((since kind l).filterMap tell).getLast?

theorem latest_concat (kind : α → Bool) (tell : α → Option β) (l : List α) (a : α) :
    latest kind tell (l ++ [a]) = if kind a then none else (tell a).or (latest kind tell l) := by
  rw [latest, filterMap_since_concat]
  cases kind a with
  | true => rfl
  | false => cases tell a <;> simp [latest]

theorem latest_append {kind : α → Bool} (tell : α → Option β) (l : List α) {more : List α}
    (h : ∀ a ∈ more, kind a = false) :
    latest kind tell (l ++ more) = (more.filterMap tell).getLast?.or (latest kind tell l) := by
  rw [latest, since_append l h, List.filterMap_append, List.getLast?_append]
  rfl

end LintRelay.Sequence
