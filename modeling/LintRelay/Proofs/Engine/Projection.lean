import LintRelay.Project.Resolution
set_option autoImplicit false

/-!
# Engines with more state

An engine may keep things beside the state of another one, such as notes of the calls it was
asked for, and answer as the other one does.  Then `Engine.Projects` holds, and whatever is
done with the two comes to the same, up to what is kept beside.
-/

namespace LintRelay

variable {σ' σ : Type}

/-- The answer with a part of its state. -/
def Answer.mapState {α : Type} (φ : σ' → σ) (a : Answer σ' α) : Answer σ α :=
  ⟨a.value, φ a.state, a.log, a.interrupted⟩

/-- The first engine answers as the second one does, which has a part of its state. -/
structure Engine.Projects (φ : σ' → σ) (e' : Engine σ') (e : Engine σ) : Prop where
  setUp : ∀ d setup a, e.setUp d setup (φ a) = (e'.setUp d setup a).mapState φ
  isAlive : ∀ d a, e.isAlive d (φ a) = (e'.isAlive d a).mapState φ
  loadConfig : ∀ d p a, e.loadConfig d p (φ a) = (e'.loadConfig d p a).mapState φ
  analyze : ∀ d request a, e.analyze d request (φ a) = (e'.analyze d request a).mapState φ
  reset : ∀ d a, e.reset d (φ a) = (e'.reset d a).mapState φ

variable {φ : σ' → σ} {e' : Engine σ'} {e : Engine σ}

namespace Search

/-- The resolution with a part of the state of its engine. -/
def mapEngine (φ : σ' → σ) (s : Search σ') : Search σ :=
  ⟨φ s.engine, s.visited, s.loaded, s.events, s.interrupted⟩

theorem load_mapEngine (h : e'.Projects φ e) (d : Disk) (p : Path) (s : Search σ') :
    (s.mapEngine φ).load e d p = ((s.load e' d p).1, (s.load e' d p).2.mapEngine φ) := by
  have hload : e.loadConfig d p (s.mapEngine φ).engine = (e'.loadConfig d p s.engine).mapState φ :=
    h.loadConfig d p s.engine
  unfold load
  rw [hload]
  cases hvalue : (e'.loadConfig d p s.engine).value <;> simp [Answer.mapState, hvalue, mapEngine]

theorem workOff_mapEngine (h : e'.Projects φ e) (d : Disk) (loads : Nat) (queue : List Path)
    (s : Search σ') :
    workOff e d loads queue (s.mapEngine φ) =
      ((workOff e' d loads queue s).1, (workOff e' d loads queue s).2.mapEngine φ) := by
  have hvisited : ∀ s : Search σ', (s.mapEngine φ).visited = s.visited := fun _ => rfl
  induction loads generalizing queue s with
  | zero =>
    unfold workOff
    rw [hvisited]
    cases queue.dropWhile (s.visited.contains ·) <;> rfl
  | succ loads ih =>
    unfold workOff
    rw [hvisited]
    cases queue.dropWhile (s.visited.contains ·) with
    | nil => rfl
    | cons p rest =>
      simp only [load_mapEngine h]
      rcases s.load e' d p with ⟨err | c, s₁⟩
      · rfl
      · exact ih _ s₁

end Search

theorem resolve_mapEngine (h : e'.Projects φ e) (d : Disk) (loads : Nat) (seeds : List Path)
    (a : σ') :
    resolve e d loads seeds (φ a) =
      ((resolve e' d loads seeds a).1, (resolve e' d loads seeds a).2.mapEngine φ) :=
  Search.workOff_mapEngine h d loads _ (Search.start a)

theorem resolveGroups_mapEngine (h : e'.Projects φ e) (d : Disk) (loads : Nat)
    (seeds : List Path) (files : List SourceFile) (a : σ') :
    resolveGroups e d loads seeds files (φ a) =
      ((resolveGroups e' d loads seeds files a).1,
        (resolveGroups e' d loads seeds files a).2.mapEngine φ) := by
  unfold resolveGroups
  rw [resolve_mapEngine h]
  split
  · rfl
  · rcases resolve e' d loads seeds a with ⟨_ | err | configs, s⟩ <;> rfl

end LintRelay
