import Mathlib.Data.List.Induction
import LintRelay.Bridge.Client
import LintRelay.Proofs.Engine.Calls
set_option autoImplicit false

/-!
# The configurations that a client remembers

A client of a bridge remembers the configurations of the file that was analyzed last,
until it is told to forget them.  What it remembers is determined by the calls that were
made and by their answers alone (`history_context`), and a client that was just built
remembers nothing (`FreshlyBuilt.context_eq_nil`).
-/

namespace LintRelay

/-- The configurations remembered after a call, by a client that remembered `context`. -/
def Call.contextAfter (context : List String) : Call → List String
  | .analyze request (.ok _) => request.configs
  | .reset (.ok _) => []
  | _ => context

/-- What is remembered in the end comes from the last file that was analyzed, if nothing
has been forgotten since. -/
theorem foldl_contextAfter_cases (calls : List Call) :
    calls.foldl Call.contextAfter [] = [] ∨
      ∃ before request response since,
        calls = before ++ .analyze request (.ok response) :: since ∧
          (∀ c ∈ since, c.isReset = true → c.failed = true) ∧
          calls.foldl Call.contextAfter [] = request.configs := by
  induction calls using List.reverseRecOn with
  | nil => exact .inl rfl
  | append_singleton calls c ih =>
    rw [List.foldl_append, List.foldl_cons, List.foldl_nil]
    -- A call that changes nothing comes after what the calls before it have come to.
    have hkeep (hcontext : ∀ context, Call.contextAfter context c = context)
        (hreset : c.isReset = true → c.failed = true) :
        Call.contextAfter (calls.foldl Call.contextAfter []) c = [] ∨
          ∃ before request response since,
            calls ++ [c] = before ++ .analyze request (.ok response) :: since ∧
              (∀ c ∈ since, c.isReset = true → c.failed = true) ∧
              Call.contextAfter (calls.foldl Call.contextAfter []) c = request.configs := by
      rw [hcontext]
      rcases ih with hnil | ⟨before, request, response, since, rfl, hsince, hconfigs⟩
      · exact .inl hnil
      · refine .inr ⟨before, request, response, since ++ [c], by simp, ?_, hconfigs⟩
        intro c' hc'
        rcases List.mem_append.mp hc' with hold | hnew
        · exact hsince c' hold
        · obtain rfl := List.mem_singleton.mp hnew
          exact hreset
    cases c with
    | analyze request result =>
      cases result with
      | ok response => exact .inr ⟨calls, request, response, [], rfl, by simp, rfl⟩
      | error err => exact hkeep (fun _ => rfl) (fun hreset => nomatch hreset)
    | reset result =>
      cases result with
      | ok done => exact .inl rfl
      | error err => exact hkeep (fun _ => rfl) (fun _ => rfl)
    | _ => exact hkeep (fun _ => rfl) (fun hreset => nomatch hreset)

namespace Bridge.Client

variable {σ : Type}

/-! ## Exchanges -/

@[simp] theorem context_sendWithin (limitMs : Nat) (host : Host σ) (disk : Disk)
    (method : Method) (endpoint : String) (body : Option String) (c : Client σ) :
    (c.sendWithin limitMs host disk method endpoint body).state.context = c.context := by
  unfold sendWithin
  split <;> rfl

@[simp] theorem context_send (host : Host σ) (disk : Disk) (method : Method)
    (endpoint : String) (body : Option String) (c : Client σ) :
    (c.send host disk method endpoint body).state.context = c.context := by
  rw [send, context_sendWithin]

/-! ## Operations -/

theorem context_setUp (host : Host σ) (disk : Disk) (s : LinterSetup) (c : Client σ) :
    (c.setUp host disk s).state.context = c.context := by
  unfold setUp
  simp only
  split
  · simp
  · split <;> simp

theorem context_isAlive (host : Host σ) (disk : Disk) (c : Client σ) :
    (c.isAlive host disk).state.context = c.context := by
  unfold isAlive
  cases c.process with
  | none => simp
  | some launched =>
    simp only
    split
    · simp
    · rfl

theorem context_loadConfig (host : Host σ) (disk : Disk) (p : Path) (c : Client σ) :
    (c.loadConfig host disk p).state.context = c.context := by
  simp [loadConfig]

theorem context_analyze (host : Host σ) (disk : Disk) (r : Request) (c : Client σ) :
    (c.analyze host disk r).state.context =
      Call.contextAfter c.context (.analyze r (c.analyze host disk r).value) := by
  unfold analyze
  simp only
  split <;> rename_i hresult <;> simp [hresult, Call.contextAfter]

theorem context_reset (host : Host σ) (disk : Disk) (c : Client σ) :
    (c.reset host disk).state.context =
      Call.contextAfter c.context (.reset (c.reset host disk).value) := by
  unfold reset
  simp only
  split <;> simp [Call.contextAfter]

/-! ## Histories -/

/-- A call changes what is remembered as its answer says. -/
theorem makes_context {host : Host σ} {c c' : Client σ} {call : Call}
    (h : (engine host).Makes c call c') : c'.context = Call.contextAfter c.context call := by
  cases h with
  | setUp disk setup => simp only [engine, context_setUp, Call.contextAfter]
  | probe disk => simp only [engine, context_isAlive, Call.contextAfter]
  | load disk path => simp only [engine, context_loadConfig, Call.contextAfter]
  | analyze disk request => simp only [engine, context_analyze]
  | reset disk => simp only [engine, context_reset]

/-- What is remembered after calls depends on the calls only. -/
theorem history_context {host : Host σ} {c c' : Client σ} {calls : List Call}
    (h : (engine host).History c calls c') :
    c'.context = calls.foldl Call.contextAfter c.context := by
  induction h with
  | nil => rfl
  | cons makes _ ih => rw [ih, makes_context makes, List.foldl_cons]

/-! ## New clients -/

/-- A client as it comes out of one of the ways to get one. -/
inductive FreshlyBuilt (host : Host σ) : Client σ → Prop
  | connected (url : String) (timeoutMs : Nat) (outside : σ) :
      FreshlyBuilt host (connect url timeoutMs outside)
  | started (disk : Disk) (settings : EngineSettings) (outside : σ) (c : Client σ)
      (hstarted : (startBridge host disk settings outside).value = .ok c) : FreshlyBuilt host c
  | opened (disk : Disk) (settings : EngineSettings) (outside : σ) (c : Client σ)
      (hopened : (fromSettings host disk settings outside).value = .ok c) : FreshlyBuilt host c

/-- Probing a bridge until it answers leaves no trace in the context. -/
theorem context_awaitReady {host : Host σ} {disk : Disk} {timeoutMs deadline polls : Nat}
    {log : List Log.Line} {c : Client σ}
    (hready : (awaitReady host disk timeoutMs deadline polls log c).value = .ok ()) :
    (awaitReady host disk timeoutMs deadline polls log c).state.context = c.context := by
  induction polls generalizing log c with
  | zero => cases hready
  | succ polls ih =>
    have halive := context_isAlive host disk c
    revert hready
    rw [awaitReady]
    simp only
    split
    · intro _
      exact halive
    · split
      · intro hready
        cases hready
      · split
        · intro hready
          cases hready
        · intro hready
          exact (ih hready).trans halive

theorem context_startBridge {host : Host σ} {disk : Disk} {settings : EngineSettings}
    {outside : σ} {c : Client σ}
    (h : (startBridge host disk settings outside).value = .ok c) : c.context = [] := by
  revert h
  unfold startBridge
  simp only
  split
  · intro h
    cases h
  · split
    · intro h
      cases h
    · rename_i hready
      intro h
      obtain rfl := Except.ok.inj h
      exact context_awaitReady hready

theorem FreshlyBuilt.context_eq_nil {host : Host σ} {c : Client σ}
    (h : FreshlyBuilt host c) : c.context = [] := by
  cases h with
  | connected url timeoutMs outside => rfl
  | started disk settings outside c hstarted => exact context_startBridge hstarted
  | opened disk settings outside c hopened =>
    revert hopened
    unfold fromSettings
    split
    · exact context_startBridge
    · simp only
      split
      · intro hopened
        obtain rfl := Except.ok.inj hopened
        exact context_isAlive host disk _
      · intro hopened
        cases hopened

end Bridge.Client

end LintRelay
