import LintRelay.Bridge.Replay
import LintRelay.Proofs.Bridge.Context
import LintRelay.Proofs.Sequence
set_option autoImplicit false

/-!
# What a client remembers, whatever is done with it

A client can be used in any order, and its bridge may answer anything, or not at all.  What was
done and what came of it (`uses`) determines what the client remembers: the configurations of the
file that was analyzed last, since the bridge has last confirmed a reset (`remembered`).  One use
changes what is remembered only when it succeeds (`context_perform`); the rest is an induction
over all that was done.
-/

namespace LintRelay.Bridge.Client

variable {σ : Type}

/-! ## Uses -/

/-- What can be done with a client. -/
inductive Operation where
  | setUp (setup : LinterSetup)
  | probe
  | load (path : Path)
  | analyze (request : Request)
  | reset
  | close

/-- Something that is done with a client when the disk is as given. -/
structure Invocation where
  disk : Disk
  operation : Operation

/-- What was done with a client, and what came of it. -/
inductive Use where
  | call (call : Call)
  | close

namespace Use

/-- The configurations of the file that was analyzed. -/
def analyzed? : Use → Option (List String)
  | .call (.analyze request (.ok _)) => some request.configs
  | _ => none

/-- The bridge has confirmed a reset. -/
def forgets : Use → Bool
  | .call (.reset (.ok _)) => true
  | _ => false

theorem analyzed?_eq_none {u : Use}
    (h : ∀ request response, u ≠ .call (.analyze request (.ok response))) :
    u.analyzed? = none := by
  rcases u with ⟨_ | _ | _ | ⟨request, _ | response⟩ | _⟩ | _
  case call.analyze.ok => exact absurd rfl (h request response)
  all_goals rfl

theorem forgets_eq_false {u : Use} (h : ∀ done, u ≠ .call (.reset (.ok done))) :
    u.forgets = false := by
  rcases u with ⟨_ | _ | _ | _ | ⟨_ | done⟩⟩ | _
  case call.reset.ok => exact absurd rfl (h done)
  all_goals rfl

end Use

/-- Does something with a client. -/
def perform (host : Host σ) (c : Client σ) (i : Invocation) : Use × Client σ :=
  match i.operation with
  | .setUp setup =>
    let a := (engine host).setUp i.disk setup c
    (.call (.setUp setup a.value), a.state)
  | .probe =>
    let a := (engine host).isAlive i.disk c
    (.call (.probe a.value), a.state)
  | .load path =>
    let a := (engine host).loadConfig i.disk path c
    (.call (.load path a.value), a.state)
  | .analyze request =>
    let a := (engine host).analyze i.disk request c
    (.call (.analyze request a.value), a.state)
  | .reset =>
    let a := (engine host).reset i.disk c
    (.call (.reset a.value), a.state)
  | .close => (.close, (c.close host i.disk).state)

/-- What is done is a call to the bridge as an engine, or the client is closed. -/
theorem perform_cases (host : Host σ) (c : Client σ) (i : Invocation) :
    (∃ call, (c.perform host i).1 = .call call ∧
      (engine host).Makes c call (c.perform host i).2) ∨
    ((c.perform host i).1 = .close ∧ (c.perform host i).2 = (c.close host i.disk).state) := by
  obtain ⟨disk, operation⟩ := i
  cases operation with
  | setUp setup =>
    simp only [perform]
    exact .inl ⟨_, rfl, .setUp disk setup c⟩
  | probe =>
    simp only [perform]
    exact .inl ⟨_, rfl, .probe disk c⟩
  | load path =>
    simp only [perform]
    exact .inl ⟨_, rfl, .load disk path c⟩
  | analyze request =>
    simp only [perform]
    exact .inl ⟨_, rfl, .analyze disk request c⟩
  | reset =>
    simp only [perform]
    exact .inl ⟨_, rfl, .reset disk c⟩
  | close => exact .inr ⟨rfl, rfl⟩

/-- What is done with a client one after the other, and what comes of it. -/
def uses (host : Host σ) (c : Client σ) : List Invocation → List Use
  | [] => []
  | i :: rest => (c.perform host i).1 :: uses host (c.perform host i).2 rest

/-- The client after that. -/
def afterAll (host : Host σ) (c : Client σ) (is : List Invocation) : Client σ :=
  is.foldl (fun c i => (c.perform host i).2) c

theorem afterAll_concat (host : Host σ) (c : Client σ) (is : List Invocation) (i : Invocation) :
    c.afterAll host (is ++ [i]) = ((c.afterAll host is).perform host i).2 := by
  simp [afterAll]

theorem uses_concat (host : Host σ) (c : Client σ) (is : List Invocation) (i : Invocation) :
    c.uses host (is ++ [i]) = c.uses host is ++ [((c.afterAll host is).perform host i).1] := by
  induction is generalizing c with
  | nil => rfl
  | cons first rest ih => simp [uses, afterAll, ih]

/-! ## Memory -/

/-- The configurations of the file analyzed last since the bridge has last confirmed a reset; none
when there is no such file. -/
def remembered (us : List Use) : List String :=
  (Sequence.latest Use.forgets Use.analyzed? us).getD []

theorem remembered_concat (us : List Use) (u : Use) :
    remembered (us ++ [u]) = if u.forgets then [] else u.analyzed?.getD (remembered us) := by
  rw [remembered, Sequence.latest_concat]
  cases u.forgets with
  | true => rfl
  | false => cases u.analyzed? <;> rfl

/-- A call that is made changes the memory as it did when only calls of an engine were made. -/
theorem contextAfter_eq (context : List String) (call : Call) :
    Call.contextAfter context call =
      if (Use.call call).forgets then [] else (Use.call call).analyzed?.getD context := by
  rcases call with _ | _ | _ | ⟨request, _ | response⟩ | ⟨_ | done⟩ <;> rfl

theorem context_abandon (host : Host σ) (c : Client σ) :
    (c.abandon host).state.context = c.context := by
  unfold abandon
  split <;> rfl

theorem context_close (host : Host σ) (disk : Disk) (c : Client σ) :
    (c.close host disk).state.context = c.context := by
  unfold close
  split
  · rfl
  · simp [context_abandon]

/-- A file that is analyzed is remembered, a reset that is confirmed makes the client forget, and
nothing else changes what it remembers. -/
theorem context_perform (host : Host σ) (c : Client σ) (i : Invocation) :
    (c.perform host i).2.context =
      if (c.perform host i).1.forgets then []
      else (c.perform host i).1.analyzed?.getD c.context := by
  rcases c.perform_cases host i with ⟨call, hcall, hmakes⟩ | ⟨hclose, hstate⟩
  · rw [hcall, makes_context hmakes, contextAfter_eq]
  · rw [hclose, hstate, context_close]
    rfl

/-- What is remembered is determined by what was done and what came of it. -/
theorem context_afterAll {host : Host σ} {c : Client σ} (h : c.context = [])
    (is : List Invocation) : (c.afterAll host is).context = remembered (c.uses host is) := by
  induction is using List.reverseRecOn with
  | nil => exact h
  | append_singleton is i ih =>
    rw [afterAll_concat, uses_concat, context_perform, remembered_concat, ih]

/-- Whatever is done with a new client, one thing after the other, and whatever comes of it: the
client remembers the configurations of the file that was analyzed last since the bridge has last
confirmed a reset, and none if there is no such file.  What fails, and what is neither an analysis
nor a reset, leaves as it is what the client remembers. -/
theorem client_remembers_last_analysis {host : Host σ} {c : Client σ}
    (hnew : FreshlyBuilt host c) (is : List Invocation) :
    (c.afterAll host is).context = remembered (c.uses host is) ∧
    ∀ i u c', (c.afterAll host is).perform host i = (u, c') →
      (∀ request response, u ≠ .call (.analyze request (.ok response))) →
      (∀ done, u ≠ .call (.reset (.ok done))) →
      c'.context = (c.afterAll host is).context := by
  constructor
  · exact context_afterAll hnew.context_eq_nil is
  · intro i u c' hperform hanalyze hreset
    have hcontext := context_perform host (c.afterAll host is) i
    rw [hperform] at hcontext
    rw [hcontext, Use.forgets_eq_false hreset, Use.analyzed?_eq_none hanalyze]
    rfl

/-- A client of a bridge that fails again and again. -/
def unluckyClient : Client Replay :=
  connect "http://localhost:1" 5 <| .ofList <| List.map (Exchanged.mk · false)
    [.reply 200 "\x7b\x7d", .reply 200 "nonsense", .reply 500 "busy", .late,
      .reply 200 "\x7b\x7d", .reply 200 "\x7b\"error\":\"crash\"\x7d", .reply 204 ""]

/-- What is done with that client. -/
def unluckyUses : List Invocation :=
  [.analyze ⟨.typeScript, ⟨"/p/x.ts"⟩, .main, none, false, ["/p/a.json"]⟩,
    .analyze ⟨.typeScript, ⟨"/p/y.ts"⟩, .main, none, false, ["/p/b.json"]⟩,
    .reset,
    .analyze ⟨.typeScript, ⟨"/p/y.ts"⟩, .main, none, false, ["/p/b.json"]⟩,
    .load ⟨"/p/b.json"⟩,
    .analyze ⟨.typeScript, ⟨"/p/z.ts"⟩, .main, none, false, ["/p/c.json"]⟩,
    .reset, .close].map (Invocation.mk default)

/-- The answer that makes no sense, the reset that is refused and the one that comes too late change
nothing; the answer that tells of an error is an answer. -/
theorem unluckyClient_remembers :
    FreshlyBuilt Replay.host unluckyClient ∧
    (List.range 9).map (fun n =>
        (unluckyClient.afterAll Replay.host (unluckyUses.take n)).context) =
      [[], ["/p/a.json"], ["/p/a.json"], ["/p/a.json"], ["/p/a.json"], ["/p/a.json"],
        ["/p/c.json"], [], []] := by
  have hnew : FreshlyBuilt Replay.host unluckyClient := .connected _ _ _
  refine ⟨hnew, ?_⟩
  have hremembered : ∀ n, (unluckyClient.afterAll Replay.host (unluckyUses.take n)).context =
      remembered (unluckyClient.uses Replay.host (unluckyUses.take n)) := by
    intro n
    exact (client_remembers_last_analysis hnew _).1
  simp only [hremembered]
  decide +kernel

end LintRelay.Bridge.Client
