import LintRelay.Bridge.Client
import LintRelay.Bridge.Replay
import LintRelay.Proofs.Engine.Projection
import LintRelay.Proofs.Project.Partition
import LintRelay.Proofs.Project.Resolution
set_option autoImplicit false

/-!
# Configurations keep their identity over a bridge

The answer of a bridge does not say which configuration it describes; the client gives it the
path that was asked for, in normal form.  A resolution asks for paths in normal form only, and
normal form is reached once, so a configuration has exactly the path that was sent.  Since no
path is sent twice, no two configurations have the same one.

What is sent is read off the notes of a host that writes down every message
(`Host.noting`).
-/

namespace LintRelay.Bridge

variable {σ : Type}

/-! ## Notes of messages -/

/-- The world outside with notes of the messages that were sent to it. -/
def Host.noting (host : Host σ) : Host (σ × List Message) where
  exchange d m a :=
    let answer := host.exchange d m a.1
    ⟨answer.value, (answer.state, a.2 ++ [m]), answer.log, answer.interrupted⟩
  freePort address a := ((host.freePort address a.1).1, (host.freePort address a.1).2, a.2)
  launch d program arguments a :=
    ((host.launch d program arguments a.1).1, (host.launch d program arguments a.1).2, a.2)
  isRunning a := ((host.isRunning a.1).1, (host.isRunning a.1).2, a.2)
  stop a := ((host.stop a.1).1, (host.stop a.1).2, a.2)
  now a := ((host.now a.1).1, (host.now a.1).2, a.2)
  pause ms a := (host.pause ms a.1, a.2)

namespace Client

/-- The client of a world outside that has not noted anything. -/
def noting (c : Client σ) : Client (σ × List Message) :=
  ⟨(c.outside, []), c.base, c.timeoutMs, c.process, c.context⟩

/-- The client without the notes. -/
def unnoted (c : Client (σ × List Message)) : Client σ :=
  ⟨c.outside.1, c.base, c.timeoutMs, c.process, c.context⟩

/-- The messages that were sent. -/
def sent (c : Client (σ × List Message)) : List Message := c.outside.2

theorem sendWithin_unnoted (limitMs : Nat) (host : Host σ) (d : Disk) (method : Method)
    (endpoint : String) (body : Option String) (c : Client (σ × List Message)) :
    c.unnoted.sendWithin limitMs host d method endpoint body =
      (c.sendWithin limitMs host.noting d method endpoint body).mapState unnoted := by
  have hbase : c.unnoted.base = c.base := rfl
  unfold sendWithin
  rw [hbase]
  cases Address.parse? (c.base ++ "/" ++ endpoint) <;> rfl

theorem send_unnoted (host : Host σ) (d : Disk) (method : Method) (endpoint : String)
    (body : Option String) (c : Client (σ × List Message)) :
    c.unnoted.send host d method endpoint body =
      (c.send host.noting d method endpoint body).mapState unnoted :=
  sendWithin_unnoted c.timeoutMs host d method endpoint body c

theorem isAlive_unnoted (host : Host σ) (d : Disk) (c : Client (σ × List Message)) :
    c.unnoted.isAlive host d = (c.isAlive host.noting d).mapState unnoted := by
  -- A client that was started looks at its process before it sends the probe.
  have hprobe : ∀ c : Client (σ × List Message),
      { c.unnoted.sendWithin probeLimit host d .get "status" none with
        value := isOk (c.unnoted.sendWithin probeLimit host d .get "status" none).value } =
      ({ c.sendWithin probeLimit host.noting d .get "status" none with
        value := isOk (c.sendWithin probeLimit host.noting d .get "status" none).value } :
          Answer _ _).mapState unnoted := by
    intro c
    rw [sendWithin_unnoted]
    generalize c.sendWithin probeLimit host.noting d .get "status" none = a
    rfl
  have hprocess : c.unnoted.process = c.process := rfl
  have hrunning : host.isRunning c.unnoted.outside =
      ((host.noting.isRunning c.outside).1, (host.noting.isRunning c.outside).2.1) := rfl
  unfold isAlive
  rw [hprocess]
  cases c.process with
  | none =>
    simp only [if_true]
    exact hprobe c
  | some launched =>
    simp only [hrunning]
    cases (host.noting.isRunning c.outside).1 with
    | false => rfl
    | true =>
      simp only [if_true]
      exact hprobe { c with
        outside := (host.noting.isRunning c.outside).2, process := some launched }

/-- Taking notes does not change what a client does. -/
theorem noting_projects (host : Host σ) :
    (engine host.noting).Projects unnoted (engine host) where
  setUp d setup c := by
    simp only [engine, setUp, send_unnoted]
    generalize c.send host.noting d .post "init-linter" (some (setupBody setup)) = a
    obtain ⟨value, c', log, interrupted⟩ := a
    cases value with
    | error err => rfl
    | ok text =>
      simp only [Answer.mapState]
      split <;> rfl
  isAlive d c := isAlive_unnoted host d c
  loadConfig d p c := by
    simp only [engine, loadConfig, send_unnoted]
    generalize Client.send host.noting d .post "tsconfig-files" _ c = a
    rfl
  analyze d request c := by
    simp only [engine, analyze, send_unnoted]
    generalize c.send host.noting d .post request.language.endpoint (some request.body) = a
    simp only [Answer.mapState]
    generalize decoded Response.decoder request.language.endpoint a.value = result
    cases result <;> rfl
  reset d c := by
    simp only [engine, reset, send_unnoted]
    generalize c.send host.noting d .post "new-tsconfig" none = a
    obtain ⟨value, c', log, interrupted⟩ := a
    cases value <;> rfl

/-! ## Requests for configurations -/

/-- What is sent to ask for a configuration. -/
def configBody (p : Path) : String := (Json.Value.object [("tsconfig", .string p.text)]).compact

/-- The message that asks for a configuration, unless the address of the bridge is none. -/
def configMessage? (c : Client σ) (p : Path) : Option Message :=
  (Address.parse? (c.base ++ "/" ++ "tsconfig-files")).map fun address =>
    ⟨address.origin, .post, address.target, some (configBody p), c.timeoutMs⟩

/-- A configuration has the path that was asked for, in normal form. -/
theorem path_of_configOf {p : Path} {result : Except EngineError ConfigAnswer}
    {config : ConfigFile} (h : configOf p result = .ok config) : config.path = p.normalize := by
  unfold configOf at h
  split at h
  · cases h
  · split at h
    · cases h
    · obtain rfl := Except.ok.inj h
      rfl

/-- A configuration that was loaded has been asked for with one message. -/
theorem loadConfig_noting {host : Host σ} {d : Disk} {p : Path}
    {c : Client (σ × List Message)} {config : ConfigFile}
    (h : ((engine host.noting).loadConfig d p c).value = .ok config) :
    config.path = p.normalize ∧
      ((engine host.noting).loadConfig d p c).state.sent.map some =
        c.sent.map some ++ [c.configMessage? p] ∧
      ((engine host.noting).loadConfig d p c).state.configMessage? = c.configMessage? := by
  simp only [engine, loadConfig] at h ⊢
  refine ⟨path_of_configOf h, ?_⟩
  unfold send sendWithin configMessage? at *
  cases haddress : Address.parse? (c.base ++ "/" ++ "tsconfig-files") with
  | none =>
    simp only [haddress] at h
    cases h
  | some address =>
    simp [haddress, sent, Host.noting, configBody]

/-- Loads that were answered have sent one message each, and given one configuration each. -/
theorem history_noting {host : Host σ} {c c' : Client (σ × List Message)} {calls : List Call}
    {configs : List ConfigFile} (h : (engine host.noting).History c calls c')
    (hloads : calls.map Call.config? = configs.map some) :
    configs.map ConfigFile.path = (calls.filterMap Call.path?).map Path.normalize ∧
      c'.sent.map some =
        c.sent.map some ++ (calls.filterMap Call.path?).map c.configMessage? := by
  induction h generalizing configs with
  | nil c =>
    obtain rfl : configs = [] := by simpa using hloads.symm
    simp
  | @cons c c₁ c' call calls makes _ ih =>
    cases configs with
    | nil => cases hloads
    | cons config configs =>
      obtain ⟨hfirst, hrest⟩ := List.cons.inj hloads
      obtain ⟨hpaths, hsent⟩ := ih hrest
      cases makes with
      | load disk path =>
        cases hvalue : ((engine host.noting).loadConfig disk path c).value with
        | error err =>
          rw [hvalue] at hfirst
          cases hfirst
        | ok loaded =>
          rw [hvalue] at hfirst
          obtain rfl : loaded = config := Option.some.inj hfirst
          obtain ⟨hpath, hone, hsame⟩ := loadConfig_noting hvalue
          rw [hone, hsame] at hsent
          simp only [List.map_cons, List.filterMap_cons, Call.path?]
          exact ⟨congrArg₂ List.cons hpath hpaths, hsent.trans (List.append_assoc _ _ _)⟩
      | _ => cases hfirst

/-- What was sent and what has come of it, when notes were taken. -/
theorem resolve_noting {host : Host σ} {d : Disk} {loads : Nat} {seeds : List Path}
    {c : Client σ} {configs : List ConfigFile} {s : Search (Client (σ × List Message))}
    (h : resolve (engine host.noting) d loads seeds c.noting = (some (.ok configs), s)) :
    s.engine.sent.map some = configs.map (fun config => c.configMessage? config.path) ∧
      (∀ config ∈ configs, config.path.normalize = config.path) ∧
      (configs.map ConfigFile.path).Nodup := by
  have hended := resolve_ended (engine host.noting) d loads seeds c.noting
  rw [h] at hended
  obtain ⟨hpending, hconfigs⟩ := hended
  have hloads : s.calls.map Call.config? = configs.map some := by rw [hpending.answered, hconfigs]
  obtain ⟨hpaths, hsent⟩ := history_noting hpending.history hloads
  -- What is loaded is in normal form.
  have hnormal : (s.calls.filterMap Call.path?).map Path.normalize =
      s.calls.filterMap Call.path? := by
    refine List.map_congr_left (g := id) (fun p hp => ?_) |>.trans (List.map_id _)
    rw [hpending.paths, List.mem_reverse] at hp
    obtain ⟨q, rfl⟩ := (hpending.visited_reached p hp).exists_normalize
    exact q.normalize_normalize
  rw [hnormal] at hpaths
  refine ⟨?_, ?_, ?_⟩
  · have hmessage : c.noting.configMessage? = c.configMessage? := by
      funext p
      simp only [configMessage?, noting]
    have hnothing : c.noting.sent = [] := rfl
    rw [hsent, ← hpaths, hmessage, hnothing, List.map_map, List.map_nil, List.nil_append,
      Function.comp_def]
  · intro config hconfig
    have hmem : config.path ∈ s.calls.filterMap Call.path? := hpaths ▸ List.mem_map_of_mem hconfig
    rw [← hnormal] at hmem
    obtain ⟨p, -, hp⟩ := List.mem_map.mp hmem
    rw [← hp, p.normalize_normalize]
  · rw [hpaths, hpending.paths]
    exact List.nodup_reverse.mpr hpending.nodup

/-- Whatever a bridge answers, a resolution over it that ends well gives configurations with the
paths that were sent: the messages of the resolution are the requests for these paths, one for
each configuration and in their order.  The paths are in normal form, and no two of them are the
same.  So the files of a project are in groups of different configurations, too. -/
theorem resolve_keeps_paths (host : Host σ) (d : Disk) (loads : Nat) (seeds : List Path)
    (c : Client σ) :
    (∀ configs, (resolve (engine host) d loads seeds c).1 = some (.ok configs) →
      ∃ search,
        resolve (engine host.noting) d loads seeds c.noting = (some (.ok configs), search) ∧
        search.mapEngine unnoted = (resolve (engine host) d loads seeds c).2 ∧
        search.engine.sent.map some = configs.map (fun config => c.configMessage? config.path) ∧
        (∀ config ∈ configs, config.path.normalize = config.path) ∧
        (configs.map ConfigFile.path).Nodup) ∧
    ∀ files groups,
      (resolveGroups (engine host) d loads seeds files c).1 = some (.ok groups) →
      ((groups.filterMap ConfigGroup.config).map ConfigFile.path).Nodup := by
  have hsame : resolve (engine host) d loads seeds c =
      ((resolve (engine host.noting) d loads seeds c.noting).1,
        (resolve (engine host.noting) d loads seeds c.noting).2.mapEngine unnoted) :=
    resolve_mapEngine (noting_projects host) d loads seeds c.noting
  constructor
  · intro configs hconfigs
    rw [hsame] at hconfigs ⊢
    have hnoting : resolve (engine host.noting) d loads seeds c.noting =
        (some (.ok configs), (resolve (engine host.noting) d loads seeds c.noting).2) :=
      Prod.ext hconfigs rfl
    exact ⟨_, hnoting, rfl, resolve_noting hnoting⟩
  · intro files groups hgroups
    unfold resolveGroups at hgroups
    split at hgroups
    · obtain rfl : groups = [] := by simpa using hgroups.symm
      exact List.nodup_nil
    · rw [hsame] at hgroups
      rcases hnoting : resolve (engine host.noting) d loads seeds c.noting with
        ⟨_ | err | configs, s⟩
      · simp [hnoting] at hgroups
      · simp [hnoting] at hgroups
      · simp only [hnoting, Option.some.injEq] at hgroups
        rw [eq_firstMatchGroups_of_partition hgroups]
        exact (resolve_noting hnoting).2.2.sublist
          ((sublist_firstMatchGroups configs files).map ConfigFile.path)

/-- A client of a bridge whose two answers name nothing but what they refer to. -/
def replayedClient : Client Replay :=
  connect "http://localhost:9/" 100 (.ofList
    [⟨.reply 200 "\x7b\"files\":[],\"projectReferences\":[\"sub\"]\x7d", false⟩,
      ⟨.reply 200 "\x7b\"files\":[\"/p/x.ts\"],\"projectReferences\":[\"../\"]\x7d",
        false⟩])

/-- Two spellings of one configuration are asked for once, and the one that it refers to refers
back to it. -/
theorem resolve_replayedClient_keeps_paths :
    ∃ configs search,
      resolve (engine Replay.host.noting) default 5
        [⟨"/q/../p/tsconfig.json"⟩, ⟨"/p//tsconfig.json"⟩] replayedClient.noting =
          (some (.ok configs), search) ∧
      search.engine.sent.map some =
        configs.map (fun config => replayedClient.configMessage? config.path) ∧
      configs.map ConfigFile.path = [⟨"/p/tsconfig.json"⟩, ⟨"/p/sub/tsconfig.json"⟩] ∧
      (configs.map ConfigFile.path).Nodup := by
  have hpaths : (resolve (engine Replay.host) default 5
      [⟨"/q/../p/tsconfig.json"⟩, ⟨"/p//tsconfig.json"⟩] replayedClient).1.map
      (fun result => result.toOption.map (List.map ConfigFile.path)) =
        some (some [⟨"/p/tsconfig.json"⟩, ⟨"/p/sub/tsconfig.json"⟩]) := by
    decide +kernel
  rcases hresolve : (resolve (engine Replay.host) default 5
      [⟨"/q/../p/tsconfig.json"⟩, ⟨"/p//tsconfig.json"⟩] replayedClient).1 with _ | err | configs
  · simp [hresolve] at hpaths
  · simp [hresolve, Except.toOption] at hpaths
  · obtain ⟨search, hnoting, -, hsent, -, hnodup⟩ :=
      (resolve_keeps_paths Replay.host default 5
        [⟨"/q/../p/tsconfig.json"⟩, ⟨"/p//tsconfig.json"⟩] replayedClient).1 configs hresolve
    refine ⟨configs, search, hnoting, hsent, ?_, hnodup⟩
    simpa [hresolve, Except.toOption] using hpaths

end Client

end LintRelay.Bridge
