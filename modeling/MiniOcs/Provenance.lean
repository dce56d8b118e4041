import MiniOcs.Concurrent.Provenance
import MiniOcs.Device.Replay
import MiniOcs.Gnmi.Log
import MiniOcs.World

/-!
# Where the published data come from

Every upsert that travels through the streams and hashes stands in the configuration log, every
stored result answers an issued command, and a connection is published as active only at the ports
and the version of such an upsert. The log and the command stream only grow, so what is said of
them may be read at any later moment.
-/
namespace MiniOcs
open Std Concurrent

/-! ## Records -/

/-- What an application asks of the device. -/
def Application.intent (a : Application) : ConnectionCommand where
  operation := a.operation
  id := a.id
  inputPort := a.inputPort
  outputPort := a.outputPort
  desiredVersion := a.desiredVersion

/-- What a state says is applied. -/
def ConnectionState.claim (state : ConnectionState) (id : String) : ConnectionCommand where
  id := id
  inputPort := state.inputPort
  outputPort := state.outputPort
  desiredVersion := state.appliedVersion

/-- Nothing else in the batch names the connection of an upsert. -/
def Definite (batch : List ConnectionCommand) : Prop :=
  ∀ c ∈ batch, c.operation = .upsert → ∀ c' ∈ batch, c'.id = c.id → c' = c

/-- What a result reports for an upsert is at its version. -/
def Confirms (batch : List ConnectionCommand) (result : ApplyResult) : Prop :=
  ∀ c ∈ batch, c.operation = .upsert → ∀ applied,
    result.connections.find? (fun item => item.id = c.id) = some applied →
      applied.appliedVersion = c.desiredVersion

section

variable (events : List Gnmi.ConfigEvent) (commands : List CommandEvent)

/-- An upsert is one of the log. -/
def Logged (c : ConnectionCommand) : Prop :=
  c.operation = .upsert → ∃ event ∈ events, c ∈ event.commands

structure Sourced (batch : List ConnectionCommand) : Prop where
  logged : ∀ c ∈ batch, Logged events c
  definite : Definite batch

structure Intended (id : String) (a : Application) : Prop where
  keyed : a.id = id
  logged : Logged events a.intent

/-- The batch was issued under the id. -/
def Issued (id : CommandId) (batch : List ConnectionCommand) : Prop :=
  ∃ event ∈ commands, event.id = id ∧ event.payload.commands = batch

/-- A success confirms the batch that was issued under the id. -/
def Answers (id : CommandId) (result : ApplyResult) : Prop :=
  result.isOk = true → ∃ batch, Issued commands id batch ∧ Confirms batch result

/-- An active connection is one of the log at the version it was published for. -/
structure Vouched (id : String) (state : ConnectionState) : Prop where
  version : state.applyStatus = .active → state.appliedVersion = state.desiredVersion
  logged : state.applyStatus = .active → Logged events (state.claim id)

end

section Growing

variable {events events' : List Gnmi.ConfigEvent} {commands commands' : List CommandEvent}

theorem Logged.mono {c : ConnectionCommand} (h : Logged events c) (hsub : events ⊆ events') :
    Logged events' c := by
  intro hop
  obtain ⟨event, hmem, hc⟩ := h hop
  exact ⟨event, hsub hmem, hc⟩

theorem Sourced.mono {batch : List ConnectionCommand} (h : Sourced events batch)
    (hsub : events ⊆ events') : Sourced events' batch :=
  ⟨fun c hc => (h.logged c hc).mono hsub, h.definite⟩

theorem Intended.mono {id : String} {a : Application} (h : Intended events id a)
    (hsub : events ⊆ events') : Intended events' id a :=
  ⟨h.keyed, h.logged.mono hsub⟩

theorem Issued.mono {id : CommandId} {batch : List ConnectionCommand} (h : Issued commands id batch)
    (hsub : commands ⊆ commands') : Issued commands' id batch := by
  obtain ⟨event, hmem, heq⟩ := h
  exact ⟨event, hsub hmem, heq⟩

theorem Answers.mono {id : CommandId} {result : ApplyResult} (h : Answers commands id result)
    (hsub : commands ⊆ commands') : Answers commands' id result := by
  intro hok
  obtain ⟨batch, hissued, hconfirms⟩ := h hok
  exact ⟨batch, hissued.mono hsub, hconfirms⟩

theorem Vouched.mono {id : String} {state : ConnectionState} (h : Vouched events id state)
    (hsub : events ⊆ events') : Vouched events' id state :=
  ⟨h.version, fun hactive => (h.logged hactive).mono hsub⟩

theorem Logged.of_remove {c : ConnectionCommand} (h : c.operation = .remove) : Logged events c := by
  intro hop
  rw [h] at hop
  cases hop

theorem Definite.sublist {batch batch' : List ConnectionCommand} (h : Definite batch)
    (hsub : batch' ⊆ batch) : Definite batch' :=
  fun c hc hop c' hc' hid => h c (hsub hc) hop c' (hsub hc') hid

theorem Sourced.subset {batch batch' : List ConnectionCommand} (h : Sourced events batch)
    (hsub : batch' ⊆ batch) : Sourced events batch' :=
  ⟨fun c hc => h.logged c (hsub hc), h.definite.sublist hsub⟩

end Growing

/-! ## What a service may ask for and is told -/

section

variable (events : List Gnmi.ConfigEvent) (commands : List CommandEvent)

def OrchHashOk : (k : OrchKey) → OrchHash k → Prop
  | .configBatch _, batch => Sourced events batch.commands
  | _, _ => True

def SyncdHashOk : (k : SyncdKey) → SyncdHash k → Prop
  | .applyAttempt _, batch => Sourced events batch.commands
  | .applyResult command, stored => Answers commands command stored.result
  | _, _ => True

/-- A command that may be issued. -/
structure Issuable (event : CommandEvent) : Prop where
  sourced : Sourced events event.payload.commands
  decodes : decodeDeviceCommand event.payload = .ok event.payload

/-- The marker under which the orchestrator issues a command. -/
def OrchMarks : OrchKey → CommandId → Prop
  | .deviceCommandPublication e, id => id = .config e
  | .retryCommandPublication retry, id => id = retry.command
  | _, _ => False

/-- The marker under which syncd issues a command. -/
def SyncdMarks : SyncdKey → CommandId → Prop
  | .generationRecovery generation, id => id = .recovery generation
  | .reconciliationCommandPublication command, id => id = command ∧ id.isReconciliation = true
  | _, _ => False

def OrchAsks : OrchOp → Prop
  | .putHashIfAbsent k v => OrchHashOk events k v
  | .putVersionedHashes _ marker fields _ hashes => OrchHashOk events marker fields ∧
      ∀ entry ∈ hashes, ∀ a, entry.2 = some a → Intended events entry.1 a
  | .appendCommandOnce marker _ event => OrchMarks marker event.id ∧ Issuable events event
  | .appendRetryOnce marker fields event => OrchHashOk events marker fields ∧
      Sourced events event.batch.commands
  | .replaceAlarmOnce marker fields _ _ _ => OrchHashOk events marker fields
  | .incrementOnce marker fields _ => OrchHashOk events marker fields
  | _ => True

def SyncdAsks : SyncdOp → Prop
  | .putHash k v => SyncdHashOk events commands k v
  | .putHashIfAbsent k v => SyncdHashOk events commands k v
  | .putHashesAtomically hashes => ∀ entry ∈ hashes, SyncdHashOk events commands entry.1 entry.2
  | .replaceHashAndAppendEvent k v _ => SyncdHashOk events commands k v
  | .replaceStateOnce marker fields id state _ => SyncdHashOk events commands marker fields ∧
      ∀ value, state = some value → Vouched events id value
  | .replaceAlarmOnce marker fields _ _ _ => SyncdHashOk events commands marker fields
  | .appendResultOnce marker fields _ => SyncdHashOk events commands marker fields
  | .appendCommandOnce marker _ event => SyncdMarks marker event.id ∧ Issuable events event
  | .incrementOnce marker fields _ => SyncdHashOk events commands marker fields
  | .applyConnections batch options => ∃ id, options.operationId = some id ∧
      Issued commands id batch
  | _ => True

def Asks : Op → Prop
  | .orch o => OrchAsks events o
  | .syncd o => SyncdAsks events commands o

/-- An entry that a stream of the orchestrator holds. -/
def EntryOk : (g : OrchGroup) → g.Entry → Prop
  | .config, event => event ∈ events
  | .results, _ => True
  | .retries, retry => Sourced events retry.batch.commands

def OrchTold : (o : OrchOp) → o.Reply → Prop
  | .xclaim g _, reply => ∀ event, reply = some event → EntryOk events g event
  | .readGroup g, reply => ∀ n event, reply = some (n, event) → EntryOk events g event
  | .getAppl id, reply => ∀ a, reply = some a → Intended events id a
  | .getHash k, reply => ∀ v, reply = some v → OrchHashOk events k v
  | .getAttempt _, reply => ∀ batch, reply = some batch → Sourced events batch.commands
  | _, _ => True

def SyncdTold : (o : SyncdOp) → o.Reply → Prop
  | .xclaim _, reply => ∀ event, reply = some event → event ∈ commands
  | .readGroup, reply => ∀ n event, reply = some (n, event) → event ∈ commands
  | .getConfig _, reply => ∀ config, reply = some config → Logged events {
      id := config.connectionId
      inputPort := config.inputPort
      outputPort := config.outputPort
      desiredVersion := config.desiredVersion }
  | .scanDevice, keys => keys.Nodup
  | .getDevice id, reply => ∀ a, reply = some a → Intended events id a
  | .getHash k, reply => ∀ v, reply = some v → SyncdHashOk events commands k v
  | .applyConnections batch _, reply => ∀ result, reply = .ok result → result.isOk = true →
      Confirms batch result
  | _, _ => True

def Told : (o : Op) → o.Reply → Prop
  | .orch o, reply => OrchTold events o reply
  | .syncd o, reply => SyncdTold events commands o reply

end

/-- Every call of the program may be made, and its result satisfies `Q`. -/
abbrev Passes {α : Type} (events : List Gnmi.ConfigEvent) (commands : List CommandEvent) (Q : α → Prop)
    (p : Service α) : Prop :=
  p.Given (Asks events commands) (Told events commands) Q

/-- Every call of the program may be made. -/
abbrev Respects {α : Type} (events : List Gnmi.ConfigEvent) (commands : List CommandEvent)
    (p : Service α) : Prop :=
  Passes events commands (fun _ => True) p

/-! ## The invariant -/

/-- What the orchestrator has written. -/
structure OrchGrounded (events : List Gnmi.ConfigEvent) (o : OrchState) : Prop where
  table : ∀ copy id a, (o.table copy)[id]? = some a → Intended events id a
  hash : ∀ k v, o.hash k = some v → OrchHashOk events k v
  retries : ∀ retry ∈ o.retries, Sourced events retry.batch.commands

/-- What syncd has written. -/
structure SyncdGrounded (events : List Gnmi.ConfigEvent) (commands : List CommandEvent)
    (s : SyncdState) : Prop where
  hash : ∀ k v, s.hash k = some v → SyncdHashOk events commands k v
  state : ∀ (id : String) value, s.state[id]? = some value → Vouched events id value

/-- A command is issued once, under its marker. -/
def Marked (o : OrchState) (s : SyncdState) : CommandId → Prop
  | .config e => (o.hash (.deviceCommandPublication e)).isSome
  | .retry failed attempt => (o.hash (.retryCommandPublication ⟨failed, attempt⟩)).isSome
  | .recovery generation => (s.hash (.generationRecovery generation)).isSome
  | .reconcile time => (s.hash (.reconciliationCommandPublication (.reconcile time))).isSome

structure StreamGrounded (events : List Gnmi.ConfigEvent) (o : OrchState) (s : SyncdState)
    (commands : List CommandEvent) : Prop where
  issuable : ∀ event ∈ commands, Issuable events event
  marked : ∀ event ∈ commands, Marked o s event.id
  nodup : (commands.map (·.id)).Nodup

/-- What the device answers a repeated operation with. -/
structure DeviceGrounded (commands : List CommandEvent) (d : SimulatedOcsDevice CommandId) :
    Prop where
  sound : d.Sound
  cached : ∀ id result, d.applyResults.lookup id = some result → Answers commands id result

structure Grounded (w : World) : Prop where
  log : Gnmi.Log w.inventory w.config
  orch : OrchGrounded w.config.events w.orch
  syncd : SyncdGrounded w.config.events w.commands w.syncd
  stream : StreamGrounded w.config.events w.orch w.syncd w.commands
  device : DeviceGrounded w.commands w.hwsim

/-- The log and the command stream only grow. -/
structure Grows (s t : World) : Prop where
  events : s.config.events ⊆ t.config.events
  commands : s.commands ⊆ t.commands

theorem Grows.refl (w : World) : Grows w w := ⟨List.Subset.refl _, List.Subset.refl _⟩

theorem Grows.of_eq {s t : World} (h : t.config.events = s.config.events)
    (h' : t.commands = s.commands) : Grows s t :=
  ⟨h ▸ List.Subset.refl _, h' ▸ List.Subset.refl _⟩

theorem Grows.trans {a b c : World} (h : Grows a b) (h' : Grows b c) : Grows a c :=
  ⟨List.Subset.trans h.events h'.events, List.Subset.trans h.commands h'.commands⟩

/-! ## The device -/

section Device

/-- The table entry that an upsert makes. -/
def made (c : ConnectionCommand) : AppliedConnection := ⟨c.id, c.inputPort, c.outputPort, c.desiredVersion⟩

theorem getElem?_foldCommands_definite {c : ConnectionCommand} (hop : c.operation = .upsert)
    {batch : List ConnectionCommand} (hall : ∀ c' ∈ batch, c'.id = c.id → c' = c)
    {table : ExtTreeMap String AppliedConnection} (h : table[c.id]? = some (made c) ∨ c ∈ batch) :
    (foldCommands table batch)[c.id]? = some (made c) := by
  induction batch generalizing table with
  | nil =>
      rcases h with h | h
      · exact h
      · cases h
  | cons c' rest ih =>
      refine ih (fun b hb => hall b (List.mem_cons_of_mem _ hb)) ?_
      rw [getElem?_editCommand]
      by_cases hid : c'.id = c.id
      · have heq := hall c' List.mem_cons_self hid
        subst heq
        simp [hop, made]
      · rw [if_neg hid]
        refine h.imp_right fun hmem => ?_
        rcases List.mem_cons.mp hmem with rfl | hmem
        · exact absurd rfl hid
        · exact hmem

theorem confirms_changedConnections {batch : List ConnectionCommand} (hdef : Definite batch)
    {table : ExtTreeMap String AppliedConnection}
    (hkeyed : ∀ (id : String) c, (foldCommands table batch)[id]? = some c → c.id = id) (error : Error) :
    Confirms batch ⟨error, SimulatedOcsDevice.changedConnections (foldCommands table batch) batch⟩ := by
  intro c hc hop applied hfind
  obtain ⟨c', hc', hget⟩ := List.mem_filterMap.mp (List.mem_of_find?_eq_some hfind)
  have hid : applied.id = c.id := by simpa using List.find?_some hfind
  have heq := hdef c hc hop c' hc' ((hkeyed _ _ hget).symm.trans hid)
  subst heq
  rw [getElem?_foldCommands_definite hop (hdef c' hc hop) (.inr hc)] at hget
  cases hget
  rfl

open SimulatedOcsDevice in
/-- A successful batch that is applied now confirms itself. -/
theorem SimulatedOcsDevice.Outcome.confirms {d : SimulatedOcsDevice CommandId} (hsound : d.Sound)
    {batch : List ConnectionCommand} (hdef : Definite batch) {options : ApplyOptions CommandId}
    {r : ApplyResult × SimulatedOcsDevice CommandId} (h : Outcome d batch options r)
    (hok : r.1.isOk = true) : Confirms batch r.1 := by
  cases h with
  | refused herror _ =>
      rw [finish_fst] at hok
      exact absurd hok (by simpa [ApplyResult.isOk] using herror)
  | injected herror _ _ _ =>
      rw [finish_fst] at hok
      exact absurd hok (by simpa [ApplyResult.isOk] using herror)
  | applied _ hvalid _ _ =>
      rw [finish_fst]
      exact confirms_changedConnections hdef (fun id c hc => (hsound.keyed_fold hvalid id c hc).1) _

open SimulatedOcsDevice in
theorem SimulatedOcsDevice.Outcome.lookup {d : SimulatedOcsDevice CommandId}
    {batch : List ConnectionCommand} {options : ApplyOptions CommandId}
    {r : ApplyResult × SimulatedOcsDevice CommandId} (h : Outcome d batch options r)
    {id : CommandId} {result : ApplyResult} (hget : r.2.applyResults.lookup id = some result) :
    options.operationId = some id ∧ result = r.1 ∨ d.applyResults.lookup id = some result := by
  obtain ⟨d₀, hres, -, hfinish⟩ := h.cache
  have hrec := d₀.finish_recorded options r.1
  rw [← hfinish] at hrec
  cases hop : options.operationId with
  | none =>
      rw [(hrec.silent hop).1, hres] at hget
      exact .inr hget
  | some op =>
      by_cases hid : id = op
      · subst hid
        rw [hrec.stored id hop] at hget
        exact .inl ⟨rfl, (Option.some.inj hget).symm⟩
      · rw [hrec.kept op hop id hid, hres] at hget
        split_ifs at hget
        exact .inr hget

/-- A call without an operation id makes the device remember nothing new. -/
theorem SimulatedOcsDevice.Sound.call_lookup {d d' : SimulatedOcsDevice CommandId} (h : d.Sound)
    {call : SimulatedOcsDevice.Call CommandId}
    (hop : ∀ commands options, call = .applyConnections commands options →
      options.operationId = none)
    (hrun : call.run d = .ok d') {id : CommandId} {result : ApplyResult}
    (hget : d'.applyResults.lookup id = some result) :
    d.applyResults.lookup id = some result := by
  cases hreset : call.isReset with
  | true =>
      cases call with
      | reset mode =>
          simp only [SimulatedOcsDevice.Call.run, SimulatedOcsDevice.reset] at hrun
          split at hrun
          · cases hrun
            cases hget
          · cases hrun
      | _ => cases hreset
  | false =>
      obtain ⟨d'', hrun', hcases⟩ := h.call_cases hreset
      rw [hrun] at hrun'
      cases hrun'
      rcases hcases with ⟨-, hdist⟩ |
        ⟨commands, options, heq, reply, -, ⟨-, rfl⟩ | ⟨-, hout⟩⟩
      · rw [← hdist.applyResults]
        exact hget
      · exact hget
      · refine (hout.lookup hget).resolve_left fun hown => ?_
        rw [hop commands options heq] at hown
        cases hown.1

/-- What an apply leaves in the device, and what it replies. -/
theorem DeviceGrounded.apply {events : List Gnmi.ConfigEvent} {commands : List CommandEvent}
    {d : SimulatedOcsDevice CommandId} (h : DeviceGrounded commands d)
    (hissuable : ∀ event ∈ commands, Issuable events event)
    (hnodup : (commands.map (·.id)).Nodup) {batch : List ConnectionCommand}
    {options : ApplyOptions CommandId} {id : CommandId} (hop : options.operationId = some id)
    (hissued : Issued commands id batch) :
    ∃ r, d.applyConnections batch options = .ok r ∧ DeviceGrounded commands r.2 ∧
      (r.1.isOk = true → Confirms batch r.1) := by
  obtain ⟨event, hmem, rfl, rfl⟩ := hissued
  obtain ⟨r, hr, hsound⟩ := h.sound.applyConnections event.payload.commands options
  refine ⟨r, hr, ?_⟩
  cases hcached : d.cachedResult options with
  | some cached =>
      simp only [SimulatedOcsDevice.applyConnections, hcached, Except.ok.injEq] at hr
      subst hr
      refine ⟨h, fun hok => ?_⟩
      rw [SimulatedOcsDevice.cachedResult, hop] at hcached
      obtain ⟨batch, ⟨event', hmem', hid, rfl⟩, hconfirms⟩ := h.cached _ _ hcached hok
      rwa [List.inj_on_of_nodup_map hnodup hmem' hmem hid] at hconfirms
  | none =>
      obtain ⟨r', hr', hout⟩ := h.sound.outcome event.payload.commands hcached
      rw [hr] at hr'
      cases hr'
      have hconfirms : r.1.isOk = true → Confirms event.payload.commands r.1 :=
        hout.confirms h.sound (hissuable event hmem).sourced.definite
      refine ⟨⟨hsound, fun id' result hget => ?_⟩, hconfirms⟩
      rcases hout.lookup hget with ⟨hid, rfl⟩ | hget
      · rw [hop] at hid
        cases hid
        exact fun hok => ⟨_, ⟨event, hmem, rfl, rfl⟩, hconfirms hok⟩
      · exact h.cached id' result hget

end Device

/-! ## Operations keep the invariant -/

section Growing

variable {events events' : List Gnmi.ConfigEvent} {commands commands' : List CommandEvent}

theorem OrchHashOk.mono {k : OrchKey} {v : OrchHash k} (h : OrchHashOk events k v)
    (hsub : events ⊆ events') : OrchHashOk events' k v := by
  cases k with
  | configBatch source => exact Sourced.mono h hsub
  | _ => trivial

theorem SyncdHashOk.mono {k : SyncdKey} {v : SyncdHash k} (h : SyncdHashOk events commands k v)
    (hsub : events ⊆ events') (hsub' : commands ⊆ commands') :
    SyncdHashOk events' commands' k v := by
  cases k with
  | applyAttempt command => exact Sourced.mono h hsub
  | applyResult command => exact Answers.mono h hsub'
  | _ => trivial

theorem Issuable.mono {event : CommandEvent} (h : Issuable events event)
    (hsub : events ⊆ events') : Issuable events' event :=
  ⟨h.sourced.mono hsub, h.decodes⟩

theorem EntryOk.mono {g : OrchGroup} {event : g.Entry} (h : EntryOk events g event)
    (hsub : events ⊆ events') : EntryOk events' g event := by
  cases g with
  | config => exact hsub h
  | results => trivial
  | retries => exact Sourced.mono h hsub

theorem OrchTold.mono {o : OrchOp} {reply : o.Reply} (h : OrchTold events o reply)
    (hsub : events ⊆ events') : OrchTold events' o reply := by
  cases o with
  | xclaim g n => exact fun event he => EntryOk.mono (h event he) hsub
  | readGroup g => exact fun n event he => EntryOk.mono (h n event he) hsub
  | getAppl id => exact fun a ha => (h a ha).mono hsub
  | getHash k => exact fun v hv => OrchHashOk.mono (h v hv) hsub
  | getAttempt command => exact fun batch hb => (h batch hb).mono hsub
  | _ => trivial

theorem SyncdTold.mono {o : SyncdOp} {reply : o.Reply} (h : SyncdTold events commands o reply)
    (hsub : events ⊆ events') (hsub' : commands ⊆ commands') :
    SyncdTold events' commands' o reply := by
  cases o with
  | xclaim n => exact fun event he => hsub' (h event he)
  | readGroup => exact fun n event he => hsub' (h n event he)
  | getConfig id => exact fun config hc => (h config hc).mono hsub
  | scanDevice => exact h
  | getDevice id => exact fun a ha => (h a ha).mono hsub
  | getHash k => exact fun v hv => SyncdHashOk.mono (h v hv) hsub hsub'
  | applyConnections batch options => exact h
  | _ => trivial

theorem Told.mono {o : Op} {reply : o.Reply} (h : Told events commands o reply)
    (hsub : events ⊆ events') (hsub' : commands ⊆ commands') : Told events' commands' o reply := by
  cases o with
  | orch o => exact OrchTold.mono h hsub
  | syncd o => exact SyncdTold.mono h hsub hsub'

theorem OrchGrounded.mono {o : OrchState} (h : OrchGrounded events o) (hsub : events ⊆ events') :
    OrchGrounded events' o where
  table copy id a ha := (h.table copy id a ha).mono hsub
  hash k v hv := (h.hash k v hv).mono hsub
  retries retry hmem := (h.retries retry hmem).mono hsub

theorem SyncdGrounded.mono {s : SyncdState} (h : SyncdGrounded events commands s)
    (hsub : events ⊆ events') (hsub' : commands ⊆ commands') :
    SyncdGrounded events' commands' s where
  hash k v hv := (h.hash k v hv).mono hsub hsub'
  state id value hv := (h.state id value hv).mono hsub

theorem DeviceGrounded.mono {d : SimulatedOcsDevice CommandId} (h : DeviceGrounded commands d)
    (hsub : commands ⊆ commands') : DeviceGrounded commands' d :=
  ⟨h.sound, fun id result hget => (h.cached id result hget).mono hsub⟩

theorem StreamGrounded.mono {o : OrchState} {s : SyncdState}
    (h : StreamGrounded events o s commands) (hsub : events ⊆ events') :
    StreamGrounded events' o s commands :=
  ⟨fun event hmem => (h.issuable event hmem).mono hsub, h.marked, h.nodup⟩

end Growing

section Orch

variable {events : List Gnmi.ConfigEvent} {commands : List CommandEvent} {o : OrchState}
  {s : SyncdState} {w : World}

theorem OrchGrounded.setHash (h : OrchGrounded events o) {k : OrchKey} {v : OrchHash k}
    (hv : OrchHashOk events k v) : OrchGrounded events (o.setHash k v) where
  table := h.table
  hash k' v' hv' := by
    by_cases hk : k' = k
    · subst hk
      simp only [OrchState.setHash, Function.update_self, Option.some.injEq] at hv'
      exact hv' ▸ hv
    · simp only [OrchState.setHash, Function.update_of_ne hk] at hv'
      exact h.hash k' v' hv'
  retries := h.retries

/-- Markers stay. -/
theorem Marked.setHash {id : CommandId} (h : Marked o s id) (k : OrchKey) (v : OrchHash k) :
    Marked (o.setHash k v) s id := by
  have hkept : ∀ k', (o.hash k').isSome → ((o.setHash k v).hash k').isSome := by
    intro k' hk'
    by_cases hk : k' = k
    · subst hk
      simp [OrchState.setHash]
    · simpa only [OrchState.setHash, Function.update_of_ne hk] using hk'
  cases id with
  | config e => exact hkept _ h
  | retry failed attempt => exact hkept _ h
  | recovery generation => exact h
  | reconcile time => exact h

theorem StreamGrounded.setHash (h : StreamGrounded events o s commands) (k : OrchKey)
    (v : OrchHash k) : StreamGrounded events (o.setHash k v) s commands :=
  ⟨h.issuable, fun event hmem => (h.marked event hmem).setHash k v, h.nodup⟩

theorem Grounded.mark (h : Grounded w) {k : OrchKey} {v : OrchHash k}
    (hv : OrchHashOk w.config.events k v) : Grounded (w.mark k v) :=
  ⟨h.log, h.orch.setHash hv, h.syncd, h.stream.setHash k v, h.device⟩

/-- A marker that is not set marks no issued command. -/
theorem Grounded.fresh (h : Grounded w) {id : CommandId} (hm : ¬Marked w.orch w.syncd id) :
    ∀ event ∈ w.commands, event.id ≠ id := by
  rintro event hmem rfl
  exact hm (h.stream.marked event hmem)

theorem Grounded.issue (h : Grounded w) {event : CommandEvent}
    (hissuable : Issuable w.config.events event) (hm : Marked w.orch w.syncd event.id)
    (hfresh : ∀ event' ∈ w.commands, event'.id ≠ event.id) :
    Grounded { w with commands := w.commands ++ [event] } := by
  have hsub : w.commands ⊆ w.commands ++ [event] := List.subset_append_left _ _
  refine ⟨h.log, h.orch, h.syncd.mono (List.Subset.refl _) hsub, ⟨?_, ?_, ?_⟩, h.device.mono hsub⟩
  · intro event' hmem
    rcases List.mem_append.mp hmem with hmem | hmem
    · exact h.stream.issuable event' hmem
    · cases List.mem_singleton.mp hmem
      exact hissuable
  · intro event' hmem
    rcases List.mem_append.mp hmem with hmem | hmem
    · exact h.stream.marked event' hmem
    · cases List.mem_singleton.mp hmem
      exact hm
  · rw [List.map_append, List.nodup_append]
    refine ⟨h.stream.nodup, by simp, ?_⟩
    rintro a ha b hb rfl
    obtain ⟨event', hmem, rfl⟩ := List.mem_map.mp ha
    exact hfresh event' hmem (by simpa using hb)

theorem marked_of_orchMarks {marker : OrchKey} {id : CommandId} (h : OrchMarks marker id) :
    Marked o s id ↔ (o.hash marker).isSome := by
  cases marker with
  | deviceCommandPublication e => cases h; rfl
  | retryCommandPublication retry => cases h; rfl
  | _ => cases h

theorem OrchGrounded.setGroup (h : OrchGrounded events o) (g : OrchGroup) (group : Group) :
    OrchGrounded events (o.setGroup g group) := by
  cases g <;> exact ⟨h.table, h.hash, h.retries⟩

theorem StreamGrounded.setGroup (h : StreamGrounded events o s commands) (g : OrchGroup)
    (group : Group) : StreamGrounded events (o.setGroup g group) s commands := by
  cases g <;> exact ⟨h.issuable, h.marked, h.nodup⟩

theorem intended_putEntries {table : Table} {entries : List (String × Option Application)}
    (htable : ∀ (id : String) a, table[id]? = some a → Intended events id a)
    (hentries : ∀ entry ∈ entries, ∀ a, entry.2 = some a → Intended events entry.1 a) :
    ∀ (id : String) a, (entries.foldl (fun t entry => putEntry t entry.1 entry.2) table)[id]? =
      some a → Intended events id a := by
  induction entries generalizing table with
  | nil => exact htable
  | cons entry rest ih =>
      refine ih (fun id a ha => ?_) fun e he => hentries e (List.mem_cons_of_mem _ he)
      rw [getElem?_putEntry] at ha
      split_ifs at ha with hid
      · subst hid
        exact hentries entry List.mem_cons_self a ha
      · exact htable id a ha

theorem OrchGrounded.setTable (h : OrchGrounded events o) (copy : Copy) (version : Nat)
    {hashes : List (String × Option Application)}
    (hentries : ∀ entry ∈ hashes, ∀ a, entry.2 = some a → Intended events entry.1 a) :
    OrchGrounded events (o.setTable copy (putVersioned (o.table copy) version hashes)) := by
  have hentries' : ∀ entry ∈ publishable (o.table copy) version hashes, ∀ a, entry.2 = some a →
      Intended events entry.1 a := fun entry hmem => hentries entry (List.mem_filter.mp hmem).1
  have hput := intended_putEntries (h.table copy) hentries'
  cases copy with
  | appl =>
      refine ⟨fun copy' => ?_, h.hash, h.retries⟩
      cases copy' with
      | appl => exact hput
      | device => exact h.table .device
  | device =>
      refine ⟨fun copy' => ?_, h.hash, h.retries⟩
      cases copy' with
      | appl => exact h.table .appl
      | device => exact hput

theorem StreamGrounded.setTable (h : StreamGrounded events o s commands) (copy : Copy)
    (table : Table) : StreamGrounded events (o.setTable copy table) s commands := by
  cases copy <;> exact ⟨h.issuable, h.marked, h.nodup⟩

/-- Alarms are not looked at. -/
theorem OrchGrounded.alarm (h : OrchGrounded events o) (connection : String) (alarm : Option Alarm) :
    OrchGrounded events
      { o with hash := Function.update o.hash (.activeAlarm connection) alarm } where
  table copy := by
    cases copy with
    | appl => exact h.table .appl
    | device => exact h.table .device
  hash k v hv := by
    by_cases hk : k = .activeAlarm connection
    · subst hk
      trivial
    · exact h.hash k v (by simpa only [Function.update_of_ne hk] using hv)
  retries := h.retries

theorem Marked.alarm {id : CommandId} (h : Marked o s id) (connection : String)
    (alarm : Option Alarm) :
    Marked { o with hash := Function.update o.hash (.activeAlarm connection) alarm } s id := by
  cases id with
  | config e =>
      have hk : OrchKey.deviceCommandPublication e ≠ .activeAlarm connection := nofun
      simpa only [Marked, Function.update_of_ne hk] using h
  | retry failed attempt =>
      have hk : OrchKey.retryCommandPublication ⟨failed, attempt⟩ ≠ .activeAlarm connection := nofun
      simpa only [Marked, Function.update_of_ne hk] using h
  | recovery generation => exact h
  | reconcile time => exact h

/-- A block guarded by a marker. -/
theorem Grounded.once (h : Grounded w) {marker : OrchKey} {fields : OrchHash marker}
    {write : World → World}
    (hwrite : w.orch.hash marker = none → Grounded ((write w).mark marker fields)) :
    Grounded (w.once marker fields write).2 := by
  unfold World.once
  split_ifs with hm
  · exact h
  · exact hwrite (by simpa using hm)

theorem Grounded.execOrch (h : Grounded w) {op : OrchOp} (ha : OrchAsks w.config.events op)
    (choice : Nat) : Grounded (op.exec choice w).2 := by
  cases op with
  | readGroup g =>
      exact ⟨h.log, h.orch.setGroup g _, h.syncd, h.stream.setGroup g _, h.device⟩
  | xack g n =>
      exact ⟨h.log, h.orch.setGroup g _, h.syncd, h.stream.setGroup g _, h.device⟩
  | putHashIfAbsent k v => exact h.once fun _ => h.mark ha
  | putVersionedHashes copy marker fields version hashes =>
      simp only [OrchOp.exec]
      split_ifs
      · exact h
      · exact h
      · have hstaged : Grounded (w.setOrch
            (w.orch.setTable copy (putVersioned (w.orch.table copy) version hashes))) :=
          ⟨h.log, h.orch.setTable copy version ha.2, h.syncd, h.stream.setTable copy _, h.device⟩
        exact hstaged.mark ha.1
  | appendCommandOnce marker fields event =>
      refine h.once fun hnone => ?_
      have hfields : OrchHashOk w.config.events marker fields := by
        have hmarks := ha.1
        cases marker with
        | configBatch source => cases hmarks
        | _ => trivial
      have hmarked : Grounded (w.mark marker fields) := h.mark hfields
      refine hmarked.issue ha.2 ((marked_of_orchMarks ha.1).mpr (by simp)) (h.fresh fun hm => ?_)
      rw [marked_of_orchMarks ha.1, hnone] at hm
      cases hm
  | appendRetryOnce marker fields event =>
      refine h.once fun _ => ?_
      have hadded : OrchGrounded w.config.events
          { w.orch with retries := w.orch.retries ++ [event] } := by
        refine ⟨fun copy => ?_, h.orch.hash, fun retry hmem => ?_⟩
        · cases copy with
          | appl => exact h.orch.table .appl
          | device => exact h.orch.table .device
        · rcases List.mem_append.mp hmem with hmem | hmem
          · exact h.orch.retries retry hmem
          · cases List.mem_singleton.mp hmem
            exact ha.2
      have hgrounded : Grounded (w.setOrch { w.orch with retries := w.orch.retries ++ [event] }) :=
        ⟨h.log, hadded, h.syncd, ⟨h.stream.issuable, h.stream.marked, h.stream.nodup⟩, h.device⟩
      exact hgrounded.mark ha.1
  | replaceAlarmOnce marker fields connection alarm event =>
      refine h.once fun _ => ?_
      have hgrounded : Grounded { w with
          orch := { w.orch with
            hash := Function.update w.orch.hash (.activeAlarm connection) alarm }
          alarmEvents := w.alarmEvents ++ [event] } :=
        ⟨h.log, h.orch.alarm connection alarm, h.syncd, ⟨h.stream.issuable,
          fun event' hmem => (h.stream.marked event' hmem).alarm connection alarm,
          h.stream.nodup⟩, h.device⟩
      exact hgrounded.mark ha
  | incrementOnce marker fields increments =>
      refine h.once fun _ => ?_
      have hgrounded : Grounded
          { w with counters := w.counters ++ [{ increments := increments }] } :=
        ⟨h.log, h.orch, h.syncd, h.stream, h.device⟩
      exact hgrounded.mark ha
  | _ => exact h

theorem Grounded.toldOrch (h : Grounded w) (op : OrchOp) (choice : Nat) :
    OrchTold w.config.events op (op.exec choice w).1 := by
  have hentry : ∀ (g : OrchGroup) (n : Nat) event, (w.stream g)[n]? = some event →
      EntryOk w.config.events g event := by
    intro g n event hget
    cases g with
    | config => exact List.mem_of_getElem? hget
    | results => trivial
    | retries => exact h.orch.retries event (List.mem_of_getElem? hget)
  cases op with
  | xclaim g n =>
      intro event he
      simp only [OrchOp.exec] at he
      split_ifs at he
      exact hentry g n event he
  | readGroup g =>
      intro n event he
      simp only [OrchOp.exec] at he
      obtain ⟨m, -, hmap⟩ := Option.bind_eq_some_iff.mp he
      obtain ⟨event', hget, heq⟩ := Option.map_eq_some_iff.mp hmap
      cases heq
      exact hentry g n event hget
  | getAppl id => exact fun a ha => h.orch.table .appl id a ha
  | getHash k => exact fun v hv => h.orch.hash k v hv
  | getAttempt command => exact fun batch hb => h.syncd.hash (.applyAttempt command) batch hb
  | _ => trivial

theorem growsOrch (op : OrchOp) (choice : Nat) (w : World) : Grows w (op.exec choice w).2 := by
  have honce : ∀ (marker : OrchKey) (fields : OrchHash marker) (write : World → World),
      Grows w (write w) → Grows w (w.once marker fields write).2 := by
    intro marker fields write hg
    unfold World.once
    split_ifs
    · exact .refl w
    · exact ⟨hg.events, hg.commands⟩
  cases op with
  | putHashIfAbsent k v => exact honce k v id (.refl w)
  | putVersionedHashes copy marker fields version hashes =>
      simp only [OrchOp.exec]
      split_ifs <;> exact .of_eq rfl rfl
  | appendCommandOnce marker fields event =>
      exact honce marker fields _ ⟨List.Subset.refl _, List.subset_append_left _ _⟩
  | appendRetryOnce marker fields event => exact honce marker fields _ (.of_eq rfl rfl)
  | replaceAlarmOnce marker fields connection alarm event =>
      exact honce marker fields _ (.of_eq rfl rfl)
  | incrementOnce marker fields increments => exact honce marker fields _ (.of_eq rfl rfl)
  | _ => exact .of_eq rfl rfl

end Orch

section Syncd

variable {events : List Gnmi.ConfigEvent} {commands : List CommandEvent} {o : OrchState}
  {s : SyncdState} {w : World}

theorem SyncdGrounded.setHash (h : SyncdGrounded events commands s) {k : SyncdKey}
    {v : SyncdHash k} (hv : SyncdHashOk events commands k v) :
    SyncdGrounded events commands (s.setHash k v) where
  hash k' v' hv' := by
    by_cases hk : k' = k
    · subst hk
      simp only [SyncdState.setHash, Function.update_self, Option.some.injEq] at hv'
      exact hv' ▸ hv
    · simp only [SyncdState.setHash, Function.update_of_ne hk] at hv'
      exact h.hash k' v' hv'
  state := h.state

theorem Marked.setHashSyncd {id : CommandId} (h : Marked o s id) (k : SyncdKey) (v : SyncdHash k) :
    Marked o (s.setHash k v) id := by
  have hkept : ∀ k', (s.hash k').isSome → ((s.setHash k v).hash k').isSome := by
    intro k' hk'
    by_cases hk : k' = k
    · subst hk
      simp [SyncdState.setHash]
    · simpa only [SyncdState.setHash, Function.update_of_ne hk] using hk'
  cases id with
  | config e => exact h
  | retry failed attempt => exact h
  | recovery generation => exact hkept _ h
  | reconcile time => exact hkept _ h

theorem StreamGrounded.setHashSyncd (h : StreamGrounded events o s commands) (k : SyncdKey)
    (v : SyncdHash k) : StreamGrounded events o (s.setHash k v) commands :=
  ⟨h.issuable, fun event hmem => (h.marked event hmem).setHashSyncd k v, h.nodup⟩

theorem Grounded.markSyncd (h : Grounded w) {k : SyncdKey} {v : SyncdHash k}
    (hv : SyncdHashOk w.config.events w.commands k v) : Grounded (w.markSyncd k v) :=
  ⟨h.log, h.orch, h.syncd.setHash hv, h.stream.setHashSyncd k v, h.device⟩

theorem Grounded.putEntries (h : Grounded w) {entries : List ((k : SyncdKey) × SyncdHash k)}
    (hall : ∀ entry ∈ entries, SyncdHashOk w.config.events w.commands entry.1 entry.2) :
    Grounded (w.putEntries entries) := by
  induction entries generalizing w with
  | nil => exact h
  | cons entry rest ih =>
      rw [putEntries_cons]
      exact ih (h.markSyncd (hall entry List.mem_cons_self)) fun e he =>
        hall e (List.mem_cons_of_mem _ he)

theorem marked_of_syncdMarks {marker : SyncdKey} {id : CommandId} (h : SyncdMarks marker id) :
    Marked o s id ↔ (s.hash marker).isSome := by
  cases marker with
  | generationRecovery generation => cases h; rfl
  | reconciliationCommandPublication command =>
      obtain ⟨rfl, hrec⟩ := h
      cases id with
      | reconcile time => rfl
      | _ => cases hrec
  | _ => cases h

/-- What is not looked at may change. -/
theorem Grounded.setSyncd (h : Grounded w) {s' : SyncdState} (hhash : s'.hash = w.syncd.hash)
    (hstate : ∀ (id : String) value, s'.state[id]? = some value →
      Vouched w.config.events id value) : Grounded (w.setSyncd s') := by
  refine ⟨h.log, h.orch, ⟨fun k v hv => ?_, hstate⟩, ⟨h.stream.issuable, ?_, h.stream.nodup⟩,
    h.device⟩
  · exact h.syncd.hash k v (by rw [← hhash]; exact hv)
  · intro event hmem
    have hm := h.stream.marked event hmem
    cases hid : event.id with
    | config e => rw [hid] at hm; exact hm
    | retry failed attempt => rw [hid] at hm; exact hm
    | recovery generation =>
        rw [hid] at hm
        simpa only [Marked, World.setSyncd, hhash] using hm
    | reconcile time =>
        rw [hid] at hm
        simpa only [Marked, World.setSyncd, hhash] using hm

theorem Grounded.alarmSyncd (h : Grounded w) (id : AlarmId) (alarm : Option Alarm)
    (alarms : List AlarmEvent) : Grounded { w with
      syncd := { w.syncd with hash := Function.update w.syncd.hash (.activeAlarm id) alarm }
      alarmEvents := alarms } := by
  refine ⟨h.log, h.orch, ⟨fun k v hv => ?_, h.syncd.state⟩, ⟨h.stream.issuable, ?_,
    h.stream.nodup⟩, h.device⟩
  · by_cases hk : k = .activeAlarm id
    · subst hk
      trivial
    · exact h.syncd.hash k v (by simpa only [Function.update_of_ne hk] using hv)
  · intro event hmem
    have hm := h.stream.marked event hmem
    cases hid : event.id with
    | config e => rw [hid] at hm; exact hm
    | retry failed attempt => rw [hid] at hm; exact hm
    | recovery generation =>
        rw [hid] at hm
        have hk : SyncdKey.generationRecovery generation ≠ .activeAlarm id := nofun
        simpa only [Marked, Function.update_of_ne hk] using hm
    | reconcile time =>
        rw [hid] at hm
        have hk : SyncdKey.reconciliationCommandPublication (.reconcile time) ≠ .activeAlarm id :=
          nofun
        simpa only [Marked, Function.update_of_ne hk] using hm

theorem Grounded.onceSyncd (h : Grounded w) {marker : SyncdKey} {fields : SyncdHash marker}
    {write : World → World}
    (hwrite : w.syncd.hash marker = none → Grounded ((write w).markSyncd marker fields)) :
    Grounded (w.onceSyncd marker fields write).2 := by
  unfold World.onceSyncd
  split_ifs with hm
  · exact h
  · exact hwrite (by simpa using hm)

theorem vouched_putEntry {table : ExtTreeMap String ConnectionState} {key : String}
    {state : Option ConnectionState}
    (htable : ∀ (id : String) value, table[id]? = some value → Vouched events id value)
    (hstate : ∀ value, state = some value → Vouched events key value) :
    ∀ (id : String) value, (putEntry table key state)[id]? = some value →
      Vouched events id value := by
  intro id value hv
  rw [getElem?_putEntry] at hv
  split_ifs at hv with hid
  · subst hid
    exact hstate value hv
  · exact htable id value hv

/-- Whatever the link loses, the device is one that the request leaves. -/
theorem applyOverLink_cases {d : SimulatedOcsDevice CommandId} {batch : List ConnectionCommand}
    {options : ApplyOptions CommandId} {r : ApplyResult × SimulatedOcsDevice CommandId}
    (h : d.applyConnections batch options = .ok r) (choice : Nat) :
    ((applyOverLink choice d batch options).2 = d ∨
      (applyOverLink choice d batch options).2 = r.2) ∧
    ∀ result, (applyOverLink choice d batch options).1 = .ok result → result.isOk = true →
      result = r.1 := by
  unfold applyOverLink
  rw [h]
  rcases choice with _ | _ | _ | _ | _ | _
  · refine ⟨.inr rfl, fun result he _ => ?_⟩
    cases he
    rfl
  all_goals
    refine ⟨by simp, fun result he hok => ?_⟩
    cases he
    try exact absurd hok (by decide)

theorem Grounded.execSyncd (h : Grounded w) {op : SyncdOp}
    (ha : SyncdAsks w.config.events w.commands op) (choice : Nat) :
    Grounded (op.exec choice w).2 := by
  cases op with
  | readGroup => exact h.setSyncd rfl h.syncd.state
  | xack n => exact h.setSyncd rfl h.syncd.state
  | remember name generation => exact h.setSyncd rfl h.syncd.state
  | putHash k v => exact h.markSyncd ha
  | putHashIfAbsent k v => exact h.onceSyncd fun _ => h.markSyncd ha
  | putHashesAtomically hashes => exact h.putEntries ha
  | replaceHashAndAppendEvent k v event =>
      have hmarked : Grounded (w.markSyncd k v) := h.markSyncd ha
      exact hmarked.setSyncd rfl hmarked.syncd.state
  | replaceStateOnce marker fields id state event =>
      refine h.onceSyncd fun _ => ?_
      have hput : Grounded (w.setSyncd { w.syncd with
          state := putEntry w.syncd.state id state
          stateEvents := w.syncd.stateEvents ++ [event] }) :=
        h.setSyncd rfl (vouched_putEntry h.syncd.state ha.2)
      exact hput.markSyncd ha.1
  | replaceAlarmOnce marker fields id alarm event =>
      refine h.onceSyncd fun _ => ?_
      exact (h.alarmSyncd id alarm _).markSyncd ha
  | appendResultOnce marker fields event =>
      refine h.onceSyncd fun _ => ?_
      have hput : Grounded (w.setSyncd
          { w.syncd with results := w.syncd.results ++ [event] }) := h.setSyncd rfl h.syncd.state
      exact hput.markSyncd ha
  | appendCommandOnce marker fields event =>
      refine h.onceSyncd fun hnone => ?_
      have hfields : SyncdHashOk w.config.events w.commands marker fields := by
        have hmarks := ha.1
        cases marker with
        | applyAttempt command => cases hmarks
        | applyResult command => cases hmarks
        | _ => trivial
      have hmarked : Grounded (w.markSyncd marker fields) := h.markSyncd hfields
      refine hmarked.issue ha.2 ((marked_of_syncdMarks ha.1).mpr (by simp)) (h.fresh fun hm => ?_)
      rw [marked_of_syncdMarks ha.1, hnone] at hm
      cases hm
  | incrementOnce marker fields update =>
      refine h.onceSyncd fun _ => ?_
      have hput : Grounded { w with counters := w.counters ++ [update] } :=
        ⟨h.log, h.orch, h.syncd, h.stream, h.device⟩
      exact hput.markSyncd ha
  | applyConnections batch options =>
      obtain ⟨id, hop, hissued⟩ := ha
      obtain ⟨r, hr, hdevice, -⟩ := h.device.apply h.stream.issuable h.stream.nodup hop hissued
      have hgrounded : DeviceGrounded w.commands (applyOverLink choice w.hwsim batch options).2 := by
        rcases (applyOverLink_cases hr choice).1 with heq | heq
        · rw [heq]; exact h.device
        · rw [heq]; exact hdevice
      exact ⟨h.log, h.orch, h.syncd, h.stream, hgrounded⟩
  | _ => exact h

/-- A connection of a table comes from an upsert of the commands. -/
def FromUpsert (upserts : ConnectionCommand → Prop) (table : ExtTreeMap String AppliedConnection) :
    Prop :=
  ∀ (id : String) x, table[id]? = some x →
    upserts ⟨.upsert, x.id, x.inputPort, x.outputPort, x.appliedVersion⟩

theorem FromUpsert.replayCommand {upserts : ConnectionCommand → Prop}
    {table : ExtTreeMap String AppliedConnection} (h : FromUpsert upserts table)
    {c : ConnectionCommand} (hc : upserts c) :
    FromUpsert upserts (Gnmi.replayCommand table c) := by
  intro id x hx
  rw [Gnmi.getElem?_replayCommand] at hx
  split_ifs at hx
  · obtain ⟨operation, id', inputPort, outputPort, version⟩ := c
    cases operation with
    | upsert =>
        cases hx
        exact hc
    | remove => cases hx
  · exact h id x hx

theorem FromUpsert.replay (events : List Gnmi.ConfigEvent) :
    FromUpsert (fun c => ∃ event ∈ events, c ∈ event.commands) (Gnmi.replay events) := by
  have hbatch : ∀ (batch : List ConnectionCommand) (table : ExtTreeMap String AppliedConnection)
      {upserts : ConnectionCommand → Prop}, (∀ c ∈ batch, upserts c) → FromUpsert upserts table →
      FromUpsert upserts (batch.foldl Gnmi.replayCommand table) := by
    intro batch
    induction batch with
    | nil => exact fun table _ _ h => h
    | cons c rest ih =>
        intro table upserts hall h
        exact ih _ (fun c' hc' => hall c' (List.mem_cons_of_mem _ hc'))
          (h.replayCommand (hall c List.mem_cons_self))
  unfold Gnmi.replay
  induction events using List.reverseRecOn with
  | nil =>
      intro id x hx
      simp at hx
  | append_singleton rest event ih =>
      rw [List.foldl_append]
      refine hbatch event.commands _ (fun c hc => ⟨event, by simp, hc⟩) fun id x hx => ?_
      obtain ⟨event', hmem, hc⟩ := ih id x hx
      exact ⟨event', List.mem_append_left _ hmem, hc⟩

theorem Grounded.configured (h : Grounded w) {id : String} {config : Gnmi.ConnectionConfig}
    (hget : w.config.connections[id]? = some config) : Logged w.config.events {
      id := config.connectionId
      inputPort := config.inputPort
      outputPort := config.outputPort
      desiredVersion := config.desiredVersion } := by
  intro _
  have hreplay := h.log.serial.replayed id
  rw [hget] at hreplay
  exact FromUpsert.replay w.config.events id _ hreplay.symm

theorem Grounded.toldSyncd (h : Grounded w) {op : SyncdOp}
    (ha : SyncdAsks w.config.events w.commands op) (choice : Nat) :
    SyncdTold w.config.events w.commands op (op.exec choice w).1 := by
  cases op with
  | xclaim n =>
      intro event he
      simp only [SyncdOp.exec] at he
      split_ifs at he
      exact List.mem_of_getElem? he
  | readGroup =>
      intro n event he
      simp only [SyncdOp.exec] at he
      obtain ⟨m, -, hmap⟩ := Option.bind_eq_some_iff.mp he
      obtain ⟨event', hget, heq⟩ := Option.map_eq_some_iff.mp hmap
      cases heq
      exact List.mem_of_getElem? hget
  | getConfig id => exact fun config hc => h.configured hc
  | scanDevice => exact ExtTreeMap.nodup_keys
  | getDevice id => exact fun a ha => h.orch.table .device id a ha
  | getHash k => exact fun v hv => h.syncd.hash k v hv
  | applyConnections batch options =>
      obtain ⟨id, hop, hissued⟩ := ha
      obtain ⟨r, hr, -, hconfirms⟩ := h.device.apply h.stream.issuable h.stream.nodup hop hissued
      intro result he hok
      have heq := (applyOverLink_cases hr choice).2 result he hok
      subst heq
      exact hconfirms hok
  | _ => trivial

theorem growsSyncd (op : SyncdOp) (choice : Nat) (w : World) : Grows w (op.exec choice w).2 := by
  have honce : ∀ (marker : SyncdKey) (fields : SyncdHash marker) (write : World → World),
      Grows w (write w) → Grows w (w.onceSyncd marker fields write).2 := by
    intro marker fields write hg
    unfold World.onceSyncd
    split_ifs
    · exact .refl w
    · exact ⟨hg.events, hg.commands⟩
  cases op with
  | putHashIfAbsent k v => exact honce k v id (.refl w)
  | replaceStateOnce marker fields id state event => exact honce marker fields _ (.of_eq rfl rfl)
  | replaceAlarmOnce marker fields id alarm event => exact honce marker fields _ (.of_eq rfl rfl)
  | appendResultOnce marker fields event => exact honce marker fields _ (.of_eq rfl rfl)
  | appendCommandOnce marker fields event =>
      exact honce marker fields _ ⟨List.Subset.refl _, List.subset_append_left _ _⟩
  | incrementOnce marker fields update => exact honce marker fields _ (.of_eq rfl rfl)
  | _ => exact .of_eq rfl rfl

end Syncd

/-! ## All operations -/

section All

variable {w : World}

theorem Grounded.exec (h : Grounded w) {op : Op} (ha : Asks w.config.events w.commands op)
    (choice : Nat) : Grounded (MiniOcs.exec op choice w).2 := by
  cases op with
  | orch op => exact h.execOrch ha choice
  | syncd op => exact h.execSyncd ha choice

theorem grows_exec (op : Op) (choice : Nat) (w : World) : Grows w (MiniOcs.exec op choice w).2 := by
  cases op with
  | orch op => exact growsOrch op choice w
  | syncd op => exact growsSyncd op choice w

theorem Grounded.told (h : Grounded w) {op : Op} (ha : Asks w.config.events w.commands op)
    (choice : Nat) : Told w.config.events w.commands op (MiniOcs.exec op choice w).1 := by
  cases op with
  | orch op => exact h.toldOrch op choice
  | syncd op => exact h.toldSyncd ha choice

end All

theorem definite_of_nodup {batch : List ConnectionCommand} (h : (batch.map (·.id)).Nodup) :
    Definite batch :=
  fun _ hc _ _ hc' hid => List.inj_on_of_nodup_map h hc' hc hid

/-- The events of the log have distinct members. -/
theorem Grounded.definite {w : World} (h : Grounded w) :
    ∀ event ∈ w.config.events, Definite event.commands := by
  intro event hmem
  obtain ⟨n, hn⟩ := List.mem_iff_getElem?.mp hmem
  exact definite_of_nodup (h.log.events n event hn).nodup

/-- An event is known by its version. -/
theorem Grounded.event_unique {w : World} (h : Grounded w) {event event' : Gnmi.ConfigEvent}
    (hmem : event ∈ w.config.events) (hmem' : event' ∈ w.config.events)
    (hversion : event.desiredVersion = event'.desiredVersion) : event = event' := by
  obtain ⟨n, hn⟩ := List.mem_iff_getElem?.mp hmem
  obtain ⟨m, hm⟩ := List.mem_iff_getElem?.mp hmem'
  have hnm : n = m := by
    have hv := (h.log.serial.versions n event hn).1
    have hv' := (h.log.serial.versions m event' hm).1
    omega
  subst hnm
  exact Option.some.inj (hn.symm.trans hm)

/-! ## The surroundings keep the invariant -/

theorem Grounded.init {inventory : Gnmi.Inventory} {info : DeviceInfo}
    {hwsim : SimulatedOcsDevice CommandId}
    (h : SimulatedOcsDevice.construct info = some (.ok hwsim)) :
    Grounded { inventory := inventory, hwsim := hwsim } where
  log := Gnmi.Log.init inventory
  orch := ⟨fun copy id a ha => by cases copy <;> simp [OrchState.table] at ha,
    fun k v hv => (Option.some_ne_none v hv.symm).elim,
    fun event hevent => (List.not_mem_nil hevent).elim⟩
  syncd := ⟨fun k v hv => (Option.some_ne_none v hv.symm).elim, fun id value hv => by simp at hv⟩
  stream := ⟨fun event hevent => (List.not_mem_nil hevent).elim,
    fun event hevent => (List.not_mem_nil hevent).elim, List.nodup_nil⟩
  device := ⟨SimulatedOcsDevice.Sound.construct h, fun id result hget => by
    rw [(SimulatedOcsDevice.empty_construct h).1] at hget
    cases hget⟩

theorem Grounded.commit {w : World} (h : Grounded w) {db : Gnmi.ConfigDb}
    (hc : Gnmi.Commits w.inventory w.config db) :
    Grounded { w with config := db } ∧ Grows w { w with config := db } := by
  have hsub : w.config.events ⊆ db.events := by
    cases hc with
    | intro _ _ _ _ => exact List.subset_append_left _ _
  exact ⟨⟨h.log.commit hc, h.orch.mono hsub, h.syncd.mono hsub (List.Subset.refl _),
    h.stream.mono hsub, h.device⟩, hsub, List.Subset.refl _⟩

/-- A device that remembers no more than before. -/
theorem Grounded.setDevice {w : World} (h : Grounded w) {d : SimulatedOcsDevice CommandId}
    (hsound : d.Sound) (hcache : ∀ id result, d.applyResults.lookup id = some result →
      w.hwsim.applyResults.lookup id = some result) : Grounded { w with hwsim := d } :=
  ⟨h.log, h.orch, h.syncd, h.stream, hsound,
    fun id result hget => h.device.cached id result (hcache id result hget)⟩

theorem Grounded.restart {w : World} (h : Grounded w) {info : DeviceInfo}
    {d : SimulatedOcsDevice CommandId} (hd : SimulatedOcsDevice.construct info = some (.ok d)) :
    Grounded { w with hwsim := d } := by
  refine h.setDevice (SimulatedOcsDevice.Sound.construct hd) fun id result hget => ?_
  rw [(SimulatedOcsDevice.empty_construct hd).1] at hget
  cases hget

theorem Grounded.disturb {w : World} (h : Grounded w) {call : SimulatedOcsDevice.Call CommandId}
    {d : SimulatedOcsDevice CommandId}
    (hne : ∀ commands options, call ≠ .applyConnections commands options)
    (hrun : call.run w.hwsim = .ok d) : Grounded { w with hwsim := d } := by
  obtain ⟨d', hrun', hsound⟩ := h.device.sound.call call
  rw [hrun] at hrun'
  cases hrun'
  refine h.setDevice hsound fun id result hget => h.device.sound.call_lookup ?_ hrun hget
  exact fun commands options heq => absurd heq (hne commands options)

end MiniOcs
