import MiniOcs.Orch.Agreement
import MiniOcs.Orch.Alone
import MiniOcs.Orch.Connections

/-!
# Version gaps

An event that is more than one version ahead is applied with the ports and the version of the
CONFIG_DB snapshot. The publications check the version of the hashes against the version of the
event, so the event passes exactly when the two versions are the same.
-/
namespace MiniOcs.Orch
open Std Concurrent

variable {pick : Op → World → Nat} {w : World} {n : Nat} {event : ConnectionEvent}
  {snapshot : Gnmi.ConnectionConfig}

/-- Nothing is recorded for the event. -/
structure New (w : World) (eventId : Nat) : Prop where
  prepared : w.orch.hash (.configBatch (.config eventId)) = none
  application : w.orch.hash (.applicationPublication eventId) = none
  deviceState : w.orch.hash (.deviceStatePublication eventId) = none
  command : w.orch.hash (.deviceCommandPublication eventId) = none

/-- The desired connection as a command. -/
def snapshotCommand (event : ConnectionEvent) (snapshot : Gnmi.ConnectionConfig) :
    ConnectionCommand where
  id := event.resourceId
  inputPort := snapshot.inputPort
  outputPort := snapshot.outputPort
  desiredVersion := snapshot.desiredVersion

def Carries (table : Table) (id : String) (snapshot : Gnmi.ConnectionConfig) : Prop :=
  ∃ application : Application, table[id]? = some application ∧
    application.inputPort = snapshot.inputPort ∧ application.outputPort = snapshot.outputPort ∧
    application.desiredVersion = snapshot.desiredVersion

/-- The desired connection is published, and later events up to its version do nothing. -/
structure Reloaded (pick : Op → World → Nat) (w : World) (n : Nat) (event : ConnectionEvent)
    (snapshot : Gnmi.ConnectionConfig) (w' : World) : Prop where
  application : Carries w'.orch.appl event.resourceId snapshot
  deviceState : Carries w'.orch.device event.resourceId snapshot
  command : ∃ command : CommandEvent, w'.commands = w.commands ++ [command] ∧
    command.desiredVersion = snapshot.desiredVersion ∧
    command.payload.commands = [snapshotCommand event snapshot]
  acknowledged : w'.orch.group .config = ((w.orch.group .config).ack n).2
  stale : ∀ later, Later w' later → ∀ m (event' : ConnectionEvent),
    event'.resourceId = event.resourceId → event'.desiredVersion ≤ snapshot.desiredVersion →
    New later event'.eventId → (∃ decoded, decodeConfigEvent event' = .ok decoded) →
    (handleConnection m event').alone exec pick later = (.ok true, later.acknowledge .config m)
  staleBatch : ∀ later, Later w' later → ∀ m (event' : Gnmi.ConfigEvent) batch,
    decodeConfigBatchEvent event' = .ok batch → event.resourceId ∈ batch.commands.map (·.id) →
    event'.desiredVersion ≤ snapshot.desiredVersion → New later event'.eventId →
    (handleConfig m event').alone exec pick later = (.ok true, later.acknowledge .config m)

/-- The whole of `processConfigOne` on the event. -/
def Completes (pick : Op → World → Nat) (w : World) (n : Nat) (event : ConnectionEvent)
    (snapshot : Gnmi.ConnectionConfig) : Prop :=
  ((handleConnection n event).alone exec pick w).1 = .ok true ∧
    Reloaded pick w n event snapshot ((handleConnection n event).alone exec pick w).2

def Startable (w : World) (id : String) : Prop :=
  startApplyTransition (currentStatus w.orch.appl[id]?) .upsert = .ok .applying

/-- The versions agree; the rest is what any event needs. -/
structure Reloadable (w : World) (event : ConnectionEvent) (snapshot : Gnmi.ConnectionConfig) :
    Prop where
  version : snapshot.desiredVersion = event.desiredVersion
  decoded : ∃ decoded, decodeConfigEvent event = .ok decoded
  inputPort : validPort snapshot.inputPort = true
  outputPort : validPort snapshot.outputPort = true
  startable : Startable w event.resourceId
  notNewer : notNewer w.orch.device event.desiredVersion event.resourceId

/-! ## Publishing one connection -/

theorem alone_configApplications {envelope : Gnmi.ConfigEvent} {command : ConnectionCommand}
    (h : startApplyTransition (currentStatus w.orch.appl[command.id]?) command.operation =
      .ok (executing command.operation)) :
    (configApplications envelope [] [command]).alone exec pick w =
      (.ok (configHashes envelope [command]), w) := by
  unfold configApplications
  rw [alone_send]
  simp only [OrchOp.exec, h]
  rfl

section Publish

variable {envelope : Gnmi.ConfigEvent} {command : ConnectionCommand}

/-- Both tables carry the hash and the command is appended. -/
def published (w : World) (n : Nat) (envelope : Gnmi.ConfigEvent) (command : ConnectionCommand) :
    World :=
  let hashes := configHashes envelope [command]
  let staged := (w.stage .appl (.applicationPublication envelope.eventId) ()
    envelope.desiredVersion hashes).stage .device (.deviceStatePublication envelope.eventId) ()
      envelope.desiredVersion hashes
  ({ staged with
      commands := staged.commands ++ [configCommandEvent envelope { commands := [command] }] }.mark
        (.deviceCommandPublication envelope.eventId) ()).acknowledge .config n

theorem versionsMatch_single : versionsMatch envelope.desiredVersion
    (configHashes envelope [command]) = decide (command.desiredVersion = envelope.desiredVersion) := by
  simp [versionsMatch, configHashes, configApplication]

theorem alone_publishConfig
    (happl : w.orch.hash (.applicationPublication envelope.eventId) = none)
    (hdevice : w.orch.hash (.deviceStatePublication envelope.eventId) = none)
    (hcommand : w.orch.hash (.deviceCommandPublication envelope.eventId) = none)
    (hstart : startApplyTransition (currentStatus w.orch.appl[command.id]?) command.operation =
      .ok (executing command.operation))
    (hversion : command.desiredVersion = envelope.desiredVersion) :
    (publishConfig n envelope { commands := [command] }).alone exec pick w =
      (.ok true, published w n envelope command) := by
  have hmatch : versionsMatch envelope.desiredVersion (configHashes envelope [command]) = true := by
    rw [versionsMatch_single]
    exact decide_eq_true hversion
  have hdevice' : (w.stage .appl (.applicationPublication envelope.eventId) ()
      envelope.desiredVersion (configHashes envelope [command])).orch.hash
        (.deviceStatePublication envelope.eventId) = none := by
    rw [World.stage_hash_of_ne _ _ _ _ _ _ (by simp)]
    exact hdevice
  unfold publishConfig
  rw [Prog.alone_bind_ok (alone_configApplications hstart),
    Prog.alone_bind_ok (alone_publish happl hmatch),
    Prog.alone_bind_ok (alone_publish hdevice' hmatch), alone_send]
  have hcommand' : ((w.stage .appl (.applicationPublication envelope.eventId) ()
      envelope.desiredVersion (configHashes envelope [command])).stage .device
        (.deviceStatePublication envelope.eventId) () envelope.desiredVersion
        (configHashes envelope [command])).orch.hash
          (.deviceCommandPublication envelope.eventId) = none := by
    rw [World.stage_hash_of_ne _ _ _ _ _ _ (by simp), World.stage_hash_of_ne _ _ _ _ _ _ (by simp)]
    exact hcommand
  simp only [OrchOp.exec]
  rw [once_none hcommand', alone_acknowledge]
  rfl

theorem alone_publishConfig_mismatch
    (happl : w.orch.hash (.applicationPublication envelope.eventId) = none)
    (hstart : startApplyTransition (currentStatus w.orch.appl[command.id]?) command.operation =
      .ok (executing command.operation))
    (hversion : command.desiredVersion ≠ envelope.desiredVersion) :
    (publishConfig n envelope { commands := [command] }).alone exec pick w =
      (.error (.invalidArgument "versioned Redis hash does not match marker desired_version"), w) := by
  have hmatch : versionsMatch envelope.desiredVersion (configHashes envelope [command]) = false := by
    rw [versionsMatch_single]
    exact decide_eq_false hversion
  unfold publishConfig
  rw [Prog.alone_bind_ok (alone_configApplications hstart)]
  exact Prog.alone_bind_error (alone_publish_mismatch happl hmatch)

theorem alone_publishConfig_invalid {e : InvalidTransition}
    (hstart : startApplyTransition (currentStatus w.orch.appl[command.id]?) command.operation =
      .error e) :
    (publishConfig n envelope { commands := [command] }).alone exec pick w =
      (.error (.invalidTransition e), w) := by
  have happlications : (configApplications envelope [] [command]).alone exec pick w =
      (.error (.invalidTransition e), w) := by
    unfold configApplications
    rw [alone_send]
    simp only [OrchOp.exec, hstart]
    rfl
  unfold publishConfig
  exact Prog.alone_bind_error happlications

@[simp] theorem published_appl : (published w n envelope command).orch.appl =
    putVersioned w.orch.appl envelope.desiredVersion (configHashes envelope [command]) := rfl

@[simp] theorem published_device : (published w n envelope command).orch.device =
    putVersioned w.orch.device envelope.desiredVersion (configHashes envelope [command]) := rfl

@[simp] theorem published_commands : (published w n envelope command).commands =
    w.commands ++ [configCommandEvent envelope { commands := [command] }] := rfl

theorem published_group : (published w n envelope command).orch.group .config =
    ((w.orch.group .config).ack n).2 := rfl

theorem putVersioned_configHash {table : Table}
    (hle : notNewer table envelope.desiredVersion command.id) :
    (putVersioned table envelope.desiredVersion (configHashes envelope [command]))[command.id]? =
      some (configApplication envelope command) :=
  getElem?_putVersioned_of_mem (by simp [configHashes]) (by simp [configHashes]) hle

end Publish

/-! ## The event -/

/-- Once the snapshot is accepted the batch is prepared and published. -/
theorem alone_handleConnection (hnew : New w event.eventId)
    (hgap : currentVersion w.orch.appl[event.resourceId]? + 1 < event.desiredVersion)
    {decoded command : ConnectionCommand} (hdecoded : decodeConfigEvent event = .ok decoded)
    (hid : decoded.id = event.resourceId) (hversion : decoded.desiredVersion = event.desiredVersion)
    (hoperation : decoded.operation = .upsert)
    (hload : loadDesiredSnapshot event w.config.connections[event.resourceId]? = .ok command)
    (hcommand : decodeDeviceCommand { commands := [command] } = .ok { commands := [command] }) :
    (handleConnection n event).alone exec pick w =
      (publishConfig n event.envelope { commands := [command] }).alone exec pick
        (w.mark (.configBatch (.config event.eventId)) { commands := [command] }) := by
  have hselect : (selectConnection event decoded).alone exec pick w = (.ok (some command), w) := by
    unfold selectConnection
    rw [alone_send]
    simp only [OrchOp.exec, hid, hversion, hoperation]
    rw [if_neg (by omega), if_neg (by simp), if_pos (by omega), alone_send]
    simp only [OrchOp.exec, hload]
    rfl
  unfold handleConnection
  rw [alone_send]
  simp only [OrchOp.exec, hnew.command]
  rw [alone_send]
  simp only [OrchOp.exec, hnew.prepared, hdecoded]
  unfold prepareConnection
  rw [Prog.alone_bind_ok hselect]
  dsimp only
  rw [alone_send]
  simp only [OrchOp.exec, World.once, hnew.prepared]
  rw [alone_send]
  simp only [OrchOp.exec, resumePrepared]
  simp [hcommand]

theorem decodeConfigEvent_ok {decoded : ConnectionCommand}
    (h : decodeConfigEvent event = .ok decoded) : decoded.id = event.resourceId ∧
      decoded.desiredVersion = event.desiredVersion ∧
      (event.operation = .upsert → decoded.operation = .upsert) := by
  unfold decodeConfigEvent at h
  split_ifs at h
  cases hop : event.operation with
  | remove =>
      simp only [hop] at h
      cases h
      exact ⟨rfl, rfl, fun h => by cases h⟩
  | upsert =>
      simp only [hop] at h
      cases hpayload : event.payload with
      | none =>
          rw [hpayload] at h
          cases h
      | some payload =>
          simp only [hpayload] at h
          cases hin : decodePort payload "input_port" with
          | error e =>
              rw [hin] at h
              cases h
          | ok inputPort =>
              cases hout : decodePort payload "output_port" with
              | error e =>
                  rw [hin, hout] at h
                  cases h
              | ok outputPort =>
                  rw [hin, hout] at h
                  cases h
                  exact ⟨rfl, rfl, fun _ => rfl⟩
  | applyBatch => simp [hop] at h
  | generationRecovery => simp [hop] at h
  | reconcile => simp [hop] at h

theorem loadDesiredSnapshot_some (hle : event.desiredVersion ≤ snapshot.desiredVersion)
    (hin : validPort snapshot.inputPort = true) (hout : validPort snapshot.outputPort = true) :
    loadDesiredSnapshot event (some snapshot) = .ok (snapshotCommand event snapshot) := by
  unfold loadDesiredSnapshot
  dsimp only
  rw [if_neg (by omega)]
  simp only [snapshotPort, hin, hout, if_true]
  rfl

/-- A snapshot with a port out of range is refused. -/
theorem loadDesiredSnapshot_error
    (h : ¬ (validPort snapshot.inputPort = true ∧ validPort snapshot.outputPort = true)) :
    ∃ e, loadDesiredSnapshot event (some snapshot) = .error e := by
  unfold loadDesiredSnapshot
  dsimp only
  split_ifs
  · exact ⟨_, rfl⟩
  cases hin : validPort snapshot.inputPort with
  | false => exact ⟨.invalidArgument "connection snapshot has invalid port: input_port", by
      simp only [snapshotPort, hin]; rfl⟩
  | true =>
      cases hout : validPort snapshot.outputPort with
      | false => exact ⟨.invalidArgument "connection snapshot has invalid port: output_port", by
          simp only [snapshotPort, hin, hout]; rfl⟩
      | true => exact absurd ⟨hin, hout⟩ h

theorem decodeDeviceCommand_snapshot (hin : validPort snapshot.inputPort = true)
    (hout : validPort snapshot.outputPort = true) :
    decodeDeviceCommand { commands := [snapshotCommand event snapshot] } =
      .ok { commands := [snapshotCommand event snapshot] } := by
  refine decodeDeviceCommand_fixed (by simp) (by simp) fun c hc => ?_
  rw [List.mem_singleton.mp hc]
  exact ⟨by simp [validCommand, snapshotCommand, hin, hout], rfl⟩

/-! ## Later events -/

/-- An event that is not ahead of APPL_DB is acknowledged, and that is all. -/
theorem alone_handleConnection_stale (hnew : New w event.eventId)
    {decoded : ConnectionCommand} (hdecoded : decodeConfigEvent event = .ok decoded)
    (hstale : event.desiredVersion ≤ currentVersion w.orch.appl[event.resourceId]?) :
    (handleConnection n event).alone exec pick w = (.ok true, w.acknowledge .config n) := by
  obtain ⟨hid, hdecodedVersion, -⟩ := decodeConfigEvent_ok hdecoded
  have hselect : (selectConnection event decoded).alone exec pick w = (.ok none, w) := by
    unfold selectConnection
    rw [alone_send]
    simp only [OrchOp.exec, hid, hdecodedVersion]
    rw [if_pos hstale]
    rfl
  unfold handleConnection
  rw [alone_send]
  simp only [OrchOp.exec, hnew.command]
  rw [alone_send]
  simp only [OrchOp.exec, hnew.prepared, hdecoded]
  unfold prepareConnection
  rw [Prog.alone_bind_ok hselect]
  exact alone_acknowledge

/-- One stale member stops the loop, whatever was selected before it. -/
theorem alone_selectCommands_stale {selected commands : List ConnectionCommand}
    (h : ∃ c ∈ commands, c.desiredVersion ≤ currentVersion w.orch.appl[c.id]?) :
    (selectCommands selected commands).alone exec pick w = (.ok none, w) := by
  induction commands generalizing selected with
  | nil => simp at h
  | cons command rest ih =>
      unfold selectCommands
      rw [alone_getAppl]
      by_cases hstale : command.desiredVersion ≤ currentVersion w.orch.appl[command.id]?
      · rw [if_pos hstale]
        rfl
      · have hrest : ∃ c ∈ rest, c.desiredVersion ≤ currentVersion w.orch.appl[c.id]? := by
          obtain ⟨c, hmem, hle⟩ := h
          rcases List.mem_cons.mp hmem with rfl | hmem
          · exact absurd hle hstale
          · exact ⟨c, hmem, hle⟩
        rw [if_neg hstale]
        split_ifs
        · exact ih hrest
        · exact ih hrest

theorem alone_handleConfig_stale {envelope : Gnmi.ConfigEvent} (hnew : New w envelope.eventId)
    {batch : DeviceCommandBatch} (hdecoded : decodeConfigBatchEvent envelope = .ok batch)
    (hstale : ∃ c ∈ batch.commands, c.desiredVersion ≤ currentVersion w.orch.appl[c.id]?) :
    (handleConfig n envelope).alone exec pick w = (.ok true, w.acknowledge .config n) := by
  unfold handleConfig
  rw [alone_send]
  simp only [OrchOp.exec, hnew.command]
  rw [alone_send]
  have hprepared : w.orch.hash (.configBatch (configCommandId envelope)) = none := hnew.prepared
  simp only [OrchOp.exec, hprepared, hdecoded]
  unfold prepareConfig
  rw [Prog.alone_bind_ok (alone_selectCommands_stale hstale)]
  exact alone_acknowledge

/-! ## When the event completes -/

theorem carries_configHash {table : Table}
    (hle : notNewer table event.desiredVersion event.resourceId) :
    Carries (putVersioned table event.envelope.desiredVersion
      (configHashes event.envelope [snapshotCommand event snapshot])) event.resourceId snapshot :=
  ⟨configApplication event.envelope (snapshotCommand event snapshot),
    putVersioned_configHash hle, rfl, rfl, rfl⟩

theorem notNewer_of_gap (hgap : currentVersion w.orch.appl[event.resourceId]? + 1 <
    event.desiredVersion) : notNewer w.orch.appl event.desiredVersion event.resourceId := by
  intro existing hexisting
  rw [hexisting] at hgap
  simp only [currentVersion] at hgap
  omega

theorem reloaded_published {w' : World} (happl : w'.orch.appl = w.orch.appl)
    (hdevice : w'.orch.device = w.orch.device) (hcommands : w'.commands = w.commands)
    (hgroup : w'.orch.group .config = w.orch.group .config)
    (hgap : currentVersion w.orch.appl[event.resourceId]? + 1 < event.desiredVersion)
    (h : Reloadable w event snapshot) : Reloaded pick w n event snapshot
      (published w' n event.envelope (snapshotCommand event snapshot)) := by
  have hcarries : Carries
      (published w' n event.envelope (snapshotCommand event snapshot)).orch.appl
      event.resourceId snapshot := by
    rw [published_appl, happl]
    exact carries_configHash (notNewer_of_gap hgap)
  have hlater : ∀ later, Later
      (published w' n event.envelope (snapshotCommand event snapshot)) later →
      snapshot.desiredVersion ≤ currentVersion later.orch.appl[event.resourceId]? := by
    intro later hlater
    obtain ⟨application, hget, -, -, hv⟩ := hcarries
    have hle := currentVersion_later hlater event.resourceId
    rw [hget] at hle
    exact hv ▸ hle
  constructor
  · exact hcarries
  · rw [published_device, hdevice]
    exact carries_configHash h.notNewer
  · exact ⟨configCommandEvent event.envelope { commands := [snapshotCommand event snapshot] },
      by rw [published_commands, hcommands], h.version.symm, rfl⟩
  · rw [published_group, hgroup]
  · intro later hl m event' hid hle hnew ⟨decoded, hdecoded⟩
    refine alone_handleConnection_stale hnew hdecoded ?_
    rw [hid]
    exact hle.trans (hlater later hl)
  · intro later hl m event' batch hdecoded hmem hle hnew
    obtain ⟨c, hc, hid⟩ := List.mem_map.mp hmem
    refine alone_handleConfig_stale hnew hdecoded ⟨c, hc, ?_⟩
    have hversion : c.desiredVersion = event'.desiredVersion := by
      unfold decodeConfigBatchEvent at hdecoded
      split_ifs at hdecoded
      split at hdecoded
      · cases hdecoded
      · split_ifs at hdecoded with hall
        cases hdecoded
        simpa using List.all_eq_true.mp hall c hc
    rw [hversion, hid]
    exact hle.trans (hlater later hl)

/-- The command that the snapshot gives is published as a whole or refused. -/
theorem alone_gap (hoperation : event.operation = .upsert) (hnew : New w event.eventId)
    (hgap : currentVersion w.orch.appl[event.resourceId]? + 1 < event.desiredVersion)
    (hsnapshot : w.config.connections[event.resourceId]? = some snapshot)
    (hle : event.desiredVersion ≤ snapshot.desiredVersion)
    (hdecoded : ∃ decoded, decodeConfigEvent event = .ok decoded)
    (hin : validPort snapshot.inputPort = true) (hout : validPort snapshot.outputPort = true) :
    (handleConnection n event).alone exec pick w =
      (publishConfig n event.envelope { commands := [snapshotCommand event snapshot] }).alone exec
        pick (w.mark (.configBatch (.config event.eventId))
          { commands := [snapshotCommand event snapshot] }) := by
  obtain ⟨decoded, hdecoded⟩ := hdecoded
  obtain ⟨hid, hdecodedVersion, hop⟩ := decodeConfigEvent_ok hdecoded
  refine alone_handleConnection hnew hgap hdecoded hid hdecodedVersion (hop hoperation) ?_
    (decodeDeviceCommand_snapshot hin hout)
  rw [hsnapshot]
  exact loadDesiredSnapshot_some hle hin hout

theorem alone_undecoded (hnew : New w event.eventId)
    (h : ¬ ∃ decoded, decodeConfigEvent event = .ok decoded) :
    ∃ e, (handleConnection n event).alone exec pick w = (.error e, w) := by
  cases hdecoded : decodeConfigEvent event with
  | ok decoded => exact absurd ⟨decoded, hdecoded⟩ h
  | error e =>
      refine ⟨e, ?_⟩
      unfold handleConnection
      rw [alone_send]
      simp only [OrchOp.exec, hnew.command]
      rw [alone_send]
      simp only [OrchOp.exec, hnew.prepared, hdecoded]
      exact alone_raise e

theorem alone_unloaded (hoperation : event.operation = .upsert) (hnew : New w event.eventId)
    (hgap : currentVersion w.orch.appl[event.resourceId]? + 1 < event.desiredVersion)
    {decoded : ConnectionCommand} (hdecoded : decodeConfigEvent event = .ok decoded) {e : Raised}
    (hload : loadDesiredSnapshot event w.config.connections[event.resourceId]? = .error e) :
    (handleConnection n event).alone exec pick w = (.error e, w) := by
  obtain ⟨hid, hversion, hop⟩ := decodeConfigEvent_ok hdecoded
  have hselect : (selectConnection event decoded).alone exec pick w = (.error e, w) := by
    unfold selectConnection
    rw [alone_send]
    simp only [OrchOp.exec, hid, hversion, hop hoperation]
    rw [if_neg (by omega), if_neg (by simp), if_pos (by omega), alone_send]
    simp only [OrchOp.exec, hload]
    exact alone_raise e
  unfold handleConnection
  rw [alone_send]
  simp only [OrchOp.exec, hnew.command]
  rw [alone_send]
  simp only [OrchOp.exec, hnew.prepared, hdecoded]
  unfold prepareConnection
  exact Prog.alone_bind_error hselect

/-- A snapshot of another version leaves the prepared record behind, and nothing else. -/
theorem alone_mismatch (hoperation : event.operation = .upsert) (hnew : New w event.eventId)
    (hgap : currentVersion w.orch.appl[event.resourceId]? + 1 < event.desiredVersion)
    (hsnapshot : w.config.connections[event.resourceId]? = some snapshot)
    (hle : event.desiredVersion ≤ snapshot.desiredVersion)
    (hdecoded : ∃ decoded, decodeConfigEvent event = .ok decoded)
    (hin : validPort snapshot.inputPort = true) (hout : validPort snapshot.outputPort = true)
    (hstart : Startable w event.resourceId)
    (hversion : snapshot.desiredVersion ≠ event.desiredVersion) :
    (handleConnection n event).alone exec pick w =
      (.error (.invalidArgument "versioned Redis hash does not match marker desired_version"),
        w.mark (.configBatch (.config event.eventId))
          { commands := [snapshotCommand event snapshot] }) := by
  rw [alone_gap hoperation hnew hgap hsnapshot hle hdecoded hin hout]
  refine alone_publishConfig_mismatch ?_ hstart hversion
  rw [World.mark_hash_of_ne _ _ _ (by simp)]
  exact hnew.application

theorem alone_reload (hoperation : event.operation = .upsert) (hnew : New w event.eventId)
    (hgap : currentVersion w.orch.appl[event.resourceId]? + 1 < event.desiredVersion)
    (hsnapshot : w.config.connections[event.resourceId]? = some snapshot)
    (hle : event.desiredVersion ≤ snapshot.desiredVersion)
    (hdecoded : ∃ decoded, decodeConfigEvent event = .ok decoded)
    (hin : validPort snapshot.inputPort = true) (hout : validPort snapshot.outputPort = true)
    (hstart : Startable w event.resourceId)
    (hversion : snapshot.desiredVersion = event.desiredVersion) :
    (handleConnection n event).alone exec pick w =
      (.ok true, published (w.mark (.configBatch (.config event.eventId))
          { commands := [snapshotCommand event snapshot] }) n event.envelope
        (snapshotCommand event snapshot)) := by
  have hnone : ∀ {k : OrchKey}, k ≠ .configBatch (.config event.eventId) →
      w.orch.hash k = none → (w.mark (.configBatch (.config event.eventId))
        { commands := [snapshotCommand event snapshot] }).orch.hash k = none := by
    intro k hk h
    rw [World.mark_hash_of_ne _ _ _ hk]
    exact h
  rw [alone_gap hoperation hnew hgap hsnapshot hle hdecoded hin hout]
  exact alone_publishConfig (hnone (by simp) hnew.application) (hnone (by simp) hnew.deviceState)
    (hnone (by simp) hnew.command) hstart hversion

/-- From then on every delivery of the event throws, and the world stays as it is. -/
theorem alone_prepared_mismatch {command : ConnectionCommand}
    (hprepared : w.orch.hash (.configBatch (.config event.eventId)) =
      some { commands := [command] })
    (happl : w.orch.hash (.applicationPublication event.eventId) = none)
    (hcommand : w.orch.hash (.deviceCommandPublication event.eventId) = none)
    (hfixed : decodeDeviceCommand { commands := [command] } = .ok { commands := [command] })
    (hstart : startApplyTransition (currentStatus w.orch.appl[command.id]?) command.operation =
      .ok (executing command.operation))
    (hversion : command.desiredVersion ≠ event.desiredVersion) :
    (handleConnection n event).alone exec pick w =
      (.error (.invalidArgument "versioned Redis hash does not match marker desired_version"), w) := by
  unfold handleConnection
  rw [alone_send]
  simp only [OrchOp.exec, hcommand]
  rw [alone_send]
  simp only [OrchOp.exec, hprepared, resumePrepared, hfixed]
  exact alone_publishConfig_mismatch happl hstart hversion

theorem reloadable_of_completes (hoperation : event.operation = .upsert) (hnew : New w event.eventId)
    (hgap : currentVersion w.orch.appl[event.resourceId]? + 1 < event.desiredVersion)
    (hsnapshot : w.config.connections[event.resourceId]? = some snapshot)
    (hle : event.desiredVersion ≤ snapshot.desiredVersion)
    (h : Completes pick w n event snapshot) : Reloadable w event snapshot := by
  obtain ⟨hok, hreloaded⟩ := h
  have hraises : ∀ {e : Raised} {t : World},
      (handleConnection n event).alone exec pick w ≠ (.error e, t) := by
    intro e t heq
    rw [heq] at hok
    cases hok
  have hdecoded : ∃ decoded, decodeConfigEvent event = .ok decoded := by
    by_contra hnot
    obtain ⟨e, he⟩ := alone_undecoded hnew hnot
    exact hraises he
  obtain ⟨hin, hout⟩ : validPort snapshot.inputPort = true ∧ validPort snapshot.outputPort = true := by
    by_contra hnot
    obtain ⟨decoded, hdecoded⟩ := hdecoded
    have hload : ∃ e, loadDesiredSnapshot event (some snapshot) = .error e :=
      loadDesiredSnapshot_error hnot
    rw [← hsnapshot] at hload
    obtain ⟨e, he⟩ := hload
    exact hraises (alone_unloaded hoperation hnew hgap hdecoded he)
  have hgapped : (handleConnection n event).alone exec pick w = _ :=
    alone_gap hoperation hnew hgap hsnapshot hle hdecoded hin hout
  have hstart : Startable w event.resourceId := by
    cases hstart : startApplyTransition (currentStatus w.orch.appl[event.resourceId]?)
        .upsert with
    | ok status => rw [Startable, hstart, startApplyTransition_ok hstart]; rfl
    | error e => exact absurd (hgapped.trans (alone_publishConfig_invalid hstart)) hraises
  have hversion : snapshot.desiredVersion = event.desiredVersion := by
    by_contra hne
    exact hraises (alone_mismatch hoperation hnew hgap hsnapshot hle hdecoded hin hout hstart hne)
  refine ⟨hversion, hdecoded, hin, hout, hstart, fun existing hexisting => ?_⟩
  -- a newer hash of DEVICE_DB would have stood
  by_contra hlt
  obtain ⟨application, hget, -, -, hv⟩ := hreloaded.deviceState
  have hstands : (putVersioned w.orch.device event.envelope.desiredVersion
      (configHashes event.envelope [snapshotCommand event snapshot]))[event.resourceId]? =
      w.orch.device[event.resourceId]? :=
    getElem?_putVersioned_of_newer hexisting (Nat.lt_of_not_le hlt)
  rw [alone_reload hoperation hnew hgap hsnapshot hle hdecoded hin hout hstart hversion,
    published_device] at hget
  have heq : existing = application :=
    Option.some.inj (hexisting.symm.trans (hstands.symm.trans hget))
  subst heq
  exact hlt (by rw [hv, hversion])

/-- Version gap: the event completes, with all that it is to lead to, exactly when the snapshot
has the version of the event. -/
theorem version_gap_reload (pick : Op → World → Nat) (w : World) (n : Nat) (event : ConnectionEvent)
    (snapshot : Gnmi.ConnectionConfig) (hoperation : event.operation = .upsert)
    (hnew : New w event.eventId)
    (hgap : currentVersion w.orch.appl[event.resourceId]? + 1 < event.desiredVersion)
    (hsnapshot : w.config.connections[event.resourceId]? = some snapshot)
    (hle : event.desiredVersion ≤ snapshot.desiredVersion) :
    Completes pick w n event snapshot ↔ Reloadable w event snapshot := by
  constructor
  · exact reloadable_of_completes hoperation hnew hgap hsnapshot hle
  · intro h
    unfold Completes
    rw [alone_reload hoperation hnew hgap hsnapshot hle h.decoded h.inputPort h.outputPort
      h.startable h.version]
    exact ⟨rfl, reloaded_published rfl rfl rfl rfl hgap h⟩

/-- The desired connection at a version. -/
def gapSnapshot (version : Nat) : Gnmi.ConnectionConfig where
  connectionId := "conn-001"
  inputPort := 1
  outputPort := 2
  desiredVersion := version

/-- APPL_DB is empty, and CONFIG_DB has the connection. -/
def gapWorld (version : Nat) : World :=
  { smallWorld with config := { connections := {("conn-001", gapSnapshot version)} } }

def gapEvent : ConnectionEvent where
  eventId := 7
  requestId := 7
  timestampNs := 0
  device := "ocs0"
  resourceId := "conn-001"
  operation := .upsert
  desiredVersion := 3
  payload := some (.obj [("input_port", .int 1), ("output_port", .int 2)])

theorem new_gapEvent (version : Nat) : New (gapWorld version) gapEvent.eventId :=
  ⟨rfl, rfl, rfl, rfl⟩

theorem version_gap_reload_three : Completes (fun _ _ => 0) (gapWorld 3) 0 gapEvent (gapSnapshot 3) :=
  (version_gap_reload (fun _ _ => 0) (gapWorld 3) 0 gapEvent (gapSnapshot 3) rfl (new_gapEvent 3) (by decide)
    (by decide) (by decide)).mpr
    ⟨rfl, ⟨_, rfl⟩, by decide, by decide, rfl, by intro existing h; simp [gapWorld, smallWorld] at h⟩

/-- The desired connection has moved on to version 4 before the event of version 3 is read. -/
theorem newer_snapshot_stuck : gapEvent.operation = .upsert ∧ New (gapWorld 4) gapEvent.eventId ∧
    currentVersion (gapWorld 4).orch.appl[gapEvent.resourceId]? + 1 < gapEvent.desiredVersion ∧
    (gapWorld 4).config.connections[gapEvent.resourceId]? = some (gapSnapshot 4) ∧
    gapEvent.desiredVersion ≤ (gapSnapshot 4).desiredVersion ∧
    ¬ Completes (fun _ _ => 0) (gapWorld 4) 0 gapEvent (gapSnapshot 4) := by
  have hgap : currentVersion (gapWorld 4).orch.appl[gapEvent.resourceId]? + 1 <
      gapEvent.desiredVersion := by decide
  have hsnapshot : (gapWorld 4).config.connections[gapEvent.resourceId]? = some (gapSnapshot 4) := by
    decide
  refine ⟨rfl, new_gapEvent 4, hgap, hsnapshot, by decide, fun h => ?_⟩
  have hversion := (reloadable_of_completes rfl (new_gapEvent 4) hgap hsnapshot (by decide) h).version
  exact absurd hversion (by decide)

end MiniOcs.Orch
