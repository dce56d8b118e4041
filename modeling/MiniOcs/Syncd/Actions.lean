import MiniOcs.Orch.Service
import MiniOcs.Syncd.Poll

/-!
# What syncd does

Every operation that syncd sends, with the state it is sent in and the state it leaves. What
syncd learned from the device holds of a device that may have moved since.
-/
namespace MiniOcs.Syncd
open Std Concurrent

/-- How the device may move while syncd looks away, and whether the link may fail. -/
structure Exposure where
  moves : SimulatedOcsDevice CommandId → SimulatedOcsDevice CommandId → Prop
  lossy : Prop
  refl : ∀ d, moves d d
  trans : ∀ {a b c}, moves a b → moves b c → moves a c

def isDeviceRequest : SyncdOp → Bool
  | .getDeviceInfo | .getConnections | .applyConnections _ _ | .getPortState _ _ => true
  | _ => false

/-- The choices that the link of an exposure leaves. -/
def Exposure.permits (X : Exposure) (o : SyncdOp) (choice : Nat) : Prop :=
  isDeviceRequest o = true → X.lossy ∨ choice = 0

/-! ## Commands -/

structure Pending (w : World) (n : Nat) (event : CommandEvent) : Prop where
  mem : n ∈ w.syncd.group.pending
  get : w.commands[n]? = some event

/-- The batch that a command is processed with. -/
def BatchOf (event : CommandEvent) (batch : DeviceCommandBatch) : Prop :=
  match decodeDeviceCommand event.payload with
  | .ok decoded => batch = withOperation event decoded
  | .error _ => True

/-- A command that is being processed. -/
structure CommandRun (w : World) (n : Nat) (event : CommandEvent) (batch : DeviceCommandBatch) :
    Prop where
  pending : Pending w n event
  unprocessed : w.syncd.hash (.processedCommand event.id) = none
  batch : BatchOf event batch

/-- Nothing is stored of the command's result. -/
structure Unapplied (w : World) (n : Nat) (event : CommandEvent) (batch : DeviceCommandBatch) :
    Prop extends CommandRun w n event batch where
  decoded : ∃ decoded, decodeDeviceCommand event.payload = .ok decoded
  unstored : w.syncd.hash (.applyResult event.id) = none

structure Applied (w : World) (n : Nat) (event : CommandEvent) (batch : DeviceCommandBatch)
    (stored : StoredResult) : Prop extends CommandRun w n event batch where
  stored : w.syncd.hash (.applyResult event.id) = some stored

/-- Every member succeeded in this generation at this version or a newer one. -/
def Stale (w : World) (event : CommandEvent) (batch : DeviceCommandBatch) : Prop :=
  event.id.isGenerationRecovery = false ∧ event.id.isReconciliation = false ∧
    ∀ c ∈ batch.commands, supersededBy w.syncd.deviceGeneration c
      (w.syncd.hash (.connectionVersion c.id)) = true

def found (d : SimulatedOcsDevice CommandId) (id : String) : Option AppliedConnection :=
  d.getConnections.find? fun connection => connection.id = id

def confirmedConnections (d : SimulatedOcsDevice CommandId) (commands : List ConnectionCommand) :
    List AppliedConnection :=
  commands.filterMap fun c => match c.operation with
    | .upsert => found d c.id
    | .remove => none

/-- How a result was obtained from the device. -/
inductive Obtained (X : Exposure) (d : SimulatedOcsDevice CommandId) (event : CommandEvent)
    (batch : DeviceCommandBatch) (result : ApplyResult) : Prop
  | reply : d.applyResults.lookup event.id = some result → Obtained X d event batch result
  | confirmed : (∀ c ∈ batch.commands, intentMatches c (found d c.id) = true) →
      result = ⟨Error.success, confirmedConnections d batch.commands⟩ →
      Obtained X d event batch result
  | foreign : d.info.name ≠ event.device → result.isOk = false → Obtained X d event batch result
  | aborted {d₀ a} : X.moves d₀ d → d₀.applyConnections batch.commands batch.options = .error a →
      result.isOk = false → Obtained X d event batch result
  | lost : X.lossy → result.isOk = false → Obtained X d event batch result

/-! ## Members -/

/-- What publishing the state of a member comes to. -/
inductive MemberStep where
  | skip (marker : StatePublication)
  | write (marker : StatePublication) (operation : ConnectionOperation)
      (state : Option ConnectionState)
  | raise (error : Raised)

def memberStep (result : ApplyResult) (command : ConnectionCommand)
    (previous : Option ConnectionState) : MemberStep :=
  let before := wasActive previous
  if isSupersededState command previous then .skip { activeDelta := 0, superseded := true }
  else match preserveConfirmedPortState command result previous with
    | .error message => .raise (.invalidArgument message)
    | .ok true => .skip { activeDelta := 0, confirmedUnchanged := true }
    | .ok false =>
        if result.isOk then
          match command.operation with
          | .remove => .write { activeDelta := activeDelta before false } .remove none
          | .upsert =>
              match result.connections.find? fun item => item.id = command.id with
              | none =>
                  .raise (.runtimeError "successful device apply omitted connection result")
              | some applied => .write { activeDelta := activeDelta before true } .upsert
                  (some (appliedState command result applied))
        else .write { activeDelta := activeDelta before before } .upsert
          (some (failedState command result previous))

/-- The deltas in the markers of the members; `none` while a marker is missing. -/
def recordedDelta (s : SyncdState) (command : CommandId) : List ConnectionCommand → Option Int
  | [] => some 0
  | c :: rest =>
      match s.hash (.statePublication command c.id), recordedDelta s command rest with
      | some marker, some total => some (marker.activeDelta + total)
      | _, _ => none

def applyCounters (event : CommandEvent) (stored : StoredResult) (delta : Int) :
    CounterUpdate where
  command := some event.id
  increments := applyIncrements stored.result delta
  latencyMs := some stored.latencyMs

/-- The result event of a member. -/
def memberResultEvent (s : SyncdState) (event : CommandEvent) (stored : StoredResult)
    (c : ConnectionCommand) : ResultEvent :=
  resultEvent event (some c.id) c.id c.desiredVersion
    (memberResult c stored.result (s.hash (.statePublication event.id c.id)))

/-! ## Completion -/

/-- The version hashes that move forward with a success. -/
def versionsOf (s : SyncdState) (commands : List ConnectionCommand) : List SyncdEntry :=
  commands.filterMap fun c =>
    if supersededBy s.deviceGeneration c (s.hash (.connectionVersion c.id)) then none
    else some ⟨.connectionVersion c.id, ⟨c.desiredVersion, s.deviceGeneration⟩⟩

/-- The hashes of reconciliations and ports, which commands only pass on. -/
def isRepairKey : SyncdKey → Bool
  | .reconciliation | .portFault _ _ => true
  | _ => false

/-- Why a command is marked as processed, with its outcome. -/
inductive Completed (w : World) (event : CommandEvent) (batch : DeviceCommandBatch) :
    Bool → Prop
  | stale : w.syncd.hash (.applyResult event.id) = none →
      w.syncd.hash (.applyAttempt event.id) = none → Stale w event batch →
      Completed w event batch false
  | applied {stored : StoredResult} : w.syncd.hash (.applyResult event.id) = some stored →
      (w.syncd.hash (.countersPublication event.id)).isSome →
      (∀ c ∈ batch.commands, (w.syncd.hash (.resultPublication event.id c.id)).isSome) →
      Completed w event batch stored.result.isOk

/-! ## Bookkeeping of the poll -/

/-- Keys that no command depends on: ports, alarms, counters of the poll and the control hash of
reconciliations. -/
def isAsideKey : SyncdKey → Bool
  | .portState _ _ | .portFault _ _ | .activeAlarm _ | .driftAlarmPublication _
  | .driftAlarmClearPublication _ | .portAlarmPublication _ | .portAlarmClearPublication _
  | .alarmCounterPublication _ _ | .reconciliation | .reconciliationCountersPublication _
  | .reconciliationSuccessPublication _ | .generationCountersPublication _ => true
  | _ => false

def isAsideEvent (event : StateEvent) : Bool :=
  match event.id with
  | .device _ | .port _ _ _ => true
  | _ => false

/-- Only such bookkeeping differs. -/
structure AsideOnly (w w' : World) : Prop where
  inventory : w'.inventory = w.inventory
  config : w'.config = w.config
  orch : w'.orch = w.orch
  commands : w'.commands = w.commands
  hwsim : w'.hwsim = w.hwsim
  state : w'.syncd.state = w.syncd.state
  results : w'.syncd.results = w.syncd.results
  group : w'.syncd.group = w.syncd.group
  deviceName : w'.syncd.deviceName = w.syncd.deviceName
  deviceGeneration : w'.syncd.deviceGeneration = w.syncd.deviceGeneration
  hash : ∀ k, isAsideKey k = false → w'.syncd.hash k = w.syncd.hash k
  stateEvents : ∃ extra, w'.syncd.stateEvents = w.syncd.stateEvents ++ extra ∧
    ∀ e ∈ extra, isAsideEvent e = true
  counters : ∃ extra, w'.counters = w.counters ++ extra ∧ ∀ u ∈ extra, u.command = none

/-! ## Repairs -/

/-- No port of the device is unavailable. -/
def AllUp (d : SimulatedOcsDevice CommandId) : Prop :=
  ∀ direction id port, d.getPortState direction id = .ok port → id ≠ 0 →
    id ≤ d.portCount direction → portUnavailable port = false

/-- All ports stay up on the way from one device to the other. -/
def UpBetween (X : Exposure) (d e : SimulatedOcsDevice CommandId) : Prop :=
  ∀ d', X.moves d d' → X.moves d' e → AllUp d' ∧ d'.info = d.info

/-- The state of a connection says what the device has. -/
def Truthful (d : SimulatedOcsDevice CommandId) (id : String) (state : ConnectionState) : Prop :=
  match found d id with
  | some x => state.actualPresent = true ∧ state.inputPort = x.inputPort ∧
      state.outputPort = x.outputPort ∧ state.appliedVersion = x.appliedVersion
  | none => state.actualPresent = false

/-- A command that syncd publishes itself: its members are not newer than the application. -/
structure Repair (w : World) (event : CommandEvent) : Prop where
  device : event.device = w.hwsim.info.name
  nodup : (event.payload.commands.map (·.id)).Nodup
  decodes : decodeDeviceCommand event.payload = .ok event.payload
  known : ∀ c ∈ event.payload.commands, c.desiredVersion ≤
    Orch.currentVersion w.orch.appl[c.id]?

/-- A device of another generation than the recorded one. -/
def NewGeneration (X : Exposure) (w : World) (generation : Nat) : Prop :=
  ∃ d, X.moves d w.hwsim ∧ generation = d.info.generation ∧
    sameGeneration d.info (w.syncd.hash .deviceState) = false

/-! ## Actions -/

inductive Action (X : Exposure) (w : World) : SyncdOp → World → Prop
  | idle {o} : Action X w o w
  | aside {o w'} : AsideOnly w w' → Action X w o w'
  | deliver {n} : w.syncd.group.pending = [] → w.syncd.group.delivered = n →
      n < w.commands.length →
      Action X w .readGroup (w.setSyncd { w.syncd with group := ⟨n + 1, [n]⟩ })
  | remember {name generation d} : X.moves d w.hwsim → name = d.info.name →
      generation = d.info.generation →
      w.syncd.deviceName ≠ "" ∨ (w.syncd.hash .deviceState).isSome →
      Action X w (.remember name generation)
        (w.setSyncd { w.syncd with deviceName := name, deviceGeneration := generation })
  -- commands
  | attempt {n event batch} : Unapplied w n event batch →
      w.syncd.hash (.applyAttempt event.id) = none → ¬Stale w event batch →
      Action X w (.putHashIfAbsent (.applyAttempt event.id) batch)
        (w.markSyncd (.applyAttempt event.id) batch)
  | apply {n event batch choice} : Unapplied w n event batch →
      (w.syncd.hash (.applyAttempt event.id)).isSome → X.lossy ∨ choice = 0 →
      Action X w (.applyConnections batch.commands batch.options)
        { w with hwsim := (applyOverLink choice w.hwsim batch.commands batch.options).2 }
  | store {n event batch d result latencyMs} : Unapplied w n event batch →
      (w.syncd.hash (.applyAttempt event.id)).isSome → X.moves d w.hwsim →
      Obtained X d event batch result →
      Action X w (.putHash (.applyResult event.id) ⟨result, latencyMs⟩)
        (w.markSyncd (.applyResult event.id) ⟨result, latencyMs⟩)
  | malformed {n event message} : Pending w n event →
      w.syncd.hash (.processedCommand event.id) = none →
      decodeDeviceCommand event.payload = .error message →
      Action X w (.putHash (.applyResult event.id) ⟨refused .protocolMalformed message, 0⟩)
        (w.markSyncd (.applyResult event.id) ⟨refused .protocolMalformed message, 0⟩)
  | skipMember {n event batch stored c marker} : Applied w n event batch stored →
      c ∈ batch.commands → w.syncd.hash (.statePublication event.id c.id) = none →
      memberStep stored.result c w.syncd.state[c.id]? = .skip marker →
      Action X w (.putHashIfAbsent (.statePublication event.id c.id) marker)
        (w.markSyncd (.statePublication event.id c.id) marker)
  | writeMember {n event batch stored c marker operation state} : Applied w n event batch stored →
      c ∈ batch.commands → w.syncd.hash (.statePublication event.id c.id) = none →
      memberStep stored.result c w.syncd.state[c.id]? = .write marker operation state →
      Action X w (.replaceStateOnce (.statePublication event.id c.id) marker c.id state
          (memberStateEvent event c operation state))
        (w.publishState (.statePublication event.id c.id) marker c.id state
          (memberStateEvent event c operation state))
  | counters {n event batch stored delta} : Applied w n event batch stored →
      recordedDelta w.syncd event.id batch.commands = some delta →
      w.syncd.hash (.countersPublication event.id) = none →
      Action X w (.incrementOnce (.countersPublication event.id) ()
          (applyCounters event stored delta))
        ({ w with counters := w.counters ++ [applyCounters event stored delta] }.markSyncd
          (.countersPublication event.id) ())
  | result {n event batch stored c} : Applied w n event batch stored → c ∈ batch.commands →
      (w.syncd.hash (.countersPublication event.id)).isSome →
      w.syncd.hash (.resultPublication event.id c.id) = none →
      Action X w (.appendResultOnce (.resultPublication event.id c.id) ()
          (memberResultEvent w.syncd event stored c))
        ((w.setSyncd { w.syncd with
            results := w.syncd.results ++ [memberResultEvent w.syncd event stored c] }).markSyncd
          (.resultPublication event.id c.id) ())
  | malformedResult {n event message r} : Pending w n event →
      decodeDeviceCommand event.payload = .error message →
      w.syncd.hash (.resultPublication event.id event.resourceId) = none →
      r.id = ⟨event.id, none⟩ →
      Action X w (.appendResultOnce (.resultPublication event.id event.resourceId) () r)
        ((w.setSyncd { w.syncd with results := w.syncd.results ++ [r] }).markSyncd
          (.resultPublication event.id event.resourceId) ())
  | processed {n event batch applied repairs} : CommandRun w n event batch →
      Completed w event batch applied → (∀ entry ∈ repairs, isRepairKey entry.1 = true) →
      Action X w (.putHashesAtomically (⟨.processedCommand event.id, applied⟩ ::
          (if applied then versionsOf w.syncd batch.commands else []) ++ repairs))
        (w.putEntries (⟨.processedCommand event.id, applied⟩ ::
          (if applied then versionsOf w.syncd batch.commands else []) ++ repairs))
  | ack {n event} : Pending w n event → (w.syncd.hash (.processedCommand event.id)).isSome →
      Action X w (.xack n) (w.setSyncd { w.syncd with group := (w.syncd.group.ack n).2 })
  -- the poll
  | deviceState {o w' value d} : X.moves d w.hwsim →
      value.deviceGeneration = d.info.generation ∨
        (w.syncd.deviceName ≠ "" ∧ value.deviceGeneration = w.syncd.deviceGeneration) →
      AsideOnly (w.markSyncd .deviceState value) w' → Action X w o w'
  | generationState {generation id delta state event} : NewGeneration X w generation →
      w.syncd.hash (.generationStatePublication generation id) = none →
      event.id = .actual generation id →
      Action X w (.replaceStateOnce (.generationStatePublication generation id) delta id state
          event)
        (w.publishState (.generationStatePublication generation id) delta id state event)
  | generationSettled {generation} : NewGeneration X w generation →
      Action X w (.putHashIfAbsent (.generationRecovery generation) ⟨false, none⟩)
        (w.markSyncd (.generationRecovery generation) ⟨false, none⟩)
  | repairBatch {id batch} : id.isGenerationRecovery = true ∨ id.isReconciliation = true →
      Action X w (.putHash (.configBatch id) batch) (w.markSyncd (.configBatch id) batch)
  | recoveryCommand {generation event} : NewGeneration X w generation →
      w.syncd.hash (.generationRecovery generation) = none →
      event.id = .recovery generation → Repair w event →
      Action X w (.appendCommandOnce (.generationRecovery generation)
          ⟨true, some (.recovery generation)⟩ event)
        ({ w with commands := w.commands ++ [event] }.markSyncd (.generationRecovery generation)
          ⟨true, some (.recovery generation)⟩)
  | reconciliationState {command id phase delta state event d e} :
      w.syncd.hash (.reconciliationStatePublication command id phase) = none →
      X.moves d e → X.moves e w.hwsim →
      (UpBetween X d w.hwsim → Truthful e id state) →
      event.id = .drifted command id ∨ event.id = .reconciling command id →
      Action X w (.replaceStateOnce (.reconciliationStatePublication command id phase) delta id
          (some state) event)
        (w.publishState (.reconciliationStatePublication command id phase) delta id (some state)
          event)
  | reconciliationCommand {timestampNs event} :
      w.syncd.hash (.reconciliationCommandPublication (.reconcile timestampNs)) = none →
      event.id = .reconcile timestampNs → Repair w event →
      Action X w (.appendCommandOnce (.reconciliationCommandPublication (.reconcile timestampNs))
          () event)
        ({ w with commands := w.commands ++ [event] }.markSyncd
          (.reconciliationCommandPublication (.reconcile timestampNs)) ())

end MiniOcs.Syncd
