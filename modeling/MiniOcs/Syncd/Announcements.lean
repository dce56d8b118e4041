import MiniOcs.Syncd.Footprint
import MiniOcs.Syncd.Reads

/-!
# Every change is announced

Syncd writes a connection state or an alarm only together with the event that says so, and what it
writes as active is present. The command handler and the poll are gone through once; what follows
for the databases is said of whole runs elsewhere.
-/
namespace MiniOcs
open Concurrent

/-- The connection that a state event is about. -/
def StateEventId.about : StateEventId → Option String
  | .command _ connection | .actual _ connection | .drifted _ connection
  | .reconciling _ connection => some connection
  | .device _ | .port _ _ _ => none

/-- The alarm that an alarm event leaves behind. -/
def AlarmEvent.leaves (event : AlarmEvent) : Option Alarm :=
  match event.operation with
  | .upsert => some event.alarm
  | .remove => none

/-- A state under its own id: what is active is present, and nothing is applied of what is not. -/
structure WellRecorded (id : String) (state : ConnectionState) : Prop where
  keyed : state.id = id
  present : state.applyStatus = .active → state.actualPresent = true
  absent : state.actualPresent = false → state.appliedVersion = 0

structure ToldAlarm (id : AlarmId) (alarm : Option Alarm) (event : AlarmEvent) : Prop where
  about : event.alarm.id = id
  leaves : event.leaves = alarm
  active : ∀ a, alarm = some a → a.active = true

theorem ToldAlarm.raise {id : AlarmId} {alarm : Alarm} (hid : alarm.id = id)
    (h : alarm.active = true) : ToldAlarm id (some alarm) ⟨alarm, .upsert⟩ :=
  ⟨hid, rfl, fun a ha => by cases ha; exact h⟩

theorem ToldAlarm.clear {id : AlarmId} {alarm : Alarm} (h : alarm.id = id) :
    ToldAlarm id none ⟨alarm, .remove⟩ := ⟨h, rfl, nofun⟩

namespace Syncd

def isActiveAlarm : SyncdKey → Bool
  | .activeAlarm _ => true
  | _ => false

/-- The alarms that syncd raises. -/
def raisesAlarm : AlarmId → Bool
  | .applyTimeout _ => false
  | .desiredActualDrift | .portDown _ _ => true

def Announces : SyncdOp → Prop
  | .putHash k _ => isActiveAlarm k = false
  | .putHashIfAbsent k _ => isActiveAlarm k = false
  | .putHashesAtomically entries => ∀ entry ∈ entries, isActiveAlarm entry.1 = false
  | .replaceHashAndAppendEvent k _ event => isActiveAlarm k = false ∧ event.id.about = none
  | .replaceStateOnce marker _ id state event => isActiveAlarm marker = false ∧
      event.id.about = some id ∧ event.connection = state ∧
      ∀ s, state = some s → WellRecorded id s
  | .replaceAlarmOnce marker _ id alarm event => isActiveAlarm marker = false ∧
      raisesAlarm id = true ∧ ToldAlarm id alarm event
  | .appendResultOnce marker _ _ => isActiveAlarm marker = false
  | .appendCommandOnce marker _ _ => isActiveAlarm marker = false
  | .incrementOnce marker _ _ => isActiveAlarm marker = false
  | _ => True

def AlarmKeyed : (k : SyncdKey) → SyncdHash k → Prop
  | .activeAlarm id, alarm => alarm.id = id
  | _, _ => True

/-- What is read was well recorded. -/
def Recounts : (o : SyncdOp) → o.Reply → Prop
  | .getState id, reply => ∀ s, reply = some s → WellRecorded id s
  | .getHash k, reply => ∀ v, reply = some v → AlarmKeyed k v
  | _, _ => True

def AnnouncesOp : Op → Prop
  | .orch _ => False
  | .syncd o => Announces o

def RecountsOp : (o : Op) → o.Reply → Prop
  | .orch _, _ => True
  | .syncd o, reply => Recounts o reply

/-- The program announces whatever it writes. -/
abbrev Announced {α : Type} (p : Service α) : Prop :=
  p.Given AnnouncesOp RecountsOp fun _ => True

/-! ## Rules -/

section Rules

variable {α β : Type}

theorem announced_send {o : SyncdOp} {k : o.Reply → Service α} (ho : Announces o)
    (hk : ∀ r, Recounts o r → Announced (k r)) : Announced (send o >>= k) := ⟨ho, hk⟩

/-- A call whose reply says nothing. -/
theorem announced_then {o : SyncdOp} {k : o.Reply → Service α} (ho : Announces o)
    (hk : ∀ r, Announced (k r)) : Announced (send o >>= k) := ⟨ho, fun r _ => hk r⟩

theorem announced_last {o : SyncdOp} (ho : Announces o) : Announced (send o) :=
  ⟨ho, fun _ _ => trivial⟩

theorem announced_raise {e : Raised} : Announced (raise e : Service α) :=
  ⟨trivial, fun _ _ => trivial⟩

theorem Announced.bind {p : Service β} {f : β → Service α} (hp : Announced p)
    (hf : ∀ b, Announced (f b)) : Announced (p >>= f) := Prog.Given.bind hp fun b _ => hf b

/-- What writes nothing has nothing to announce. -/
theorem announced_of_within {p : Service α} (h : p.Only (Within noKey noField)) : Announced p := by
  refine (h.mono fun o ho => ?_).given
  have hwrites := ho.writes
  cases o with
  | orch o => exact hwrites.elim
  | syncd o =>
      cases o with
      | putHash _ _ | putHashIfAbsent _ _ | replaceHashAndAppendEvent _ _ _
      | replaceStateOnce _ _ _ _ _ | appendResultOnce _ _ _ => cases hwrites
      | putHashesAtomically entries => exact fun entry hmem => by cases hwrites entry hmem
      | replaceAlarmOnce _ _ _ _ _ | appendCommandOnce _ _ _ | incrementOnce _ _ _ =>
          cases hwrites.1
      | _ => trivial

end Rules

/-! ## The command handler -/

section Commands

theorem announced_markedDelta (delta : Option Int) : Announced (markedDelta delta) := by
  cases delta with
  | none => exact announced_raise
  | some delta => trivial

theorem announced_acknowledge (n : Nat) : Announced (acknowledge n) := by
  refine announced_then trivial fun acknowledged => ?_
  split_ifs
  · trivial
  · exact announced_raise

theorem announced_replaceMemberState (event : CommandEvent) (c : ConnectionCommand)
    (before after : Bool) (operation : ConnectionOperation) {state : Option ConnectionState}
    (h : ∀ s, state = some s → WellRecorded c.id s) :
    Announced (replaceMemberState event c before after operation state) := by
  refine announced_then ⟨rfl, rfl, rfl, h⟩ fun published => ?_
  split_ifs
  · trivial
  · exact announced_then trivial fun marker => announced_markedDelta _

theorem wellRecorded_appliedState (c : ConnectionCommand) (result : ApplyResult)
    (applied : AppliedConnection) : WellRecorded c.id (appliedState c result applied) :=
  ⟨rfl, fun _ => rfl, nofun⟩

/-- A failure keeps what was confirmed before. -/
theorem wellRecorded_failedState (c : ConnectionCommand) (result : ApplyResult)
    {previous : Option ConnectionState} (h : ∀ s, previous = some s → WellRecorded c.id s) :
    WellRecorded c.id (failedState c result previous) := by
  cases previous with
  | none => exact ⟨rfl, nofun, fun _ => rfl⟩
  | some state => exact ⟨(h state rfl).keyed, nofun, (h state rfl).absent⟩

theorem announced_publishMemberState (event : CommandEvent) (result : ApplyResult)
    (c : ConnectionCommand) (previous : Option ConnectionState) :
    Announced (publishMemberState event result c previous) := by
  unfold publishMemberState
  dsimp only
  split_ifs with hok
  · cases c.operation with
    | remove => exact announced_replaceMemberState event c _ _ _ nofun
    | upsert =>
        dsimp only
        cases result.connections.find? fun item => item.id = c.id with
        | none => exact announced_raise
        | some applied =>
            refine announced_replaceMemberState event c _ _ _ ?_
            rintro s ⟨⟩
            exact wellRecorded_appliedState c result applied
  · refine announced_send trivial fun state hstate => ?_
    refine announced_replaceMemberState event c _ _ _ ?_
    rintro s ⟨⟩
    exact wellRecorded_failedState c result hstate

theorem announced_skipMemberState (event : CommandEvent) (c : ConnectionCommand)
    (marker : StatePublication) : Announced (skipMemberState event c marker) := by
  refine announced_then rfl fun _ => ?_
  exact announced_then trivial fun marker => announced_markedDelta _

theorem announced_publishMember (event : CommandEvent) (result : ApplyResult)
    (c : ConnectionCommand) : Announced (publishMember event result c) := by
  refine announced_then trivial fun published => ?_
  cases published with
  | some marker => trivial
  | none =>
      refine announced_then trivial fun previous => ?_
      split_ifs
      · exact announced_skipMemberState event c _
      · split
        · exact announced_raise
        · exact announced_skipMemberState event c _
        · exact announced_publishMemberState event result c previous

theorem announced_publishState (event : CommandEvent) (result : ApplyResult) (total : Int)
    (commands : List ConnectionCommand) :
    Announced (publishState event result total commands) := by
  induction commands generalizing total with
  | nil => trivial
  | cons c rest ih => exact (announced_publishMember event result c).bind fun _ => ih _

theorem announced_publishMemberResults (event : CommandEvent) (result : ApplyResult)
    (commands : List ConnectionCommand) :
    Announced (publishMemberResults event result commands) := by
  induction commands with
  | nil => trivial
  | cons c rest ih =>
      refine announced_then trivial fun marker => ?_
      exact announced_then rfl fun _ => ih

theorem announced_publishResult (event : CommandEvent) (batch : DeviceCommandBatch)
    (result : ApplyResult) : Announced (publishResult event batch result) := by
  unfold publishResult
  split_ifs
  · exact announced_then rfl fun _ => trivial
  · exact announced_publishMemberResults event result batch.commands

theorem announces_of_read {o : SyncdOp} (h : isRead o = true) : Announces o := by
  cases o with
  | putHash _ _ | putHashIfAbsent _ _ | putHashesAtomically _ | replaceHashAndAppendEvent _ _ _
  | replaceStateOnce _ _ _ _ _ | replaceAlarmOnce _ _ _ _ _ | appendResultOnce _ _ _
  | appendCommandOnce _ _ _ | incrementOnce _ _ _ => cases h
  | _ => trivial

theorem announced_markProcessed (event : CommandEvent) (batch : DeviceCommandBatch)
    (applied : Bool) : Announced (markProcessed event batch applied) := by
  refine (given_markProcessed (P := AnnouncesOp) (fun o ho => ?_)
    fun generation versions repairs hversions hrepairs => ?_).assume fun _ _ _ => trivial
  · rcases ho with hreads | rfl
    · cases o with
      | orch o => exact hreads.elim
      | syncd o => exact announces_of_read hreads
    · exact rfl
  · intro entry hmem
    rcases List.mem_append.mp hmem with hmem | hmem
    · rcases List.mem_cons.mp hmem with rfl | hmem
      · rfl
      · obtain ⟨c, -, rfl⟩ := hversions entry hmem
        rfl
    · have hkey := hrepairs entry hmem
      obtain ⟨k, v⟩ := entry
      cases k with
      | activeAlarm id => cases hkey
      | _ => rfl

theorem announced_finishCommand (n : Nat) (event : CommandEvent) (batch : DeviceCommandBatch)
    (stored : StoredResult) : Announced (finishCommand n event batch stored) := by
  refine (announced_publishState event stored.result 0 batch.commands).bind fun delta => ?_
  refine announced_then rfl fun _ => ?_
  refine (announced_publishResult event batch stored.result).bind fun _ => ?_
  exact (announced_markProcessed event batch _).bind fun _ => announced_acknowledge n

theorem announced_attemptCommand (n : Nat) (event : CommandEvent) (batch : DeviceCommandBatch) :
    Announced (attemptCommand n event batch) := by
  refine announced_then rfl fun _ => ?_
  refine (announced_of_within (within_applyCommand event batch)).bind fun result => ?_
  refine announced_then trivial fun latencyMs => ?_
  refine announced_then rfl fun _ => announced_then trivial fun stored => ?_
  cases stored with
  | none => exact announced_raise
  | some stored => exact announced_finishCommand n event batch stored

theorem announced_startCommand (n : Nat) (event : CommandEvent) (batch : DeviceCommandBatch) :
    Announced (startCommand n event batch) := by
  refine announced_then trivial fun stored => ?_
  cases stored with
  | some stored => exact announced_finishCommand n event batch stored
  | none =>
      refine announced_then trivial fun attempt => ?_
      cases attempt with
      | some _ => exact announced_attemptCommand n event batch
      | none =>
          refine (announced_of_within (within_isStaleVersion event batch)).bind fun stale => ?_
          split_ifs
          · exact (announced_markProcessed event batch false).bind fun _ => announced_acknowledge n
          · exact announced_attemptCommand n event batch

theorem announced_processOne : Announced processOne := by
  refine (announced_of_within within_nextCommand).bind fun message => ?_
  match message with
  | none => trivial
  | some (n, event) =>
      refine announced_then trivial fun processed => ?_
      cases processed with
      | some _ => exact announced_acknowledge n
      | none =>
          dsimp only
          cases decodeDeviceCommand event.payload with
          | ok batch => exact announced_startCommand n event _
          | error message =>
              refine (announced_of_within (within_recoverPreparedBatch event)).bind fun batch => ?_
              exact announced_then rfl fun _ => announced_startCommand n event batch

end Commands

/-! ## The poll -/

section Poll

theorem announced_readOrRaise {α : Type} (reply : Except String α) : Announced (readOrRaise reply) := by
  cases reply with
  | ok value => trivial
  | error message => exact announced_raise

theorem announced_countAlarm (activation : ActivationId) (clear : Bool)
    (increments : List (CounterField × Int)) : Announced (countAlarm activation clear increments) :=
  announced_then rfl fun _ => trivial

/-! ### Ports -/

theorem announced_publishPortAlarm (port : PortState) (activation : ActivationId) (affected : Nat) :
    Announced (publishPortAlarm port activation affected) := by
  refine announced_then trivial fun marker => ?_
  cases marker with
  | some _ => exact announced_countAlarm _ _ _
  | none =>
      refine announced_then trivial fun now => ?_
      refine announced_then ⟨rfl, rfl, .raise rfl rfl⟩ fun _ => ?_
      exact announced_countAlarm _ _ _

theorem announced_countClearedPortAlarm (activation : ActivationId) (marker : Option Unit) :
    Announced (countClearedPortAlarm activation marker) := by
  cases marker with
  | none => trivial
  | some _ => exact announced_countAlarm _ _ _

theorem announced_clearPortAlarm (port : PortState) (activation : ActivationId) :
    Announced (clearPortAlarm port activation) := by
  refine announced_then trivial fun marker => ?_
  cases marker with
  | some _ => exact announced_countClearedPortAlarm activation _
  | none =>
      refine announced_send trivial fun active hactive => ?_
      cases active with
      | none => trivial
      | some alarm =>
          refine announced_then trivial fun now => ?_
          refine announced_then ⟨rfl, rfl, .clear (hactive alarm rfl)⟩ fun _ => ?_
          exact announced_then trivial fun marker => announced_countClearedPortAlarm activation marker

theorem announced_publishPortChange (port : PortState) (previous : Option PortState) :
    Announced (publishPortChange port previous) := by
  unfold publishPortChange
  split_ifs
  · trivial
  · refine announced_then trivial fun now => ?_
    cases previous with
    | none => exact announced_last rfl
    | some _ => exact announced_last ⟨rfl, rfl⟩

theorem announced_openPortFault (port : PortState) (fault : Option PortFault) :
    Announced (openPortFault port fault) := by
  unfold openPortFault
  split
  · trivial
  · exact announced_then trivial fun now => announced_then rfl fun _ => trivial

theorem announced_clearedStatus (fault : PortFault) : Announced (clearedStatus fault) := by
  unfold clearedStatus
  split
  · trivial
  · refine announced_then trivial fun processed => ?_
    split <;> trivial
  · trivial

theorem announced_closePortFault (port : PortState) (fault : Option PortFault) :
    Announced (closePortFault port fault) := by
  unfold closePortFault
  split
  · trivial
  · refine (announced_clearPortAlarm port _).bind fun _ => ?_
    exact (announced_clearedStatus _).bind fun status => announced_last rfl

theorem announced_publishPortState (port : PortState) (affected : Nat) :
    Announced (publishPortState port affected) := by
  refine announced_then trivial fun previous => ?_
  refine (announced_publishPortChange port _).bind fun _ => announced_then trivial fun fault => ?_
  split_ifs
  · exact (announced_openPortFault port fault).bind fun _ => announced_publishPortAlarm _ _ _
  · exact announced_closePortFault port fault

theorem announced_pollDirection (direction : PortDirection) (actual : List AppliedConnection)
    (unavailable ids : List Nat) : Announced (pollDirection direction actual unavailable ids) := by
  induction ids generalizing unavailable with
  | nil => trivial
  | cons id rest ih =>
      refine announced_then trivial fun reply => (announced_readOrRaise reply).bind fun port => ?_
      exact (announced_publishPortState port _).bind fun _ => ih _

theorem announced_pollPortStates (info : DeviceInfo) (actual : List AppliedConnection) :
    Announced (pollPortStates info actual) :=
  (announced_pollDirection _ _ _ _).bind fun _ => (announced_pollDirection _ _ _ _).bind
    fun _ => trivial

theorem announced_publishDeviceState (generation count : Nat) (status : DeviceOperStatus)
    (error : Error) : Announced (publishDeviceState generation count status error) :=
  announced_then trivial fun _ => announced_last ⟨rfl, rfl⟩

/-! ### Generation recovery -/

theorem wellRecorded_refreshedState (c : ConnectionCommand) (found : Option AppliedConnection)
    {s : ConnectionState} (h : refreshedState c found = some s) : WellRecorded c.id s := by
  unfold refreshedState at h
  split at h
  · cases h
  · cases h
    exact ⟨rfl, fun _ => rfl, nofun⟩
  · cases h
    exact ⟨rfl, nofun, fun _ => rfl⟩

theorem announced_replaceGenerationState (generation : Nat) {id : String} (version : Nat)
    (before after : Bool) {state : Option ConnectionState}
    (h : ∀ s, state = some s → WellRecorded id s) :
    Announced (replaceGenerationState generation id version before after state) := by
  refine announced_then ⟨rfl, rfl, rfl, h⟩ fun published => ?_
  unfold publishedDelta
  split_ifs
  · trivial
  · exact announced_then trivial fun marked => announced_markedDelta marked

theorem announced_refreshIntended (generation : Nat) (scan : RecoveryScan) (keys : List String) :
    Announced (refreshIntended generation scan keys) := by
  induction keys generalizing scan with
  | nil => trivial
  | cons key rest ih =>
      refine announced_then trivial fun snapshot => ?_
      cases snapshot with
      | none => exact ih scan
      | some snapshot =>
          dsimp only
          cases intendedCommand snapshot with
          | error message => exact announced_raise
          | ok command =>
              refine announced_then trivial fun previous => ?_
              refine (announced_replaceGenerationState generation _ _ _ ?_).bind fun _ => ih _
              exact fun s hs => wellRecorded_refreshedState command _ hs

theorem announced_refreshUnexpected (generation : Nat) (scan : RecoveryScan)
    (remaining : List AppliedConnection) :
    Announced (refreshUnexpected generation scan remaining) := by
  induction remaining generalizing scan with
  | nil => trivial
  | cons connection rest ih =>
      refine announced_then trivial fun previous => ?_
      refine (announced_replaceGenerationState generation _ _ _ ?_).bind fun _ => ih _
      rintro s ⟨⟩
      exact ⟨rfl, nofun, nofun⟩

theorem announced_publishRecovery (info : DeviceInfo) (commands : List ConnectionCommand) :
    Announced (publishRecovery info commands) := by
  unfold publishRecovery
  split_ifs
  · exact announced_then rfl fun _ => trivial
  · exact announced_then rfl fun _ => announced_then rfl fun _ => trivial

theorem announced_scheduleGenerationRecovery (info : DeviceInfo)
    (actual : List AppliedConnection) : Announced (scheduleGenerationRecovery info actual) := by
  refine announced_then trivial fun scheduled => ?_
  cases scheduled with
  | some _ => trivial
  | none =>
      refine announced_then trivial fun keys => ?_
      refine (announced_refreshIntended _ _ keys).bind fun intended => ?_
      refine (announced_refreshUnexpected _ intended _).bind fun scan => ?_
      exact announced_then rfl fun _ => announced_publishRecovery info _

/-! ### Reconciliation -/

theorem announced_putFaults (faults : List ((PortDirection × Nat) × PortFault))
    (update : (PortDirection × Nat) × PortFault → (PortDirection × Nat) × PortFault) :
    Announced (send (.putHashesAtomically (faults.map fun fault => portFaultEntry (update fault)))) := by
  refine announced_last fun entry hmem => ?_
  obtain ⟨fault, -, rfl⟩ := List.mem_map.mp hmem
  rfl

theorem announced_recoverPlan (desired : List ConnectionCommand) (actual : List AppliedConnection)
    (faults : List ((PortDirection × Nat) × PortFault)) (plan : ReconciliationPlan) :
    Announced (recoverPlan desired actual faults plan) := by
  unfold recoverPlan
  split_ifs
  · trivial
  · refine (announced_of_within (within_portDrifts actual [] desired)).bind fun drifts => ?_
    split_ifs
    · refine Announced.bind ?_ fun _ => trivial
      unfold recoverFaults
      dsimp only
      split_ifs
      · trivial
      · exact announced_putFaults _ fun fault => (fault.1, { fault.2 with status := .recovered })
    · trivial

theorem announced_associatePortFaults (command : CommandId) :
    Announced (associatePortFaults command) := by
  refine (announced_of_within within_portFaults).bind fun faults => ?_
  dsimp only
  split_ifs
  · trivial
  · exact announced_putFaults _ fun fault =>
      (fault.1, { fault.2 with status := .recoveryPublished, command := some command })

theorem wellRecorded_driftedState (drift : ConnectionDrift) (status : ConnectionApplyStatus)
    (h : status ≠ .active) :
    WellRecorded drift.id { driftedState drift with applyStatus := status } := by
  refine ⟨rfl, fun hactive => absurd hactive h, fun habsent => ?_⟩
  have hkind : decide (drift.kind ≠ .missing) = false := habsent
  simp only [driftedState, hkind, Bool.false_eq_true, if_false]

theorem announced_publishDrift (command : CommandId) (drift : ConnectionDrift)
    (previous : Option ConnectionState) : Announced (publishDrift command drift previous) := by
  refine announced_then ⟨rfl, rfl, rfl, ?_⟩ fun published => ?_
  · rintro s ⟨⟩
    exact wellRecorded_driftedState drift .drifted nofun
  · refine Announced.bind ?_ fun delta => ?_
    · unfold publishedDelta
      split_ifs
      · trivial
      · exact announced_then trivial fun marked => announced_markedDelta marked
    · refine announced_then ⟨rfl, rfl, rfl, ?_⟩ fun _ => trivial
      rintro s ⟨⟩
      exact wellRecorded_driftedState drift .reconciling nofun

theorem announced_publishDrifts (command : CommandId) (total : Int)
    (drifts : List ConnectionDrift) : Announced (publishDrifts command total drifts) := by
  induction drifts generalizing total with
  | nil => trivial
  | cons drift rest ih =>
      refine announced_then trivial fun previous => ?_
      split_ifs
      · exact ih total
      · exact (announced_publishDrift command drift previous).bind fun _ => ih _

theorem announced_countDriftAlarm (marker : Option AlarmMarker) :
    Announced (countDriftAlarm marker) := by
  unfold countDriftAlarm
  split
  · exact announced_raise
  · split_ifs
    · exact announced_countAlarm _ _ _
    · trivial

theorem announced_publishDriftAlarm (command : CommandId) (desiredVersion count : Nat) :
    Announced (publishDriftAlarm command desiredVersion count) := by
  refine announced_then trivial fun marker => ?_
  cases marker with
  | some marker => exact announced_countDriftAlarm _
  | none =>
      refine announced_then trivial fun active => announced_then trivial fun now => ?_
      refine announced_then ⟨rfl, rfl, .raise rfl rfl⟩ fun _ => ?_
      exact announced_then trivial fun marker => announced_countDriftAlarm marker

theorem announced_countClearedDriftAlarm (marker : Option AlarmMarker) :
    Announced (countClearedDriftAlarm marker) := by
  unfold countClearedDriftAlarm
  split
  · exact announced_raise
  · exact announced_countAlarm _ _ _

theorem announced_clearDriftAlarm (command : CommandId) (desiredVersion : Nat) :
    Announced (clearDriftAlarm command desiredVersion) := by
  refine announced_then trivial fun marker => announced_send trivial fun active hactive => ?_
  match marker, active with
  | none, none => trivial
  | some marker, _ => exact announced_countClearedDriftAlarm _
  | none, some alarm =>
      refine announced_then trivial fun now => ?_
      refine announced_then ⟨rfl, rfl, .clear (hactive alarm rfl)⟩ fun _ => ?_
      exact announced_then trivial fun marker => announced_countClearedDriftAlarm marker

theorem announced_convergeControl (control : Option ReconciliationControl) :
    Announced (convergeControl control) := by
  unfold convergeControl
  split
  · trivial
  · split_ifs
    · trivial
    · exact (announced_clearDriftAlarm _ _).bind fun _ => announced_last rfl

theorem announced_publishReconciliation (info : DeviceInfo) (plan : ReconciliationPlan)
    (control : ReconciliationControl) : Announced (publishReconciliation info plan control) := by
  refine (announced_associatePortFaults _).bind fun _ => ?_
  refine Announced.bind ((announced_publishDrifts _ 0 plan.drifts).bind fun delta =>
    announced_then rfl fun _ => trivial) fun _ => ?_
  refine (announced_publishDriftAlarm _ _ _).bind fun _ => ?_
  exact announced_then rfl fun _ => announced_then rfl fun _ => announced_last rfl

theorem announced_openReconciliation (info : DeviceInfo) (plan : ReconciliationPlan)
    (portRecovery stateRecovery : Bool) (control : Option ReconciliationControl) :
    Announced (openReconciliation info plan portRecovery stateRecovery control) := by
  unfold openReconciliation
  split
  · split_ifs
    · trivial
    · exact announced_publishReconciliation info plan _
  · refine announced_then trivial fun now => announced_then rfl fun _ => ?_
    exact announced_publishReconciliation info plan _

theorem announced_reconcileDevice (info : DeviceInfo) (actual : List AppliedConnection) :
    Announced (reconcileDevice info actual) := by
  have hdesired : Announced loadDesiredConnections :=
    announced_then trivial fun keys => announced_of_within (within_loadDesired [] keys)
  have hsettled : ∀ desired, Announced (orchestrationSettled desired) :=
    fun desired => announced_then trivial fun keys => announced_of_within (within_settled desired keys)
  refine hdesired.bind fun desired => (hsettled desired).bind fun isSettled => ?_
  split_ifs
  · trivial
  · cases buildReconciliationPlan desired actual with
    | error message => exact announced_raise
    | ok plan =>
        refine (announced_of_within (within_confirmPlan desired actual plan)).bind fun confirmed => ?_
        refine (announced_of_within within_portFaults).bind fun faults => ?_
        refine (announced_recoverPlan desired actual faults _).bind fun recovered => ?_
        refine announced_then trivial fun control => ?_
        split_ifs
        · exact announced_convergeControl control
        · exact announced_openReconciliation info recovered _ _ control

/-! ### Polling -/

theorem announced_refreshConnections (info : DeviceInfo) (actual effective : List AppliedConnection)
    (state : Option DeviceStateHash) : Announced (refreshConnections info actual effective state) := by
  unfold refreshConnections
  split_ifs
  · refine announced_then trivial fun recovery => ?_
    refine (announced_of_within (within_recoveryPending recovery)).bind fun pending => ?_
    split_ifs
    · trivial
    · exact announced_reconcileDevice info effective
  · exact announced_scheduleGenerationRecovery info actual

theorem announced_refreshDeviceState (info : DeviceInfo) (count : Nat)
    (state : Option DeviceStateHash) : Announced (refreshDeviceState info count state) := by
  unfold refreshDeviceState
  split
  · split_ifs
    · trivial
    · exact announced_publishDeviceState _ _ _ _
  · exact announced_publishDeviceState _ _ _ _

theorem announced_pollConnected : Announced pollConnected := by
  refine announced_then trivial fun reply => (announced_readOrRaise reply).bind fun info => ?_
  refine announced_then trivial fun memory => ?_
  split_ifs
  · exact announced_raise
  · refine announced_then trivial fun reply => (announced_readOrRaise reply).bind fun actual => ?_
    refine (announced_pollPortStates info actual).bind fun effective => ?_
    refine announced_then trivial fun state => announced_then trivial fun _ => ?_
    refine (announced_refreshConnections info actual effective state).bind fun _ => ?_
    exact (announced_refreshDeviceState info _ state).bind fun _ => trivial

theorem announced_publishUnavailable (generation : Nat) (message : String)
    (state : Option DeviceStateHash) : Announced (publishUnavailable generation message state) := by
  unfold publishUnavailable
  split
  · trivial
  · exact announced_publishDeviceState _ _ _ _
  · exact announced_publishDeviceState _ _ _ _

theorem announced_pollDevice : Announced pollDevice := by
  refine Prog.Given.tryCatch announced_pollConnected fun error => ?_
  refine announced_then trivial fun memory => ?_
  split_ifs
  · trivial
  · refine announced_then trivial fun state => ?_
    exact (announced_publishUnavailable _ _ state).bind fun _ => trivial

theorem announced_initializeDeviceState (info : DeviceInfo) (actual : List AppliedConnection)
    (state : Option DeviceStateHash) : Announced (initializeDeviceState info actual state) := by
  unfold initializeDeviceState
  split
  · exact announced_last rfl
  · split_ifs
    · exact (announced_scheduleGenerationRecovery info actual).bind fun _ =>
        announced_publishDeviceState _ _ _ _
    · exact announced_publishDeviceState _ _ _ _
    · trivial

theorem announced_initializeService : Announced initializeService := by
  refine announced_then trivial fun reply => (announced_readOrRaise reply).bind fun info => ?_
  refine announced_then trivial fun reply => (announced_readOrRaise reply).bind fun actual => ?_
  refine (announced_pollPortStates info actual).bind fun _ => announced_then trivial fun state => ?_
  refine (announced_initializeDeviceState info actual state).bind fun _ => ?_
  exact announced_then trivial fun _ => trivial

end Poll

end Syncd

end MiniOcs
