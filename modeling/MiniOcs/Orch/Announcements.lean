import MiniOcs.Orch.Service
import MiniOcs.Syncd.Announcements

/-!
# The orchestrator announces its alarms

The time-out alarms are the only alarms that the orchestrator writes, each with its event.
-/
namespace MiniOcs.Orch
open Concurrent

def isActiveAlarm : OrchKey → Bool
  | .activeAlarm _ => true
  | _ => false

def Announces : OrchOp → Prop
  | .putHashIfAbsent k _ => isActiveAlarm k = false
  | .putVersionedHashes _ marker _ _ _ => isActiveAlarm marker = false
  | .appendCommandOnce marker _ _ => isActiveAlarm marker = false
  | .appendRetryOnce marker _ _ => isActiveAlarm marker = false
  | .replaceAlarmOnce marker _ connection alarm event => isActiveAlarm marker = false ∧
      ToldAlarm (.applyTimeout connection) alarm event
  | .incrementOnce marker _ _ => isActiveAlarm marker = false
  | _ => True

def AlarmKeyed : (k : OrchKey) → OrchHash k → Prop
  | .activeAlarm connection, alarm => alarm.id = .applyTimeout connection
  | _, _ => True

def Recounts : (o : OrchOp) → o.Reply → Prop
  | .getHash k, reply => ∀ v, reply = some v → AlarmKeyed k v
  | _, _ => True

def AnnouncesOp : Op → Prop
  | .orch o => Announces o
  | .syncd _ => False

def RecountsOp : (o : Op) → o.Reply → Prop
  | .orch o, reply => Recounts o reply
  | .syncd _, _ => True

/-- The program announces whatever alarm it writes. -/
abbrev Announced {α : Type} (p : Service α) : Prop :=
  p.Given AnnouncesOp RecountsOp fun _ => True

section

variable {α β : Type}

theorem announced_send {o : OrchOp} {k : o.Reply → Service α} (ho : Announces o)
    (hk : ∀ r, Recounts o r → Announced (k r)) : Announced (send o >>= k) := ⟨ho, hk⟩

theorem announced_then {o : OrchOp} {k : o.Reply → Service α} (ho : Announces o)
    (hk : ∀ r, Announced (k r)) : Announced (send o >>= k) := ⟨ho, fun r _ => hk r⟩

theorem announced_last {o : OrchOp} (ho : Announces o) : Announced (send o) :=
  ⟨ho, fun _ _ => trivial⟩

theorem announced_raise {e : Raised} : Announced (raise e : Service α) :=
  ⟨trivial, fun _ _ => trivial⟩

theorem Announced.bind {p : Service β} {f : β → Service α} (hp : Announced p)
    (hf : ∀ b, Announced (f b)) : Announced (p >>= f) := Prog.Given.bind hp fun b _ => hf b

end

theorem announced_acknowledge (g : OrchGroup) (n : Nat) : Announced (acknowledge g n) :=
  announced_then trivial fun _ => trivial

theorem announced_nextMessage (g : OrchGroup) : Announced (nextMessage g) := by
  refine announced_then trivial fun candidate => ?_
  cases candidate with
  | none => exact announced_last trivial
  | some n =>
      refine announced_then trivial fun claimed => ?_
      cases claimed with
      | none => exact announced_last trivial
      | some event => trivial

theorem announced_publish {copy : Copy} {marker : OrchKey} {fields : OrchHash marker}
    {version : Nat} {hashes : List (String × Option Application)}
    (h : isActiveAlarm marker = false) : Announced (publish copy marker fields version hashes) := by
  refine announced_then h fun published => ?_
  cases published with
  | none => exact announced_raise
  | some _ => trivial

theorem announced_require (source target : ConnectionApplyStatus) :
    Announced (require source target) := by
  unfold require
  cases requireTransition source target with
  | error e => exact announced_raise
  | ok _ => trivial

/-! ## Configuration events -/

theorem announced_configApplications (event : Gnmi.ConfigEvent)
    (hashes : List (String × Option Application)) (commands : List ConnectionCommand) :
    Announced (configApplications event hashes commands) := by
  induction commands generalizing hashes with
  | nil => trivial
  | cons command rest ih =>
      refine announced_then trivial fun existing => ?_
      cases startApplyTransition (currentStatus existing) command.operation with
      | error e => exact announced_raise
      | ok status => exact ih _

theorem announced_resumePrepared (n : Nat) (event : Gnmi.ConfigEvent)
    (prepared : Option DeviceCommandBatch) : Announced (resumePrepared n event prepared) := by
  unfold resumePrepared
  cases prepared with
  | none => exact announced_raise
  | some payload =>
      dsimp only
      cases decodeDeviceCommand payload with
      | error message => exact announced_raise
      | ok batch =>
          refine (announced_configApplications event [] _).bind fun hashes => ?_
          refine (announced_publish rfl).bind fun _ => (announced_publish rfl).bind fun _ => ?_
          exact announced_then rfl fun _ => announced_acknowledge _ n

theorem announced_selectCommands (selected commands : List ConnectionCommand) :
    Announced (selectCommands selected commands) := by
  induction commands generalizing selected with
  | nil => trivial
  | cons command rest ih =>
      refine announced_then trivial fun existing => ?_
      split_ifs
      · trivial
      · exact ih selected
      · exact ih _

theorem announced_processConfigOne : Announced processConfigOne := by
  refine (announced_nextMessage .config).bind fun message => ?_
  match message with
  | none => trivial
  | some (n, event) =>
      refine announced_then trivial fun published => ?_
      cases published with
      | some _ => exact announced_acknowledge _ n
      | none =>
          refine announced_then trivial fun prepared => ?_
          cases prepared with
          | some payload => exact announced_resumePrepared n event _
          | none =>
              dsimp only
              cases decodeConfigBatchEvent event with
              | error message => exact announced_raise
              | ok decoded =>
                  refine (announced_selectCommands [] _).bind fun selected => ?_
                  match selected with
                  | none => exact announced_acknowledge _ n
                  | some [] => exact announced_acknowledge _ n
                  | some (command :: rest) =>
                      refine announced_then rfl fun _ => ?_
                      exact announced_then trivial fun prepared =>
                        announced_resumePrepared n event prepared

/-! ## Alarms -/

theorem announced_countRaisedAlarm (connection : String) (marker : Option AlarmMarker) :
    Announced (countRaisedAlarm connection marker) := by
  unfold countRaisedAlarm
  cases marker with
  | none => exact announced_raise
  | some marker =>
      dsimp only
      split_ifs
      · exact announced_then rfl fun _ => trivial
      · trivial

theorem announced_publishTimeoutAlarm (result : ResultEvent) (command : CommandId)
    (connection message : String) :
    Announced (publishTimeoutAlarm result command connection message) := by
  refine announced_then trivial fun published => announced_then trivial fun active => ?_
  cases published with
  | some marker => exact announced_countRaisedAlarm connection _
  | none =>
      refine announced_then trivial fun now => ?_
      refine announced_then ⟨rfl, .raise rfl rfl⟩ fun _ => ?_
      exact announced_then trivial fun marker => announced_countRaisedAlarm connection marker

theorem announced_countClearedAlarm (connection : String) (marker : Option AlarmMarker) :
    Announced (countClearedAlarm connection marker) := by
  unfold countClearedAlarm
  cases marker with
  | none => exact announced_raise
  | some marker => exact announced_then rfl fun _ => trivial

theorem announced_clearAfterSuccess (result : ResultEvent) :
    Announced (clearAfterSuccess result) := by
  unfold clearAfterSuccess
  split_ifs
  · refine announced_then trivial fun published => announced_send trivial fun active hactive => ?_
    match published, active with
    | none, none => trivial
    | some marker, _ => exact announced_countClearedAlarm _ _
    | none, some alarm =>
        refine announced_then trivial fun now => ?_
        refine announced_then ⟨rfl, .clear (hactive alarm rfl)⟩ fun _ => ?_
        exact announced_then trivial fun marker => announced_countClearedAlarm _ marker
  · trivial

/-! ## Device results -/

theorem announced_settleResult (n : Nat) (result : ResultEvent) :
    Announced (settleResult n result) := by
  refine announced_then trivial fun existing => ?_
  cases existing with
  | none => exact announced_acknowledge _ n
  | some application =>
      dsimp only
      cases resultDecision result application with
      | stale => exact announced_acknowledge _ n
      | newer => exact announced_raise
      | invalid e => exact announced_raise
      | publish next =>
          refine (announced_publish rfl).bind fun _ => (announced_publish rfl).bind fun _ => ?_
          exact (announced_clearAfterSuccess result).bind fun _ => announced_acknowledge _ n

theorem announced_timeoutApplications (result : ResultEvent) (metadata : TimeoutMetadata)
    (hashes : List (String × Option Application)) (commands : List ConnectionCommand) :
    Announced (timeoutApplications result metadata hashes commands) := by
  induction commands generalizing hashes with
  | nil => trivial
  | cons command rest ih =>
      refine announced_then trivial fun existing => ?_
      cases existing with
      | none => trivial
      | some application =>
          dsimp only
          split_ifs
          · exact ih _
          · trivial

theorem announced_publishTimeout (result : ResultEvent) (batch : DeviceCommandBatch)
    (metadata : TimeoutMetadata) : Announced (publishTimeout result batch metadata) := by
  have halarms : ∀ commands, Announced (raiseTimeoutAlarms result commands) := by
    intro commands
    induction commands with
    | nil => trivial
    | cons command rest ih => exact (announced_publishTimeoutAlarm result _ _ _).bind fun _ => ih
  refine (announced_timeoutApplications result metadata [] _).bind fun found => ?_
  cases found with
  | none => trivial
  | some hashes =>
      refine (announced_publish rfl).bind fun _ => (announced_publish rfl).bind fun _ => ?_
      refine (halarms batch.commands).bind fun _ => ?_
      unfold scheduleRetry
      split_ifs
      · exact announced_then rfl fun _ => trivial
      · trivial

theorem announced_firstTimeout (policy : ApplyRetryPolicy) (result : ResultEvent)
    (first : Option Application) : Announced (firstTimeout policy result first) := by
  unfold firstTimeout
  cases first with
  | none => trivial
  | some application =>
      dsimp only
      split_ifs
      · trivial
      · trivial
      · refine (announced_require _ _).bind fun _ => (announced_require _ _).bind fun _ => ?_
        exact announced_then trivial fun _ => trivial
      · exact (announced_require _ _).bind fun _ => trivial

theorem announced_handleTimeoutResult (policy : ApplyRetryPolicy) (result : ResultEvent) :
    Announced (handleTimeoutResult policy result) := by
  refine announced_then trivial fun attempt => ?_
  cases attempt with
  | none => trivial
  | some payload =>
      dsimp only
      cases decodeDeviceCommand payload with
      | error message => trivial
      | ok batch =>
          obtain ⟨commands, options⟩ := batch
          cases commands with
          | nil => trivial
          | cons front rest =>
              refine announced_then trivial fun application => ?_
              cases application with
              | some metadata => exact announced_publishTimeout _ _ _
              | none =>
                  refine announced_then trivial fun device => ?_
                  cases device with
                  | some metadata => exact announced_publishTimeout _ _ _
                  | none =>
                      refine announced_then trivial fun first => ?_
                      refine (announced_firstTimeout policy result first).bind fun metadata => ?_
                      cases metadata with
                      | none => trivial
                      | some metadata => exact announced_publishTimeout _ _ _

theorem announced_processResultOne (policy : ApplyRetryPolicy) :
    Announced (processResultOne policy) := by
  refine (announced_nextMessage .results).bind fun message => ?_
  match message with
  | none => trivial
  | some (n, result) =>
      dsimp only
      split_ifs
      · exact (announced_handleTimeoutResult policy result).bind fun _ => announced_acknowledge _ n
      · refine announced_then trivial fun application => ?_
        cases application with
        | none => exact announced_settleResult n result
        | some _ =>
            refine announced_then trivial fun device => ?_
            cases device with
            | none => exact announced_settleResult n result
            | some _ =>
                exact (announced_clearAfterSuccess result).bind fun _ => announced_acknowledge _ n

/-! ## Retries -/

theorem announced_retryApplications (retry : RetryEvent) (started : Bool)
    (hashes : List (String × Option Application)) (commands : List ConnectionCommand) :
    Announced (retryApplications retry started hashes commands) := by
  induction commands generalizing hashes with
  | nil => trivial
  | cons command rest ih =>
      refine announced_then trivial fun existing => ?_
      cases existing with
      | none => trivial
      | some application =>
          dsimp only
          split_ifs
          · exact ih _
          · exact (announced_require _ _).bind fun _ => ih _
          · trivial

theorem announced_publishRetry (n : Nat) (retry : RetryEvent) (batch : DeviceCommandBatch)
    (started : Bool) : Announced (publishRetry n retry batch started) := by
  refine (announced_retryApplications retry started [] _).bind fun found => ?_
  cases found with
  | none => exact announced_acknowledge _ n
  | some hashes =>
      refine (announced_publish rfl).bind fun _ => (announced_publish rfl).bind fun _ => ?_
      refine announced_then rfl fun _ => announced_then rfl fun _ => ?_
      exact announced_acknowledge _ n

theorem announced_processRetryOne : Announced processRetryOne := by
  refine (announced_nextMessage .retries).bind fun message => ?_
  match message with
  | none => trivial
  | some (n, retry) =>
      refine announced_then trivial fun now => ?_
      split_ifs
      · trivial
      cases decodeDeviceCommand retry.batch with
      | error message => exact announced_raise
      | ok batch =>
          refine announced_then trivial fun published => ?_
          cases published with
          | some _ => exact announced_acknowledge _ n
          | none =>
              refine announced_then trivial fun application => ?_
              cases application with
              | some _ => exact announced_publishRetry n retry batch true
              | none => exact announced_then trivial fun device => announced_publishRetry n retry batch _

end MiniOcs.Orch
