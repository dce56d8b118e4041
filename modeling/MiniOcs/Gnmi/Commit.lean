import Mathlib.Data.List.Dedup
import MiniOcs.Concurrent.System
import MiniOcs.Gnmi.CandidateMatching

/-!
# Committing a Set plan

`RedisConfigRepository.commit` as a program over the Redis commands it sends, and the
system of all concurrent commits on one device. Every command may time out or fail,
before or after the server has executed it.
-/
namespace MiniOcs.Gnmi
open Std Concurrent

/-! ## CONFIG_DB -/

inductive CountField where
  | missing
  | malformed
  | value (count : Int)
  deriving DecidableEq, Repr

/-- The fields of the device hash that the commit reads. -/
structure DeviceFields where
  name : Option String := none
  adminStatus : Option String := none
  inputPortCount : CountField
  outputPortCount : CountField

/-- The provisioned part of CONFIG_DB, which no commit writes. -/
structure Inventory where
  device : String
  fields : Option DeviceFields
  portAdminStatus : PortDirection → Nat → Option String

structure ConfigEvent where
  eventId : Nat
  requestId : Nat
  timestampNs : Nat
  device : String
  desiredVersion : Nat
  commands : List ConnectionCommand
  deriving DecidableEq, Repr

structure ConfigDb where
  connections : ConnectionTable := ∅
  revision : Option Nat := none
  events : List ConfigEvent := []

inductive WatchKey where
  | revision
  | device
  | port (direction : PortDirection) (id : Nat)
  deriving DecidableEq, Repr

/-- One commit call: the connection it runs on, and its plan. -/
structure Caller where
  client : Nat
  plan : SetPlan
  deriving DecidableEq

inductive ConfigCounter where
  | requests
  | rejected
  deriving DecidableEq, Repr

/-- `stamps` counts the writes to each watched key and `watched` holds the stamps a caller
saw at its `WATCH`. The last three fields are bookkeeping of the model: the committed
states before `db`, how many transactions of a caller were executed, and how many
transactions had been executed at the `KEYS` and at the last connection read of its attempt. -/
structure World where
  inventory : Inventory
  db : ConfigDb := {}
  stamps : WatchKey → Nat := fun _ => 0
  watched : Caller → List (WatchKey × Nat) := fun _ => []
  counters : ConfigCounter → Nat := fun _ => 0
  uuids : Nat := 0
  past : List ConfigDb := []
  commits : Caller → Nat := fun _ => 0
  loads : Caller → Nat × Nat := fun _ => (0, 0)

/-- All committed states so far, in commit order. -/
def World.committed (w : World) : List ConfigDb := w.past ++ [w.db]

/-! ## Redis commands -/

inductive Fault where
  | timeout
  | failure
  deriving DecidableEq, Repr

inductive Op where
  | hincrby (counter : ConfigCounter)
  | watch (caller : Caller) (keys : List WatchKey)
  | getRevision
  | keys (caller : Caller)
  | hgetallConnection (caller : Caller) (id : String)
  | hgetallDevice
  | hgetallPort (direction : PortDirection) (id : Nat)
  | timestamp
  | uuid
  | exec (caller : Caller) (changes : List CandidateChange) (revision : Nat) (event : ConfigEvent)
  /-- `answered` tells an attempt that has its answer from one that lost its connection. -/
  | unwatch (caller : Caller) (answered : Bool)

/-- `exec` replies false when a watched key was written. -/
abbrev Op.Reply : Op → Type
  | .hincrby _ => Unit
  | .watch _ _ => Unit
  | .getRevision => Option Nat
  | .keys _ => List String
  | .hgetallConnection _ _ => Option ConnectionConfig
  | .hgetallDevice => Option DeviceFields
  | .hgetallPort _ _ => Option String
  | .timestamp => Nat
  | .uuid => Nat
  | .exec _ _ _ _ => Bool
  | .unwatch _ _ => Unit

abbrev Res (o : Op) : Type := Except Fault o.Reply

/-- No watched key was written since its `WATCH`. -/
def World.clean (w : World) (caller : Caller) : Bool :=
  (w.watched caller).all fun entry => decide (w.stamps entry.1 = entry.2)

def World.setWatched (w : World) (caller : Caller) (keys : List (WatchKey × Nat)) : World :=
  { w with watched := Function.update w.watched caller keys }

/-- The `MULTI`/`EXEC` block: rewrite the changed hashes, set the revision, append the event. -/
def World.transact (w : World) (caller : Caller) (changes : List CandidateChange)
    (revision : Nat) (event : ConfigEvent) : World :=
  { w with
    db := {
      connections := applyChanges w.db.connections changes
      revision := some revision
      events := w.db.events ++ [event] }
    stamps := Function.update w.stamps .revision (w.stamps .revision + 1)
    watched := Function.update w.watched caller []
    past := w.past ++ [w.db]
    commits := Function.update w.commits caller (w.commits caller + 1) }

/-- A command that reached the server. -/
def Op.execute (w : World) (choice : Nat) : (o : Op) → o.Reply × World
  | .hincrby counter =>
      ((), { w with counters := Function.update w.counters counter (w.counters counter + 1) })
  | .watch caller watchKeys =>
      ((), w.setWatched caller (w.watched caller ++ watchKeys.map fun key => (key, w.stamps key)))
  | .getRevision => (w.db.revision, w)
  | .keys caller =>
      (w.db.connections.keys,
        { w with loads := Function.update w.loads caller (w.past.length, w.past.length) })
  | .hgetallConnection caller id =>
      (w.db.connections[id]?,
        { w with loads := Function.update w.loads caller ((w.loads caller).1, w.past.length) })
  | .hgetallDevice => (w.inventory.fields, w)
  | .hgetallPort direction id => (w.inventory.portAdminStatus direction id, w)
  | .timestamp => (choice, w)
  | .uuid => (w.uuids, { w with uuids := w.uuids + 1 })
  | .exec caller changes revision event =>
      if w.clean caller then (true, w.transact caller changes revision event)
      else (false, w.setWatched caller [])
  | .unwatch caller _ => ((), w.setWatched caller [])

/-- The local clock and the id factory. -/
def Op.isLocal : Op → Bool
  | .timestamp | .uuid => true
  | _ => false

/-- How a command ends: executed, or lost before or after its execution. -/
def exec (o : Op) (choice : Nat) (w : World) : Res o × World :=
  let executed := o.execute w choice
  if o.isLocal then (.ok executed.1, executed.2)
  else match choice with
    | 1 => (.error .timeout, w)
    | 2 => (.error .timeout, executed.2)
    | 3 => (.error .failure, w)
    | 4 => (.error .failure, executed.2)
    | _ => (.ok executed.1, executed.2)

/-! ## The programs -/

/-- What travels through the retry loop before it is mapped to a service error. -/
inductive Raised where
  | service (error : SetError)
  | watchError
  | timeout
  | redisError
  deriving DecidableEq, Repr

/-- The candidate is not part of the response; the statements about a call refer to it. -/
structure SetCommitResult where
  timestampNs : Nat
  operations : List SetOperation
  candidate : CandidateMutation
  deriving DecidableEq

abbrev Commit (α : Type) := Prog Op Res Raised α

def Raised.ofFault : Fault → Raised
  | .timeout => .timeout
  | .failure => .redisError

/-- Send a command and raise on its fault. -/
def send (o : Op) : Commit o.Reply :=
  .call o fun reply => match reply with
    | .ok r => .pure r
    | .error fault => .throw (.ofFault fault)

def raise {α : Type} (error : SetError) : Commit α := .throw (.service error)

def incrementConfigCounter (counter : ConfigCounter) : Commit Unit :=
  .call (.hincrby counter) fun reply => match reply with
    | .ok _ => .pure ()
    | .error .timeout => raise (.deadlineExceeded "COUNTERS_DB configuration counter")
    | .error .failure => raise (.dependencyUnavailable "COUNTERS_DB")

/-- The `HGETALL` of each key, in key order. -/
def loadEach (caller : Caller) :
    List String → Dict String ConnectionConfig → Commit (Dict String ConnectionConfig)
  | [], current => .pure current
  | id :: rest, current => do
      match ← send (.hgetallConnection caller id) with
      | some config => loadEach caller rest (current.set id config)
      | none => loadEach caller rest current

def loadConnections (caller : Caller) : Commit (Dict String ConnectionConfig) := do
  let ids ← send (.keys caller)
  loadEach caller (ids.insertionSort (· ≤ ·)) Dict.empty

def checkedCount (field : CountField) : Except SetError Int :=
  match field with
  | .missing => .error (.unexpected "CONFIG_DB device port count is missing")
  | .malformed => .error (.unexpected "CONFIG_DB device port count is not an integer")
  | .value count => .ok count

/-- The checks of `_load_port_counts` on the fields it read. -/
def portCounts (device : String) (fields : Option DeviceFields) : Except SetError (Nat × Nat) :=
  match fields with
  | none => .error (.notFound ("device " ++ quoted device))
  | some fields =>
      if fields.name.getD device ≠ device then
        .error (.unexpected "CONFIG_DB device name does not match its key")
      else if fields.adminStatus.getD adminEnabled ≠ adminEnabled then
        .error (.conflict ("device " ++ quoted device ++ " is administratively disabled"))
      else match checkedCount fields.inputPortCount with
        | .error e => .error e
        | .ok inputCount => match checkedCount fields.outputPortCount with
          | .error e => .error e
          | .ok outputCount =>
              if inputCount ≤ 0 ∨ outputCount ≤ 0 then
                .error (.unexpected "CONFIG_DB device port counts must be positive")
              else .ok (inputCount.toNat, outputCount.toNat)

def loadPortCounts (device : String) : Commit (Nat × Nat) := do
  let fields ← send .hgetallDevice
  match portCounts device fields with
  | .ok counts => .pure counts
  | .error e => raise e

/-- The port pairs of a candidate, sorted and without repetition. -/
def portPairs (connections : List ConnectionConfig) : List (Nat × Nat) :=
  ((connections.map fun c => (c.inputPort, c.outputPort)).dedup).insertionSort
    fun a b => a.1 < b.1 ∨ a.1 = b.1 ∧ a.2 ≤ b.2

def checkPorts (pair : Nat × Nat) (inputStatus outputStatus : Option String) : Except SetError Unit :=
  if inputStatus.getD adminEnabled ≠ adminEnabled then
    .error (.conflict ("input port " ++ toString pair.1 ++ " is administratively disabled"))
  else if outputStatus.getD adminEnabled ≠ adminEnabled then
    .error (.conflict ("output port " ++ toString pair.2 ++ " is administratively disabled"))
  else .ok ()

def validateEach : List (Nat × Nat) → Commit Unit
  | [] => .pure ()
  | pair :: rest => do
      let inputStatus ← send (.hgetallPort .input pair.1)
      let outputStatus ← send (.hgetallPort .output pair.2)
      match checkPorts pair inputStatus outputStatus with
      | .ok () => validateEach rest
      | .error e => raise e

def validatePortsEnabled (caller : Caller) (connections : List ConnectionConfig) : Commit Unit := do
  let pairs := portPairs connections
  if pairs.isEmpty then validateEach pairs
  else
    send (.watch caller (pairs.flatMap fun pair => [.port .input pair.1, .port .output pair.2]))
    validateEach pairs

def eventCommand (desiredVersion : Nat) (change : CandidateChange) : ConnectionCommand :=
  match change.config with
  | some config => {
      operation := change.operation
      id := change.connectionId
      inputPort := config.inputPort
      outputPort := config.outputPort
      desiredVersion := desiredVersion }
  | none => {
      operation := change.operation
      id := change.connectionId
      desiredVersion := desiredVersion }

def eventFields (plan : SetPlan) (eventId desiredVersion timestampNs : Nat)
    (changes : List CandidateChange) : ConfigEvent where
  eventId := eventId
  requestId := plan.requestId
  timestampNs := timestampNs
  device := plan.device
  desiredVersion := desiredVersion
  commands := changes.map (eventCommand desiredVersion)

/-- The body of the pipeline context. -/
def commitBody (caller : Caller) : Commit SetCommitResult := do
  let plan := caller.plan
  send (.watch caller [.revision, .device])
  let rawRevision ← send .getRevision
  let current ← loadConnections caller
  let counts ← loadPortCounts plan.device
  let timestampNs ← send .timestamp
  match buildCandidate {
      current := current
      revision := rawRevision.getD 0 + 1
      timestampNs := timestampNs
      inputPortCount := counts.1
      outputPortCount := counts.2 } plan with
  | .error e => raise e
  | .ok candidate =>
      validatePortsEnabled caller candidate.connections
      if candidate.changes.isEmpty then
        send (.unwatch caller true)
        .pure ⟨timestampNs, plan.operations, candidate⟩
      else
        let eventId ← send .uuid
        let committed ← send (.exec caller candidate.changes candidate.revision
          (eventFields plan eventId candidate.revision candidate.timestampNs candidate.changes))
        if committed then .pure ⟨timestampNs, plan.operations, candidate⟩
        else .throw .watchError

/-- Leaving the pipeline context on an exception: `UNWATCH`, unless `execute` did it. A
connection that fails here is dropped and the first exception goes on. -/
def resetPipeline (caller : Caller) (raised : Raised) : Commit SetCommitResult :=
  match raised with
  | .watchError => .throw .watchError
  | .service error => .call (.unwatch caller true) fun reply => match reply with
      | .error .timeout => .throw .timeout
      | _ => .throw (.service error)
  | raised => .call (.unwatch caller false) fun reply => match reply with
      | .error .timeout => .throw .timeout
      | _ => .throw raised

def commitOnce (caller : Caller) : Commit SetCommitResult :=
  (commitBody caller).tryCatch (resetPipeline caller)

def commitCandidate (caller : Caller) : Nat → Commit SetCommitResult
  | 0 => raise (.dependencyUnavailable "CONFIG_DB changed during all transaction retries")
  | retries + 1 => (commitOnce caller).tryCatch fun raised => match raised with
      | .watchError => commitCandidate caller retries
      | .timeout => raise (.deadlineExceeded "CONFIG_DB transaction")
      | .redisError => raise (.dependencyUnavailable "CONFIG_DB")
      | .service error => raise error

/-- A rejected request counts, and an error of that counter is suppressed. -/
def countRejected (raised : Raised) : Commit SetCommitResult :=
  .call (.hincrby .rejected) fun _ => .throw raised

def commit (maxWatchRetries : Nat) (caller : Caller) : Commit SetCommitResult := do
  incrementConfigCounter .requests
  (commitCandidate caller maxWatchRetries).tryCatch countRejected

/-! ## The system of concurrent commits -/

/-- A fresh CONFIG_DB with any inventory; every caller on its device may call at any time. -/
def gnmi (maxWatchRetries : Nat) (allow : Op → World → Prop) :
    System Op Res Raised SetCommitResult World Caller where
  exec := exec
  init w := ∃ inventory, w = { inventory := inventory }
  starts caller w p := caller.plan.device = w.inventory.device ∧ p = commit maxWatchRetries caller
  crash caller w := w.setWatched caller []
  env _ _ := False
  allow _ o _ w := allow o w

end MiniOcs.Gnmi
