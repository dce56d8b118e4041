import MiniOcs.Concurrent.System
import MiniOcs.Concurrent.Stream
import MiniOcs.Device.Simulated
import MiniOcs.Gnmi.Serializable
import MiniOcs.Records

/-!
# The shared world

The Redis databases and streams, split by the service that writes them, and the device.
Every operation is one Redis command, script or `WATCH`/`MULTI`/`EXEC` block, or one request
to the device. A block that loses its `WATCH` race too often raises; that is a crash before
the block. The choice of a call resolves what the caller does not control: which pending
entries are idle long enough, the clock, and what the device link loses.
-/
namespace MiniOcs
open Std Concurrent

/-- Written by the orchestrator: APPL_DB, its part of DEVICE_DB, the retry stream, and the
consumer groups it reads from. -/
structure OrchState where
  appl : Table := ∅
  device : Table := ∅
  hash : (k : OrchKey) → Option (OrchHash k) := fun _ => none
  retries : List RetryEvent := []
  configGroup : Group := {}
  resultGroup : Group := {}
  retryGroup : Group := {}

/-- Written by syncd: STATE_DB, its part of DEVICE_DB, the result and state streams, and its
consumer group. The last two fields are the process's own memory. -/
structure SyncdState where
  state : ExtTreeMap String ConnectionState := ∅
  hash : (k : SyncdKey) → Option (SyncdHash k) := fun _ => none
  results : List ResultEvent := []
  stateEvents : List StateEvent := []
  group : Group := {}
  deviceName : String := ""
  deviceGeneration : Nat := 0

/-- Both services append to the command and alarm streams and to the counters. -/
structure World where
  inventory : Gnmi.Inventory
  config : Gnmi.ConfigDb := {}
  orch : OrchState := {}
  syncd : SyncdState := {}
  commands : List CommandEvent := []
  alarmEvents : List AlarmEvent := []
  counters : List CounterUpdate := []
  hwsim : SimulatedOcsDevice CommandId

/-- What leaves a service function as an exception. -/
inductive Raised where
  | invalidTransition (transition : InvalidTransition)
  | newerResult
  | invalidArgument (message : String)
  | runtimeError (message : String)
  deriving DecidableEq, Repr

/-- Entries that one scan of the pending list looks at. -/
def pendingScan : Nat := 10

/-! ## Operations of the orchestrator -/

inductive OrchGroup where
  | config
  | results
  | retries
  deriving DecidableEq, Repr

abbrev OrchGroup.Entry : OrchGroup → Type
  | .config => Gnmi.ConfigEvent
  | .results => ResultEvent
  | .retries => RetryEvent

def World.stream (w : World) : (g : OrchGroup) → List g.Entry
  | .config => w.config.events
  | .results => w.syncd.results
  | .retries => w.orch.retries

def OrchState.group (o : OrchState) : OrchGroup → Group
  | .config => o.configGroup
  | .results => o.resultGroup
  | .retries => o.retryGroup

def OrchState.setGroup (o : OrchState) : OrchGroup → Group → OrchState
  | .config, g => { o with configGroup := g }
  | .results, g => { o with resultGroup := g }
  | .retries, g => { o with retryGroup := g }

inductive Copy where
  | appl
  | device
  deriving DecidableEq, Repr

def OrchState.table (o : OrchState) : Copy → Table
  | .appl => o.appl
  | .device => o.device

def OrchState.setTable (o : OrchState) : Copy → Table → OrchState
  | .appl, t => { o with appl := t }
  | .device, t => { o with device := t }

def OrchState.setHash (o : OrchState) (k : OrchKey) (v : OrchHash k) : OrchState :=
  { o with hash := Function.update o.hash k (some v) }

/-- `DEL`, and `HSET` unless the hash is empty. -/
def putEntry {α : Type} (table : ExtTreeMap String α) (id : String) (hash : Option α) :
    ExtTreeMap String α :=
  match hash with
  | some a => table.insert id a
  | none => table.erase id

/-- The hashes of a versioned publication that are not older than what they replace. -/
def publishable (table : Table) (version : Nat) (hashes : List (String × Option Application)) :
    List (String × Option Application) :=
  hashes.filter fun entry => match table[entry.1]? with
    | some existing => decide (existing.desiredVersion ≤ version)
    | none => true

def putVersioned (table : Table) (version : Nat) (hashes : List (String × Option Application)) :
    Table :=
  (publishable table version hashes).foldl (fun t entry => putEntry t entry.1 entry.2) table

def versionsMatch (version : Nat) (hashes : List (String × Option Application)) : Bool :=
  hashes.all fun entry => match entry.2 with
    | some application => decide (application.desiredVersion = version)
    | none => true

inductive OrchOp where
  | xpending (g : OrchGroup)
  | xclaim (g : OrchGroup) (n : Nat)
  | readGroup (g : OrchGroup)
  | xack (g : OrchGroup) (n : Nat)
  | getConfig (id : String)
  | getAppl (id : String)
  | getHash (k : OrchKey)
  | getAttempt (command : CommandId)
  | putHashIfAbsent (k : OrchKey) (v : OrchHash k)
  | putVersionedHashes (copy : Copy) (marker : OrchKey) (fields : OrchHash marker) (version : Nat)
      (hashes : List (String × Option Application))
  | appendCommandOnce (marker : OrchKey) (fields : OrchHash marker) (event : CommandEvent)
  | appendRetryOnce (marker : OrchKey) (fields : OrchHash marker) (event : RetryEvent)
  | replaceAlarmOnce (marker : OrchKey) (fields : OrchHash marker) (connection : String)
      (alarm : Option Alarm) (event : AlarmEvent)
  | incrementOnce (marker : OrchKey) (fields : OrchHash marker)
      (increments : List (CounterField × Int))
  | now
  | raise (error : Raised)

/-- A versioned publication replies `none` where it throws `invalid_argument`. -/
abbrev OrchOp.Reply : OrchOp → Type
  | .xpending _ => Option Nat
  | .xclaim g _ => Option g.Entry
  | .readGroup g => Option (Nat × g.Entry)
  | .xack _ _ => Bool
  | .getConfig _ => Option Gnmi.ConnectionConfig
  | .getAppl _ => Option Application
  | .getHash k => Option (OrchHash k)
  | .getAttempt _ => Option DeviceCommandBatch
  | .putHashIfAbsent _ _ => Bool
  | .putVersionedHashes _ _ _ _ _ => Option Bool
  | .appendCommandOnce _ _ _ => Bool
  | .appendRetryOnce _ _ _ => Bool
  | .replaceAlarmOnce _ _ _ _ _ => Bool
  | .incrementOnce _ _ _ => Bool
  | .now => Nat
  | .raise _ => Unit

def World.setOrch (w : World) (o : OrchState) : World := { w with orch := o }

def World.mark (w : World) (k : OrchKey) (v : OrchHash k) : World := w.setOrch (w.orch.setHash k v)

/-- A block guarded by a marker: nothing if the marker exists, else the writes and the marker. -/
def World.once (w : World) (marker : OrchKey) (fields : OrchHash marker) (write : World → World) :
    Bool × World :=
  if (w.orch.hash marker).isSome then (false, w) else (true, (write w).mark marker fields)

/-- The writes of a versioned publication. -/
def World.stage (w : World) (copy : Copy) (marker : OrchKey) (fields : OrchHash marker)
    (version : Nat) (hashes : List (String × Option Application)) : World :=
  (w.setOrch (w.orch.setTable copy (putVersioned (w.orch.table copy) version hashes))).mark
    marker fields

def World.deliver (w : World) (g : OrchGroup) : World :=
  w.setOrch (w.orch.setGroup g ((w.orch.group g).read (w.stream g).length).2)

def World.acknowledge (w : World) (g : OrchGroup) (n : Nat) : World :=
  w.setOrch (w.orch.setGroup g ((w.orch.group g).ack n).2)

def OrchOp.exec (choice : Nat) (w : World) : (o : OrchOp) → o.Reply × World
  | .xpending g => ((w.orch.group g).candidate pendingScan choice, w)
  | .xclaim g n =>
      (if choice = 0 ∧ n ∈ (w.orch.group g).pending then (w.stream g)[n]? else none, w)
  | .readGroup g =>
      (((w.orch.group g).read (w.stream g).length).1.bind fun n =>
        (w.stream g)[n]?.map fun event => (n, event), w.deliver g)
  | .xack g n => (((w.orch.group g).ack n).1, w.acknowledge g n)
  | .getConfig id => (w.config.connections[id]?, w)
  | .getAppl id => (w.orch.appl[id]?, w)
  | .getHash k => (w.orch.hash k, w)
  | .getAttempt command => (w.syncd.hash (.applyAttempt command), w)
  | .putHashIfAbsent k v => w.once k v id
  | .putVersionedHashes copy marker fields version hashes =>
      if (w.orch.hash marker).isSome then (some false, w)
      else if !versionsMatch version hashes then (none, w)
      else (some true, w.stage copy marker fields version hashes)
  | .appendCommandOnce marker fields event =>
      w.once marker fields fun w => { w with commands := w.commands ++ [event] }
  | .appendRetryOnce marker fields event =>
      w.once marker fields fun w =>
        w.setOrch { w.orch with retries := w.orch.retries ++ [event] }
  | .replaceAlarmOnce marker fields connection alarm event =>
      w.once marker fields fun w =>
        { w with
          orch := { w.orch with hash := Function.update w.orch.hash (.activeAlarm connection) alarm }
          alarmEvents := w.alarmEvents ++ [event] }
  | .incrementOnce marker fields increments =>
      w.once marker fields fun w =>
        { w with counters := w.counters ++ [{ increments := increments }] }
  | .now => (choice, w)
  | .raise _ => ((), w)

/-! ### Reading back -/

section Reading

variable (w : World) (k : OrchKey) (v : OrchHash k) (copy : Copy) (version : Nat)
  (hashes : List (String × Option Application)) (g : OrchGroup) (n : Nat)

@[simp] theorem World.mark_appl : (w.mark k v).orch.appl = w.orch.appl := rfl
@[simp] theorem World.mark_device : (w.mark k v).orch.device = w.orch.device := rfl
@[simp] theorem World.mark_retries : (w.mark k v).orch.retries = w.orch.retries := rfl
@[simp] theorem World.mark_syncd : (w.mark k v).syncd = w.syncd := rfl
@[simp] theorem World.mark_config : (w.mark k v).config = w.config := rfl
@[simp] theorem World.mark_commands : (w.mark k v).commands = w.commands := rfl
@[simp] theorem World.mark_hwsim : (w.mark k v).hwsim = w.hwsim := rfl
@[simp] theorem World.mark_inventory : (w.mark k v).inventory = w.inventory := rfl

@[simp] theorem World.mark_group : (w.mark k v).orch.group g = w.orch.group g := by cases g <;> rfl

@[simp] theorem World.mark_stream : (w.mark k v).stream g = w.stream g := by cases g <;> rfl

@[simp] theorem World.mark_hash_self : (w.mark k v).orch.hash k = some v := by
  simp [World.mark, World.setOrch, OrchState.setHash]

theorem World.mark_hash_of_ne {k' : OrchKey} (h : k' ≠ k) :
    (w.mark k v).orch.hash k' = w.orch.hash k' := by
  simp [World.mark, World.setOrch, OrchState.setHash, Function.update_of_ne h]

@[simp] theorem World.stage_appl_appl : (w.stage .appl k v version hashes).orch.appl =
    putVersioned w.orch.appl version hashes := rfl
@[simp] theorem World.stage_appl_device :
    (w.stage .appl k v version hashes).orch.device = w.orch.device := rfl
@[simp] theorem World.stage_device_device : (w.stage .device k v version hashes).orch.device =
    putVersioned w.orch.device version hashes := rfl
@[simp] theorem World.stage_device_appl :
    (w.stage .device k v version hashes).orch.appl = w.orch.appl := rfl

@[simp] theorem World.stage_syncd : (w.stage copy k v version hashes).syncd = w.syncd := rfl
@[simp] theorem World.stage_config : (w.stage copy k v version hashes).config = w.config := rfl
@[simp] theorem World.stage_commands :
    (w.stage copy k v version hashes).commands = w.commands := rfl
@[simp] theorem World.stage_hwsim : (w.stage copy k v version hashes).hwsim = w.hwsim := rfl
@[simp] theorem World.stage_inventory :
    (w.stage copy k v version hashes).inventory = w.inventory := rfl

@[simp] theorem World.stage_retries :
    (w.stage copy k v version hashes).orch.retries = w.orch.retries := by cases copy <;> rfl

@[simp] theorem World.stage_group :
    (w.stage copy k v version hashes).orch.group g = w.orch.group g := by
  cases copy <;> cases g <;> rfl

@[simp] theorem World.stage_stream :
    (w.stage copy k v version hashes).stream g = w.stream g := by
  cases copy <;> cases g <;> rfl

@[simp] theorem World.stage_hash_self :
    (w.stage copy k v version hashes).orch.hash k = some v := by
  simp [World.stage]

theorem World.stage_hash_of_ne {k' : OrchKey} (h : k' ≠ k) :
    (w.stage copy k v version hashes).orch.hash k' = w.orch.hash k' := by
  rw [World.stage, World.mark_hash_of_ne _ _ _ h]
  cases copy <;> rfl

@[simp] theorem World.acknowledge_appl : (w.acknowledge g n).orch.appl = w.orch.appl := by
  cases g <;> rfl
@[simp] theorem World.acknowledge_device : (w.acknowledge g n).orch.device = w.orch.device := by
  cases g <;> rfl
@[simp] theorem World.acknowledge_hash : (w.acknowledge g n).orch.hash k = w.orch.hash k := by
  cases g <;> rfl
@[simp] theorem World.acknowledge_retries :
    (w.acknowledge g n).orch.retries = w.orch.retries := by cases g <;> rfl
@[simp] theorem World.acknowledge_syncd : (w.acknowledge g n).syncd = w.syncd := rfl
@[simp] theorem World.acknowledge_config : (w.acknowledge g n).config = w.config := rfl
@[simp] theorem World.acknowledge_commands : (w.acknowledge g n).commands = w.commands := rfl
@[simp] theorem World.acknowledge_hwsim : (w.acknowledge g n).hwsim = w.hwsim := rfl

@[simp] theorem World.acknowledge_stream (g' : OrchGroup) :
    (w.acknowledge g n).stream g' = w.stream g' := by
  cases g <;> cases g' <;> rfl

theorem World.acknowledge_group (g' : OrchGroup) : (w.acknowledge g n).orch.group g' =
    if g' = g then ((w.orch.group g).ack n).2 else w.orch.group g' := by
  cases g <;> cases g' <;> rfl

end Reading

/-! ### Versioned publications -/

theorem getElem?_putEntry {α : Type} (table : ExtTreeMap String α) (id' : String) (h : Option α)
    (id : String) : (putEntry table id' h)[id]? = if id = id' then h else table[id]? := by
  cases h with
  | some a =>
      rw [putEntry, ExtTreeMap.getElem?_insert]
      simp only [Std.compare_eq_iff_eq, eq_comm (a := id)]
  | none =>
      rw [putEntry, ExtTreeMap.getElem?_erase]
      simp only [Std.compare_eq_iff_eq, eq_comm (a := id)]

theorem getElem?_putEntries_of_notMem {table : Table} {entries : List (String × Option Application)}
    {id : String} (h : id ∉ entries.map Prod.fst) :
    (entries.foldl (fun t entry => putEntry t entry.1 entry.2) table)[id]? = table[id]? := by
  induction entries generalizing table with
  | nil => rfl
  | cons entry rest ih =>
      simp only [List.map_cons, List.mem_cons, not_or] at h
      rw [List.foldl_cons, ih h.2, getElem?_putEntry, if_neg h.1]

theorem getElem?_putEntries_of_mem {table : Table} {entries : List (String × Option Application)}
    (hnd : (entries.map Prod.fst).Nodup) {id : String} {hash : Option Application}
    (h : (id, hash) ∈ entries) :
    (entries.foldl (fun t entry => putEntry t entry.1 entry.2) table)[id]? = hash := by
  induction entries generalizing table with
  | nil => cases h
  | cons entry rest ih =>
      simp only [List.map_cons, List.nodup_cons] at hnd
      rw [List.foldl_cons]
      rcases List.mem_cons.mp h with rfl | h
      · rw [getElem?_putEntries_of_notMem hnd.1, getElem?_putEntry, if_pos rfl]
      · exact ih hnd.2 h

/-- Nothing newer than the version is published under the id. -/
def notNewer (table : Table) (version : Nat) (id : String) : Prop :=
  ∀ existing : Application, table[id]? = some existing → existing.desiredVersion ≤ version

theorem mem_publishable {table : Table} {version : Nat} {hashes : List (String × Option Application)}
    {id : String} {hash : Option Application} :
    (id, hash) ∈ publishable table version hashes ↔
      (id, hash) ∈ hashes ∧ notNewer table version id := by
  unfold publishable notNewer
  rw [List.mem_filter]
  refine and_congr_right fun _ => ?_
  cases table[id]? with
  | none => simp
  | some existing => simp

theorem getElem?_putVersioned_of_notMem {table : Table} {version : Nat}
    {hashes : List (String × Option Application)} {id : String} (h : id ∉ hashes.map Prod.fst) :
    (putVersioned table version hashes)[id]? = table[id]? := by
  refine getElem?_putEntries_of_notMem fun hmem => h ?_
  obtain ⟨entry, hentry, rfl⟩ := List.mem_map.mp hmem
  exact List.mem_map.mpr ⟨entry, (List.mem_filter.mp hentry).1, rfl⟩

theorem getElem?_putVersioned_of_mem {table : Table} {version : Nat}
    {hashes : List (String × Option Application)} (hnd : (hashes.map Prod.fst).Nodup) {id : String}
    {hash : Option Application} (h : (id, hash) ∈ hashes) (hle : notNewer table version id) :
    (putVersioned table version hashes)[id]? = hash := by
  refine getElem?_putEntries_of_mem ?_ (mem_publishable.mpr ⟨h, hle⟩)
  exact (List.filter_sublist.map Prod.fst).nodup hnd

/-- A newer hash stands. -/
theorem getElem?_putVersioned_of_newer {table : Table} {version : Nat}
    {hashes : List (String × Option Application)} {id : String} {existing : Application}
    (h : table[id]? = some existing) (hlt : version < existing.desiredVersion) :
    (putVersioned table version hashes)[id]? = table[id]? := by
  refine getElem?_putEntries_of_notMem fun hmem => ?_
  obtain ⟨⟨id', hash⟩, hentry, rfl⟩ := List.mem_map.mp hmem
  have hle := (mem_publishable.mp hentry).2 existing h
  omega

/-! ## Operations of syncd -/

inductive SyncdOp where
  | xpending
  | xclaim (n : Nat)
  | readGroup
  | xack (n : Nat)
  | scanConfig
  | getConfig (id : String)
  | scanDevice
  | getDevice (id : String)
  | getConfigBatch (source : CommandId)
  | getState (id : String)
  | getHash (k : SyncdKey)
  | scanPortFaults
  | putHash (k : SyncdKey) (v : SyncdHash k)
  | putHashIfAbsent (k : SyncdKey) (v : SyncdHash k)
  | putHashesAtomically (hashes : List ((k : SyncdKey) × SyncdHash k))
  | replaceHashAndAppendEvent (k : SyncdKey) (v : SyncdHash k) (event : StateEvent)
  | replaceStateOnce (marker : SyncdKey) (fields : SyncdHash marker) (id : String)
      (state : Option ConnectionState) (event : StateEvent)
  | replaceAlarmOnce (marker : SyncdKey) (fields : SyncdHash marker) (id : AlarmId)
      (alarm : Option Alarm) (event : AlarmEvent)
  | appendResultOnce (marker : SyncdKey) (fields : SyncdHash marker) (event : ResultEvent)
  | appendCommandOnce (marker : SyncdKey) (fields : SyncdHash marker) (event : CommandEvent)
  | incrementOnce (marker : SyncdKey) (fields : SyncdHash marker) (update : CounterUpdate)
  | now
  | readMemory
  | remember (name : String) (generation : Nat)
  | getDeviceInfo
  | getConnections
  | applyConnections (commands : List ConnectionCommand) (options : ApplyOptions CommandId)
  | getPortState (direction : PortDirection) (id : Nat)
  | raise (error : Raised)

/-- A device request fails with the message of the exception it throws. -/
abbrev SyncdOp.Reply : SyncdOp → Type
  | .xpending => Option Nat
  | .xclaim _ => Option CommandEvent
  | .readGroup => Option (Nat × CommandEvent)
  | .xack _ => Bool
  | .scanConfig => List String
  | .getConfig _ => Option Gnmi.ConnectionConfig
  | .scanDevice => List String
  | .getDevice _ => Option Application
  | .getConfigBatch _ => Option DeviceCommandBatch
  | .getState _ => Option ConnectionState
  | .getHash k => Option (SyncdHash k)
  | .scanPortFaults => List (PortDirection × Nat)
  | .putHash _ _ => Unit
  | .putHashIfAbsent _ _ => Bool
  | .putHashesAtomically _ => Unit
  | .replaceHashAndAppendEvent _ _ _ => Unit
  | .replaceStateOnce _ _ _ _ _ => Bool
  | .replaceAlarmOnce _ _ _ _ _ => Bool
  | .appendResultOnce _ _ _ => Bool
  | .appendCommandOnce _ _ _ => Bool
  | .incrementOnce _ _ _ => Bool
  | .now => Nat
  | .readMemory => String × Nat
  | .remember _ _ => Unit
  | .getDeviceInfo => Except String DeviceInfo
  | .getConnections => Except String (List AppliedConnection)
  | .applyConnections _ _ => Except String ApplyResult
  | .getPortState _ _ => Except String PortState
  | .raise _ => Unit

def World.setSyncd (w : World) (s : SyncdState) : World := { w with syncd := s }

def SyncdState.setHash (s : SyncdState) (k : SyncdKey) (v : SyncdHash k) : SyncdState :=
  { s with hash := Function.update s.hash k (some v) }

def World.markSyncd (w : World) (k : SyncdKey) (v : SyncdHash k) : World :=
  w.setSyncd (w.syncd.setHash k v)

def World.putEntries (w : World) (entries : List ((k : SyncdKey) × SyncdHash k)) : World :=
  w.setSyncd (entries.foldl (fun s entry => s.setHash entry.1 entry.2) w.syncd)

/-- The writes of a state publication. -/
def World.publishState (w : World) (marker : SyncdKey) (fields : SyncdHash marker) (id : String)
    (state : Option ConnectionState) (event : StateEvent) : World :=
  (w.setSyncd { w.syncd with
    state := putEntry w.syncd.state id state
    stateEvents := w.syncd.stateEvents ++ [event] }).markSyncd marker fields

def World.onceSyncd (w : World) (marker : SyncdKey) (fields : SyncdHash marker)
    (write : World → World) : Bool × World :=
  if (w.syncd.hash marker).isSome then (false, w) else (true, (write w).markSyncd marker fields)

def linkFailure : String := "UDS peer disconnected"

/-- A read request: the link may fail. -/
def readDevice {α : Type} (choice : Nat) (value : α) : Except String α :=
  if choice = 0 then .ok value else .error linkFailure

/-- The apply request. The link may lose the request or the reply, with a time-out or a
disconnect, or return a reply that does not decode. -/
def applyOverLink (choice : Nat) (d : SimulatedOcsDevice CommandId)
    (commands : List ConnectionCommand) (options : ApplyOptions CommandId) :
    Except String ApplyResult × SimulatedOcsDevice CommandId :=
  let lost (code : ErrorCode) : Except String ApplyResult := .ok ⟨⟨code, linkFailure⟩, []⟩
  match d.applyConnections commands options with
  | .error _ => (.error "device operation failed", d)
  | .ok (result, d') =>
      match choice with
      | 0 => (.ok result, d')
      | 1 => (lost .deviceNotReady, d)
      | 2 => (lost .applyTimeout, d)
      | 3 => (lost .deviceNotReady, d')
      | 4 => (lost .applyTimeout, d')
      | _ => (.error "UDS response is malformed", d')

/-- The keys of the port faults, in key order. -/
def portFaultKeys (w : World) : List (PortDirection × Nat) :=
  let numbers (count : Nat) := (List.range count).map (· + 1)
  (((numbers w.hwsim.info.inputPortCount).map fun id => (PortDirection.input, id)) ++
    (numbers w.hwsim.info.outputPortCount).map fun id => (PortDirection.output, id)).filter
      fun key => (w.syncd.hash (.portFault key.1 key.2)).isSome

def SyncdOp.exec (choice : Nat) (w : World) : (o : SyncdOp) → o.Reply × World
  | .xpending => (w.syncd.group.candidate pendingScan choice, w)
  | .xclaim n => (if choice = 0 ∧ n ∈ w.syncd.group.pending then w.commands[n]? else none, w)
  | .readGroup =>
      let read := w.syncd.group.read w.commands.length
      (read.1.bind fun n => w.commands[n]?.map fun event => (n, event),
        w.setSyncd { w.syncd with group := read.2 })
  | .xack n =>
      let ack := w.syncd.group.ack n
      (ack.1, w.setSyncd { w.syncd with group := ack.2 })
  | .scanConfig => (w.config.connections.keys, w)
  | .getConfig id => (w.config.connections[id]?, w)
  | .scanDevice => (w.orch.device.keys, w)
  | .getDevice id => (w.orch.device[id]?, w)
  | .getConfigBatch source =>
      (match source with
        | .config _ | .retry _ _ => w.orch.hash (.configBatch source)
        | .recovery _ | .reconcile _ => w.syncd.hash (.configBatch source), w)
  | .getState id => (w.syncd.state[id]?, w)
  | .getHash k => (w.syncd.hash k, w)
  | .scanPortFaults => (portFaultKeys w, w)
  | .putHash k v => ((), w.markSyncd k v)
  | .putHashIfAbsent k v => w.onceSyncd k v id
  | .putHashesAtomically hashes => ((), w.putEntries hashes)
  | .replaceHashAndAppendEvent k v event =>
      let s := w.syncd.setHash k v
      ((), w.setSyncd { s with stateEvents := s.stateEvents ++ [event] })
  | .replaceStateOnce marker fields id state event =>
      w.onceSyncd marker fields fun w => w.setSyncd { w.syncd with
        state := putEntry w.syncd.state id state
        stateEvents := w.syncd.stateEvents ++ [event] }
  | .replaceAlarmOnce marker fields id alarm event =>
      w.onceSyncd marker fields fun w =>
        { w with
          syncd := { w.syncd with hash := Function.update w.syncd.hash (.activeAlarm id) alarm }
          alarmEvents := w.alarmEvents ++ [event] }
  | .appendResultOnce marker fields event =>
      w.onceSyncd marker fields fun w =>
        w.setSyncd { w.syncd with results := w.syncd.results ++ [event] }
  | .appendCommandOnce marker fields event =>
      w.onceSyncd marker fields fun w => { w with commands := w.commands ++ [event] }
  | .incrementOnce marker fields update =>
      w.onceSyncd marker fields fun w => { w with counters := w.counters ++ [update] }
  | .now => (choice, w)
  | .readMemory => ((w.syncd.deviceName, w.syncd.deviceGeneration), w)
  | .remember name generation =>
      ((), w.setSyncd { w.syncd with deviceName := name, deviceGeneration := generation })
  | .getDeviceInfo => (readDevice choice w.hwsim.info, w)
  | .getConnections => (readDevice choice w.hwsim.getConnections, w)
  | .applyConnections commands options =>
      let applied := applyOverLink choice w.hwsim commands options
      (applied.1, { w with hwsim := applied.2 })
  | .getPortState direction id =>
      (match w.hwsim.getPortState direction id with
        | .ok port => readDevice choice port
        | .error _ => .error "device operation failed", w)
  | .raise _ => ((), w)

/-! ### Reading back -/

section ReadingSyncd

variable (w : World) (k : SyncdKey) (v : SyncdHash k)

@[simp] theorem World.markSyncd_state : (w.markSyncd k v).syncd.state = w.syncd.state := rfl
@[simp] theorem World.markSyncd_results : (w.markSyncd k v).syncd.results = w.syncd.results := rfl
@[simp] theorem World.markSyncd_stateEvents :
    (w.markSyncd k v).syncd.stateEvents = w.syncd.stateEvents := rfl
@[simp] theorem World.markSyncd_group : (w.markSyncd k v).syncd.group = w.syncd.group := rfl
@[simp] theorem World.markSyncd_deviceName :
    (w.markSyncd k v).syncd.deviceName = w.syncd.deviceName := rfl
@[simp] theorem World.markSyncd_deviceGeneration :
    (w.markSyncd k v).syncd.deviceGeneration = w.syncd.deviceGeneration := rfl
@[simp] theorem World.markSyncd_commands : (w.markSyncd k v).commands = w.commands := rfl
@[simp] theorem World.markSyncd_counters : (w.markSyncd k v).counters = w.counters := rfl
@[simp] theorem World.markSyncd_orch : (w.markSyncd k v).orch = w.orch := rfl
@[simp] theorem World.markSyncd_config : (w.markSyncd k v).config = w.config := rfl
@[simp] theorem World.markSyncd_hwsim : (w.markSyncd k v).hwsim = w.hwsim := rfl
@[simp] theorem World.markSyncd_inventory : (w.markSyncd k v).inventory = w.inventory := rfl

@[simp] theorem World.markSyncd_hash_self : (w.markSyncd k v).syncd.hash k = some v := by
  simp [World.markSyncd, World.setSyncd, SyncdState.setHash]

theorem World.markSyncd_hash_of_ne {k' : SyncdKey} (h : k' ≠ k) :
    (w.markSyncd k v).syncd.hash k' = w.syncd.hash k' := by
  simp [World.markSyncd, World.setSyncd, SyncdState.setHash, Function.update_of_ne h]

/-- A new hash leaves the others alone. -/
theorem World.markSyncd_hash_of_some {k' : SyncdKey} {v' : SyncdHash k'}
    (hnone : w.syncd.hash k = none) (h : w.syncd.hash k' = some v') :
    (w.markSyncd k v).syncd.hash k' = some v' := by
  by_cases hk : k' = k
  · subst hk
    rw [hnone] at h
    cases h
  · rw [World.markSyncd_hash_of_ne _ _ _ hk]
    exact h

end ReadingSyncd

theorem onceSyncd_some {t : World} {marker : SyncdKey} {fields : SyncdHash marker}
    {write : World → World} (h : (t.syncd.hash marker).isSome) :
    t.onceSyncd marker fields write = (false, t) := by
  simp only [World.onceSyncd, h, if_true]

theorem onceSyncd_none {t : World} {marker : SyncdKey} {fields : SyncdHash marker}
    {write : World → World} (h : t.syncd.hash marker = none) :
    t.onceSyncd marker fields write = (true, (write t).markSyncd marker fields) := by
  simp [World.onceSyncd, h]

theorem putEntries_hash_of_notMem {w : World} {entries : List ((k : SyncdKey) × SyncdHash k)}
    {k : SyncdKey} (h : ∀ entry ∈ entries, entry.1 ≠ k) :
    (w.putEntries entries).syncd.hash k = w.syncd.hash k := by
  induction entries using List.reverseRecOn with
  | nil => rfl
  | append_singleton rest entry ih =>
      have heq : w.putEntries (rest ++ [entry]) = (w.putEntries rest).markSyncd entry.1 entry.2 := by
        simp [World.putEntries, World.markSyncd, World.setSyncd]
      rw [heq, World.markSyncd_hash_of_ne _ _ _ (h entry (by simp)).symm]
      exact ih fun e he => h e (List.mem_append_left _ he)

theorem putEntries_cons {w : World} {entry : (k : SyncdKey) × SyncdHash k}
    {entries : List ((k : SyncdKey) × SyncdHash k)} :
    w.putEntries (entry :: entries) = (w.markSyncd entry.1 entry.2).putEntries entries := rfl

/-! ## All operations -/

inductive Op where
  | orch (o : OrchOp)
  | syncd (o : SyncdOp)

abbrev Op.Reply : Op → Type
  | .orch o => o.Reply
  | .syncd o => o.Reply

def exec : (o : Op) → Nat → World → o.Reply × World
  | .orch o, choice, w => o.exec choice w
  | .syncd o, choice, w => o.exec choice w

abbrev Service (α : Type) := Prog Op Op.Reply Raised α

namespace Orch

/-- One operation of the orchestrator. -/
def send (o : OrchOp) : Service o.Reply := .call (.orch o) .pure

def raise {α : Type} (error : Raised) : Service α :=
  .call (.orch (.raise error)) fun _ => .throw error

end Orch

namespace Syncd

/-- One operation of syncd. -/
def send (o : SyncdOp) : Service o.Reply := .call (.syncd o) .pure

def raise {α : Type} (error : Raised) : Service α :=
  .call (.syncd (.raise error)) fun _ => .throw error

end Syncd

end MiniOcs
