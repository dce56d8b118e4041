import MiniOcs.Redis.Transactions

/-!
# ON_CHANGE subscriptions

`SubscribeTransaction.stream` over `RedisSubscribeRepository`: cursors first, then one snapshot
for each path, then batches of events, each matching event followed by a new snapshot. A snapshot
takes several reads, so every Redis command is a step of its own and writers move in between.
A JSON text and its value determine each other, so payloads are compared as values.
-/
namespace MiniOcs.Gnmi
open Std MiniOcs.Redis

/-- The two databases under connection and alarm paths; each has one event stream. -/
inductive Database where
  | alarm
  | state
  deriving DecidableEq, Repr

namespace Database

def events : Database → String
  | .alarm => "OCS_ALARM_EVENTS"
  | .state => "OCS_STATE_EVENTS"

def resourceType : Database → String
  | .alarm => "alarm"
  | .state => "connection"

end Database

inductive NativePath where
  | connections (device : String)
  | connectionState (device connectionId : String)
  | alarms (device : String)
  | alarm (device alarmId : String)
  deriving DecidableEq, Repr

namespace NativePath

@[simp] def device : NativePath → String
  | .connections device | .connectionState device _ | .alarms device | .alarm device _ => device

/-- `SubscriptionSpec.stream`, named by its database. -/
@[simp] def database : NativePath → Database
  | .connections _ | .connectionState _ _ => .state
  | .alarms _ | .alarm _ _ => .alarm

/-- The resources whose events a path follows. -/
def concerns : NativePath → String → Bool
  | .connections _, _ | .alarms _, _ => true
  | .connectionState _ id, resource | .alarm _ id, resource => resource == id

end NativePath

/-! ## Values of a hash -/

inductive Value where
  | int (n : Int)
  | bool (b : Bool)
  | text (s : String)
  deriving DecidableEq, Repr

abbrev Item := ExtTreeMap String Value

def isSpace (c : Char) : Bool := c ∈ [' ', '\t', '\n', '\r', '\x0b', '\x0c']

def decimal (digits : List Char) : Option Int :=
  if !digits.isEmpty && digits.all Char.isDigit then
    some (digits.foldl (fun (n : Nat) c => 10 * n + (c.toNat - '0'.toNat)) 0 : Nat)
  else none

/-- Digits with single underscores between them. -/
def underscored (text : List Char) : Option Int :=
  if ∀ group ∈ text.splitOn '_', group ≠ [] then decimal (text.filter (· ≠ '_')) else none

/-- Python's `int` on ASCII text. -/
def pyInt (text : String) : Option Int :=
  match ((text.toList.dropWhile isSpace).reverse.dropWhile isSpace).reverse with
  | '-' :: rest => (underscored rest).map fun n => -n
  | '+' :: rest => underscored rest
  | rest => underscored rest

/-- `_INTEGER_FIELDS`. -/
def integerFields : List String :=
  ["affected_connection_count", "active_alarms", "active_connections", "actual_connection_count",
    "applied_version", "created_at_ns", "desired_version", "device_generation", "drift_count",
    "first_raised_ns", "input_port", "input_port_count", "last_change_ns", "last_apply_latency_ms",
    "max_apply_latency_ms", "output_port", "output_port_count", "port_id", "timestamp_ns",
    "updated_at_ns"]

def nativeValue (redisName raw : String) : Option Value :=
  if redisName ∈ integerFields ∨ "_total".toList <:+ redisName.toList then (pyInt raw).map .int
  else if raw = "true" ∨ raw = "false" then some (.bool (raw = "true"))
  else some (.text raw)

def jsonName (redisName : String) : String :=
  String.ofList (redisName.toList.map fun c => if c = '_' then '-' else c)

/-- One field of `_native_fields`. -/
def addField (item : Item) (field : String × String) : Option Item :=
  (nativeValue field.1 field.2).map fun value => item.insert (jsonName field.1) value

/-- `_native_fields`; no value is its `RuntimeError`. Float fields belong to ports and
counters. -/
def nativeFields (fields : Fields) : Option Item := fields.toList.foldlM addField ∅

/-! ## Payloads -/

inductive Payload where
  | hash (fields : Item)
  | connection (entries : List (String × Item))
  | alarm (entries : List Item)
  deriving DecidableEq

def renderConnection (id : String) (fields : Fields) : Option (String × Item) :=
  (nativeFields fields).map fun item => (id, item)

/-- The payload of one listed alarm, with its `setdefault`. -/
def renderAlarm (id : String) (fields : Fields) : Option Item :=
  (nativeFields fields).map fun item => if "id" ∈ item then item else item.insert "id" (.text id)

def textId (item : Item) : Option String :=
  match item["id"]? with
  | some (.text id) => some id
  | _ => none

def boolId (item : Item) : Option Bool :=
  match item["id"]? with
  | some (.bool id) => some id
  | _ => none

/-- `sorted(result, key=lambda item: item["id"])`. An id that reads `true` or `false` has
become a boolean, and Python refuses to compare it with a text. -/
def sortAlarms (items : List Item) : Option (List Item) :=
  if items.all fun item => (textId item).isSome then
    some (items.mergeSort fun a b => decide ((textId a).getD "" ≤ (textId b).getD ""))
  else if items.all fun item => (boolId item).isSome then
    some (items.mergeSort fun a b => decide ((boolId a).getD false ≤ (boolId b).getD false))
  else none

/-- The rendered hashes of `ids`, those missing left out. -/
def collect {β : Type} (row : String → Fields) (render : String → Fields → Option β) :
    List String → Option (List β)
  | [] => some []
  | id :: rest =>
      if (row id).isEmpty then collect row render rest
      else do
        let item ← render id (row id)
        let items ← collect row render rest
        some (item :: items)

/-! ## The Redis server -/

structure Entry where
  messageId : String
  fields : Fields
  deriving DecidableEq

/-- The connection hashes of STATE_DB and the active alarms of ALARM_DB by device and id, with
the two event streams. The inventory of every device is present. -/
structure Snapshots where
  rows : Database → String → ExtTreeMap String Fields
  log : Database → List Entry

namespace Snapshots

def hgetall (s : Snapshots) (database : Database) (device id : String) : Fields :=
  (s.rows database device)[id]?.getD ∅

def ids (s : Snapshots) (path : NativePath) : Finset String :=
  (s.rows path.database path.device).keys.toFinset

def sortedIds (s : Snapshots) (path : NativePath) : List String := (s.ids path).sort (· ≤ ·)

def hashPayload (fields : Fields) : Option (Option Payload) :=
  if fields.isEmpty then some none else (nativeFields fields).map fun item => some (.hash item)

/-- The authoritative snapshot of a path, read at one moment: an absent one is `some none`, and
one with a malformed number has no value. -/
def snapshot (s : Snapshots) (path : NativePath) : Option (Option Payload) :=
  let row := s.hgetall path.database path.device
  match path with
  | .connectionState _ id | .alarm _ id => hashPayload (row id)
  | .connections _ =>
      (collect row renderConnection (s.sortedIds path)).map fun entries =>
        some (.connection entries)
  | .alarms _ =>
      ((collect row renderAlarm (s.sortedIds path)).bind sortAlarms).map fun entries =>
        some (.alarm entries)

end Snapshots

/-! ## Events -/

structure StreamEvent where
  stream : Database
  messageId : String
  timestampNs : Int
  device : String
  resourceType : String
  resourceId : String
  operation : String
  deriving DecidableEq

def numericFields : List String := ["event_schema_version", "timestamp_ns", "desired_version"]

def textFields : List String :=
  ["event_id", "request_id", "device", "resource_type", "resource_id", "operation", "payload"]

def parseEvent (stream : Database) (entry : Entry) : Option StreamEvent :=
  let field (name : String) : String := entry.fields[name]?.getD ""
  if ¬ (∀ name ∈ numericFields ++ textFields, name ∈ entry.fields) ∨
      field "event_schema_version" ≠ "1" then none
  else if ¬ ∀ name ∈ textFields, field name ≠ "" then none
  else do
    let timestampNs ← pyInt (field "timestamp_ns")
    let desiredVersion ← pyInt (field "desired_version")
    if timestampNs < 0 ∨ 2 ^ 63 - 1 < timestampNs ∨ desiredVersion < 0 then none
    else
      some ⟨stream, entry.messageId, timestampNs, field "device", field "resource_type",
        field "resource_id", field "operation"⟩

/-- The order of `next_events`: time, stream name, message id. -/
def StreamEvent.before (a b : StreamEvent) : Bool :=
  decide (a.timestampNs < b.timestampNs) ||
    (a.timestampNs == b.timestampNs &&
      (decide (a.stream.events < b.stream.events) ||
        (a.stream == b.stream && decide (a.messageId ≤ b.messageId))))

/-- `SubscriptionSpec.matches` for connection and alarm paths. -/
def NativePath.matchesEvent (path : NativePath) (event : StreamEvent) : Bool :=
  event.device == path.device &&
    (event.resourceType == path.database.resourceType && path.concerns event.resourceId)

/-! ## Reading a snapshot -/

/-- The reply to one `SCAN` call; `finished` is cursor 0. -/
structure ScanReply where
  keys : List String
  finished : Bool
  deriving DecidableEq

/-- How far `RedisGetRepository._read` has come. `owed` are the keys that were there when the
iteration began, have been there since and were not returned yet: `SCAN` returns each of them
before it ends. It may return a key again, and a key that came or went as it likes. -/
inductive Reading where
  | hash
  | device
  | scan (owed : List String) (ids : Finset String)
  | members (rest : List String) (entries : List (String × Item))
  | alarmScan (owed returned page : List String) (finished : Bool) (items : List Item)
  deriving DecidableEq

inductive Progress where
  | more (reading : Reading)
  | done (payload : Option Payload)
  | failed
  deriving DecidableEq

namespace Reading

def start : NativePath → Reading
  | .connections _ | .alarms _ => .device
  | .connectionState _ _ | .alarm _ _ => .hash

/-- What `SCAN` may reply here. -/
def Admits (s : Snapshots) (path : NativePath) (reading : Reading) (reply : ScanReply) : Prop :=
  (∀ key ∈ reply.keys, key ∈ s.ids path) ∧
    match reading with
    | .scan owed _ | .alarmScan owed _ _ _ _ => reply.finished → ∀ key ∈ owed, key ∈ reply.keys
    | _ => True

instance (s : Snapshots) (path : NativePath) (reading : Reading) (reply : ScanReply) :
    Decidable (reading.Admits s path reply) := by
  unfold Admits
  cases reading <;> infer_instance

/-- The iteration of `_alarm_list` has not returned a key of this page before. -/
def NoRepeat (reading : Reading) (reply : ScanReply) : Prop :=
  match reading with
  | .alarmScan _ returned [] false _ => (returned ++ reply.keys).Nodup
  | _ => True

/-- One Redis command of a read; `reply` is looked at where that command is `SCAN`. -/
def step (s : Snapshots) (path : NativePath) (reply : ScanReply) : Reading → Progress
  | .hash =>
      match path with
      | .connectionState _ id | .alarm _ id =>
          match Snapshots.hashPayload (s.hgetall path.database path.device id) with
          | some payload => .done payload
          | none => .failed
      | _ => .failed
  | .device =>
      match path with
      | .connections _ => .more (.scan (s.sortedIds path) ∅)
      | .alarms _ => .more (.alarmScan (s.sortedIds path) [] [] false [])
      | _ => .failed
  | .scan owed ids =>
      let found := ids ∪ reply.keys.toFinset
      if reply.finished then .more (.members (found.sort (· ≤ ·)) [])
      else .more (.scan (owed.filter (· ∉ reply.keys)) found)
  | .members [] entries => .done (some (.connection entries))
  | .members (id :: rest) entries =>
      -- a concurrent delete after SCAN leaves the entry out
      let fields := s.hgetall path.database path.device id
      if fields.isEmpty then .more (.members rest entries)
      else match renderConnection id fields with
        | some entry => .more (.members rest (entries ++ [entry]))
        | none => .failed
  | .alarmScan owed returned [] false items =>
      .more (.alarmScan (owed.filter (· ∉ reply.keys)) (returned ++ reply.keys) reply.keys
        reply.finished items)
  | .alarmScan _ _ [] true items =>
      match sortAlarms items with
      | some entries => .done (some (.alarm entries))
      | none => .failed
  | .alarmScan owed returned (id :: page) finished items =>
      let fields := s.hgetall path.database path.device id
      if fields.isEmpty then .more (.alarmScan owed returned page finished items)
      else match renderAlarm id fields with
        | some item => .more (.alarmScan owed returned page finished (items ++ [item]))
        | none => .failed

/-- A key that is gone is not owed any more. -/
def written (t : Snapshots) (path : NativePath) : Reading → Reading
  | .scan owed ids => .scan (owed.filter (· ∈ t.ids path)) ids
  | .alarmScan owed returned page finished items =>
      .alarmScan (owed.filter (· ∈ t.ids path)) returned page finished items
  | reading => reading

end Reading

/-! ## The subscriber -/

structure SubscriptionPlan where
  subscriptions : List NativePath
  updatesOnly : Bool

namespace SubscriptionPlan

/-- `sorted(streams)`. -/
def streams (plan : SubscriptionPlan) : List Database :=
  [.alarm, .state].filter fun database => plan.subscriptions.any (·.database == database)

/-- The pairs of event and subscription that the two loops over a batch stop at. -/
def matching (plan : SubscriptionPlan) (events : List StreamEvent) : List (StreamEvent × Nat) :=
  events.flatMap fun event =>
    (plan.subscriptions.zipIdx.filter fun spec => spec.1.matchesEvent event).map
      fun spec => (event, spec.2)

end SubscriptionPlan

inductive Response where
  | notification (index : Nat) (payload : Option Payload) (timestampNs : Int)
  | sync
  deriving DecidableEq

/-- What a response says about one subscription. -/
def Response.valueFor (index : Nat) : Response → Option (Option Payload)
  | .notification i payload _ => if i = index then some payload else none
  | .sync => none

inductive Phase where
  | cursors (rest : List Database)
  | baseline (path : NativePath) (reading : Reading)
  | waiting (batches : Database → Option (List Entry))
  | handling (path : NativePath) (reading : Reading) (event : StreamEvent) (index : Nat)
      (rest : List (StreamEvent × Nat))
  | closed

/-- A cursor is the number of entries up to its message id. `baselines` keeps what `previous`
was at first; nothing reads it. -/
structure Subscriber where
  cursors : Database → Nat
  previous : List (Option Payload)
  phase : Phase
  inputOpen : Bool
  sent : List Response
  baselines : List (Option Payload)

namespace Subscriber

variable (plan : SubscriptionPlan)

def initial : Subscriber :=
  { cursors := fun _ => 0, previous := [], phase := .cursors plan.streams, inputOpen := true
    sent := [], baselines := [] }

/-- The head of the loop over the subscriptions, and `sync_response` behind its end. -/
def nextBaseline (c : Subscriber) : Subscriber :=
  match plan.subscriptions[c.previous.length]? with
  | some path => { c with phase := .baseline path (.start path) }
  | none => { c with phase := .waiting fun _ => none, sent := c.sent ++ [.sync] }

/-- The head of the two loops over a batch, and a new `next_events` task behind their end. -/
def nextEvent (c : Subscriber) : List (StreamEvent × Nat) → Subscriber
  | [] => { c with phase := .waiting fun _ => none }
  | (event, index) :: rest =>
      match plan.subscriptions[index]? with
      | some path => { c with phase := .handling path (.start path) event index rest }
      | none => { c with phase := .closed }

/-- One `xrevrange`. -/
def capture (s : Snapshots) (c : Subscriber) : Subscriber :=
  match c.phase with
  | .cursors [] => nextBaseline plan c
  | .cursors (database :: rest) => { c with
      cursors := Function.update c.cursors database (s.log database).length
      phase := .cursors rest }
  | _ => c

def baselineRead (c : Subscriber) (payload : Option Payload) (now : Int) : Subscriber :=
  nextBaseline plan { c with
    previous := c.previous ++ [payload]
    baselines := c.baselines ++ [payload]
    sent := if !plan.updatesOnly && payload.isSome then
        c.sent ++ [.notification c.previous.length payload now]
      else c.sent }

def eventRead (c : Subscriber) (payload : Option Payload) (event : StreamEvent) (index : Nat)
    (rest : List (StreamEvent × Nat)) : Subscriber :=
  if c.previous[index]? = some payload then nextEvent plan c rest
  else nextEvent plan { c with
    previous := c.previous.set index payload
    sent := c.sent ++ [.notification index payload event.timestampNs] } rest

/-- One command of the snapshot that is being read. -/
def read (s : Snapshots) (reply : ScanReply) (now : Int) (c : Subscriber) : Subscriber :=
  match c.phase with
  | .baseline path reading =>
      match reading.step s path reply with
      | .more reading => { c with phase := .baseline path reading }
      | .done payload => baselineRead plan c payload now
      | .failed => { c with phase := .closed }
  | .handling path reading event index rest =>
      match reading.step s path reply with
      | .more reading => { c with phase := .handling path reading event index rest }
      | .done payload => eventRead plan c payload event index rest
      | .failed => { c with phase := .closed }
  | _ => c

/-- One `XREAD … COUNT 100`. -/
def fetch (s : Snapshots) (database : Database) (c : Subscriber) : Subscriber :=
  match c.phase with
  | .waiting batches => { c with
      phase := .waiting (Function.update batches database
        (some (((s.log database).drop (c.cursors database)).take 100))) }
  | _ => c

/-- The end of `next_events`: the cursors move, malformed entries are dropped, the rest is put
in order. -/
def deliver (c : Subscriber) : Subscriber :=
  match c.phase with
  | .waiting batches =>
      let events := plan.streams.flatMap fun database =>
        ((batches database).getD []).filterMap (parseEvent database)
      nextEvent plan
        { c with cursors := fun database => c.cursors database + ((batches database).getD []).length }
        (plan.matching (events.mergeSort StreamEvent.before))
  | _ => c

/-- The requests have ended while the events were not there yet: their task is cancelled. -/
def cancel (c : Subscriber) : Subscriber :=
  match c.phase with
  | .waiting _ => { c with phase := .waiting fun _ => none, inputOpen := false }
  | _ => c

/-- What a write does to the iteration that is open. -/
def written (t : Snapshots) (c : Subscriber) : Subscriber :=
  match c.phase with
  | .baseline path reading => { c with phase := .baseline path (reading.written t path) }
  | .handling path reading event index rest =>
      { c with phase := .handling path (reading.written t path) event index rest }
  | _ => c

/-! ## Observations -/

/-- The values sent for one subscription, in order. -/
def values (c : Subscriber) (index : Nat) : List (Option Payload) :=
  c.sent.filterMap (Response.valueFor index)

/-- The last value sent, else the baseline. -/
def lastValue (c : Subscriber) (index : Nat) : Option Payload :=
  ((c.values index).getLast?.or c.baselines[index]?).getD none

end Subscriber

/-! ## Runs -/

/-- A well-formed entry about one resource. -/
def Entry.announces (entry : Entry) (database : Database) (device id : String) : Prop :=
  ∃ event, parseEvent database entry = some event ∧ event.device = device ∧
    event.resourceType = database.resourceType ∧ event.resourceId = id

/-- An alarm hash names the alarm it is stored under. -/
def Snapshots.Named (s : Snapshots) : Prop :=
  ∀ (device id : String) (fields : Fields), (s.rows .alarm device)[id]? = some fields →
    ∀ name, fields["id"]? = some name → name = id

/-- One transaction of a writer: whatever it changes is announced by what it appends. -/
def Snapshots.Writes (s t : Snapshots) : Prop :=
  t.Named ∧ ∀ database, ∃ entries, t.log database = s.log database ++ entries ∧
    ∀ device id, (t.rows database device)[id]? ≠ (s.rows database device)[id]? →
      ∃ entry ∈ entries, entry.announces database device id

/-- The requests are at their end or still open; a further request, a deadline, an error and
the end of the call close the stream. -/
inductive SubscribeStep (plan : SubscriptionPlan) (ok : Reading → ScanReply → Prop) :
    Snapshots × Subscriber → Snapshots × Subscriber → Prop
  | write {s c} (t : Snapshots) : s.Writes t → SubscribeStep plan ok (s, c) (t, c.written t)
  | capture {s c} : SubscribeStep plan ok (s, c) (s, c.capture plan s)
  | read {s c} (reply : ScanReply) (now : Int) (path : NativePath) (reading : Reading) :
      (c.phase = .baseline path reading ∨
        ∃ event index rest, c.phase = .handling path reading event index rest) →
      reading.Admits s path reply → ok reading reply →
      SubscribeStep plan ok (s, c) (s, c.read plan s reply now)
  | fetch {s c} (database : Database) (batches : Database → Option (List Entry)) :
      c.phase = .waiting batches → database ∈ plan.streams → batches database = none →
      SubscribeStep plan ok (s, c) (s, c.fetch s database)
  | deliver {s c} (batches : Database → Option (List Entry)) (inputOpen : Bool) :
      c.phase = .waiting batches → (∀ database ∈ plan.streams, (batches database).isSome) →
      (inputOpen → c.inputOpen) →
      SubscribeStep plan ok (s, c) (s, { c.deliver plan with inputOpen })
  | cancel {s c} : c.inputOpen → SubscribeStep plan ok (s, c) (s, c.cancel)
  | close {s c} : SubscribeStep plan ok (s, c) (s, { c with phase := .closed })

inductive Subscribed (plan : SubscriptionPlan) (ok : Reading → ScanReply → Prop) :
    Snapshots × Subscriber → Prop
  | init {s} : s.Named → Subscribed plan ok (s, .initial plan)
  | step {c d} : Subscribed plan ok c → SubscribeStep plan ok c d → Subscribed plan ok d

/-- Every entry of the subscribed streams is read and handled. -/
def AtTails (plan : SubscriptionPlan) (s : Snapshots) (c : Subscriber) : Prop :=
  (∃ batches, c.phase = .waiting batches) ∧
    ∀ database ∈ plan.streams, c.cursors database = (s.log database).length

end MiniOcs.Gnmi
