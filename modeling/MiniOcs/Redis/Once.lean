import MiniOcs.Concurrent.System
import MiniOcs.Redis.Transactions

/-!
# Publications that happen once

The functions of `RedisRepository` that write under a marker: a loop that watches the marker and
what it reads, gives up if the marker exists, and otherwise queues its writes together with the
marker. Callers with one marker race with each other and with other writers.
-/
namespace MiniOcs.Redis
open Std Concurrent

inductive RepositoryError where
  | invalidArgument (message : String)
  | runtimeError (message : String)
  deriving DecidableEq, Repr

structure EventEnvelope where
  eventSchemaVersion : Nat
  eventId : String
  requestId : String
  timestampNs : Nat
  device : String
  resourceType : String
  resourceId : String
  operation : String
  desiredVersion : Nat
  payload : String
  deriving DecidableEq, Repr

def eventFields (event : EventEnvelope) : List (String × String) :=
  [("event_schema_version", toString event.eventSchemaVersion),
    ("event_id", event.eventId),
    ("request_id", event.requestId),
    ("timestamp_ns", toString event.timestampNs),
    ("device", event.device),
    ("resource_type", event.resourceType),
    ("resource_id", event.resourceId),
    ("operation", event.operation),
    ("desired_version", toString event.desiredVersion),
    ("payload", event.payload)]

def validateEvent (event : EventEnvelope) : Except RepositoryError Unit :=
  if event.eventSchemaVersion ≠ 1 then
    .error (.invalidArgument "unsupported Redis event schema version")
  else if event.eventId = "" ∨ event.requestId = "" ∨ event.device = "" ∨
      event.resourceType = "" ∨ event.resourceId = "" ∨ event.operation = "" then
    .error (.invalidArgument "Redis event is missing a required envelope field")
  else .ok ()

/-! ## Calls -/

/-- A transaction that was executed, and an answer that a caller got. -/
inductive OnceEvent (ι : Type) where
  | executed (caller : ι) (before after : Db)
  | returned (caller : ι) (answer : Bool)

/-- The log is read by no one. -/
structure OnceWorld (ι : Type) where
  server : Server ι := {}
  log : List (OnceEvent ι) := []

/-- `connect` opens the connection of a transaction; `answer` is the return of a call. -/
inductive OnceOp (ι : Type) where
  | connect (i : ι)
  | watch (i : ι) (key : String)
  | unwatch (i : ι)
  | has (key : String)
  | hget (key field : String)
  | exec (i : ι) (queue : List Command)
  | answer (i : ι) (answer : Bool)

/-- `exec` replies false where the client library raises `WatchError`. -/
abbrev OnceOp.Reply {ι : Type} : OnceOp ι → Type
  | .connect _ => Unit
  | .watch _ _ => Unit
  | .unwatch _ => Unit
  | .has _ => Bool
  | .hget _ _ => Option String
  | .exec _ _ => Bool
  | .answer _ _ => Unit

section Programs

variable {ι : Type} [DecidableEq ι]

def onceExec : (o : OnceOp ι) → Nat → OnceWorld ι → o.Reply × OnceWorld ι
  | .connect i, _, w => ((), { w with server := w.server.setWatched i [] })
  | .watch i key, _, w => ((), { w with server := w.server.watch i key })
  | .unwatch i, _, w => ((), { w with server := w.server.setWatched i [] })
  | .has key, _, w => (w.server.db.has key, w)
  | .hget key field, _, w => ((w.server.db.hash key)[field]?, w)
  | .exec i queue, _, w =>
      if w.server.clean i then
        (true, {
          server := (w.server.executeAll queue).setWatched i []
          log := w.log ++ [.executed i w.server.db (w.server.db.runAll queue)] })
      else (false, { w with server := w.server.setWatched i [] })
  | .answer i b, _, w => ((), { w with log := w.log ++ [.returned i b] })

abbrev OnceProg (ι α : Type) := Prog (OnceOp ι) OnceOp.Reply RepositoryError α

def once (o : OnceOp ι) : OnceProg ι o.Reply := .call o .pure

def kMaxWatchRetries : Nat := 8

def watchAll (i : ι) : List String → OnceProg ι Unit
  | [] => .pure ()
  | key :: rest => do
      once (.watch i key)
      watchAll i rest

/-- The attempts of a publication: `keys` are what `prepare` reads to build its queue. -/
def watchLoop (i : ι) (marker : String) (keys : List String) (exceeded : String)
    (prepare : OnceProg ι (List Command)) : Nat → OnceProg ι Bool
  | 0 => .throw (.runtimeError exceeded)
  | attempts + 1 => do
      once (.connect i)
      watchAll i (marker :: keys)
      let present ← once (.has marker)
      if present then do
        once (.unwatch i)
        .pure false
      else do
        let queue ← prepare
        let done ← once (.exec i queue)
        if done then .pure true else watchLoop i marker keys exceeded prepare attempts

def replaceHash (key : String) (fields : Fields) : List Command :=
  .del key :: if fields.isEmpty then [] else [.hmset key fields]

def replaceHashAndAppendEventOnce (i : ι) (marker : String) (markerFields : Fields) (key : String)
    (fields : Fields) (stream : String) (event : EventEnvelope) : OnceProg ι Bool :=
  match validateEvent event with
  | .error error => .throw error
  | .ok _ => watchLoop i marker [] "Redis state publication exceeded retry limit"
      (.pure (replaceHash key fields ++
        [.xadd stream (eventFields event), .hmset marker markerFields])) kMaxWatchRetries

def appendEventOnce (i : ι) (marker : String) (markerFields : Fields) (stream : String)
    (event : EventEnvelope) : OnceProg ι Bool :=
  match validateEvent event with
  | .error error => .throw error
  | .ok _ => watchLoop i marker [] "Redis event publication exceeded retry limit"
      (.pure [.xadd stream (eventFields event), .hmset marker markerFields]) kMaxWatchRetries

def incrementAll (key : String) (increments : ExtTreeMap String Int) : List Command :=
  (increments.toList.filter fun entry => entry.2 ≠ 0).map fun entry =>
    .hincrby key entry.1 entry.2

def incrementHashFieldsOnce (i : ι) (marker : String) (markerFields : Fields) (key : String)
    (increments : ExtTreeMap String Int) : OnceProg ι Bool :=
  watchLoop i marker [] "Redis counter publication exceeded retry limit"
    (.pure (incrementAll key increments ++ [.hmset marker markerFields])) kMaxWatchRetries

/-- The new maximum; `none` where the stored text is no number. -/
def recordedMaximum (latencyMs : Int) (existing : Option String) : Option Int :=
  match existing with
  | none => some latencyMs
  | some text => (stoll text).map (max latencyMs)

def latencyFields (latencyMs maximum : Int) : Fields :=
  (∅ : Fields).insert "last_apply_latency_ms" (toString latencyMs) |>.insert
    "max_apply_latency_ms" (toString maximum)

def recordQueue (marker : String) (markerFields : Fields) (key : String)
    (increments : ExtTreeMap String Int) (latencyMs maximum : Int) : List Command :=
  incrementAll key increments ++
    [.hmset key (latencyFields latencyMs maximum), .hmset marker markerFields]

def prepareRecord (marker : String) (markerFields : Fields) (key : String)
    (increments : ExtTreeMap String Int) (latencyMs : Int) : OnceProg ι (List Command) := do
  let existing ← once (.hget key "max_apply_latency_ms")
  match recordedMaximum latencyMs existing with
  | none => .throw (.invalidArgument "stoll")
  | some maximum => .pure (recordQueue marker markerFields key increments latencyMs maximum)

def recordApplyCountersOnce (i : ι) (marker : String) (markerFields : Fields) (key : String)
    (increments : ExtTreeMap String Int) (latencyMs : Int) : OnceProg ι Bool :=
  if latencyMs < 0 then .throw (.invalidArgument "device apply latency must not be negative")
  else watchLoop i marker [key] "Redis apply counter publication exceeded retry limit"
    (prepareRecord marker markerFields key increments latencyMs) kMaxWatchRetries

/-- Whether a target is published: not over a newer version; `none` where the text is no number. -/
def publishes (desiredVersion : Nat) (existing : Option String) : Option Bool :=
  match existing with
  | none => some true
  | some text => (stoull text).map fun version => decide (version ≤ desiredVersion)

/-- A target that names another version than the marker is refused. -/
def checkVersion (i : ι) (desiredVersion : Nat) (fields : Fields) : OnceProg ι Unit :=
  match fields["desired_version"]? with
  | none => .pure ()
  | some text =>
      match stoull text with
      | none => .throw (.invalidArgument "stoull")
      | some version =>
          if version ≠ desiredVersion then do
            once (.unwatch i)
            .throw (.invalidArgument "versioned Redis hash does not match marker desired_version")
          else .pure ()

/-- The loop over the targets, which collects the published ones. -/
def publishedHashes (i : ι) (desiredVersion : Nat) (published : List (String × Fields)) :
    List (String × Fields) → OnceProg ι (List (String × Fields))
  | [] => .pure published
  | (key, fields) :: rest => do
      checkVersion i desiredVersion fields
      let existing ← once (.hget key "desired_version")
      match publishes desiredVersion existing with
      | none => .throw (.invalidArgument "stoull")
      | some true => publishedHashes i desiredVersion (published ++ [(key, fields)]) rest
      | some false => publishedHashes i desiredVersion published rest

def versionedQueue (marker : String) (markerFields : Fields)
    (published : List (String × Fields)) : List Command :=
  (published.flatMap fun entry => replaceHash entry.1 entry.2) ++ [.hmset marker markerFields]

def prepareVersioned (i : ι) (marker : String) (markerFields : Fields) (desiredVersion : Nat)
    (hashes : List (String × Fields)) : OnceProg ι (List Command) := do
  let published ← publishedHashes i desiredVersion [] hashes
  .pure (versionedQueue marker markerFields published)

def putVersionedHashesAtomicallyIfMarkerAbsent (i : ι) (marker : String) (markerFields : Fields)
    (hashes : List (String × Fields)) : OnceProg ι Bool :=
  match markerFields["desired_version"]? with
  | none => .throw (.invalidArgument "versioned Redis hash marker is missing desired_version")
  | some text =>
      match stoull text with
      | none => .throw (.invalidArgument "stoull")
      | some desiredVersion =>
          watchLoop i marker (hashes.map (·.1))
            "Redis versioned hash publication exceeded retry limit"
            (prepareVersioned i marker markerFields desiredVersion hashes) kMaxWatchRetries

end Programs

/-! ## Concurrent callers -/

inductive OnceCall where
  | replaceHashAndAppendEventOnce (markerFields : Fields) (key : String) (fields : Fields)
      (stream : String) (event : EventEnvelope)
  | appendEventOnce (markerFields : Fields) (stream : String) (event : EventEnvelope)
  | incrementHashFieldsOnce (markerFields : Fields) (key : String)
      (increments : ExtTreeMap String Int)
  | recordApplyCountersOnce (markerFields : Fields) (key : String)
      (increments : ExtTreeMap String Int) (latencyMs : Int)
  | putVersionedHashesAtomicallyIfMarkerAbsent (markerFields : Fields)
      (hashes : List (String × Fields))

namespace OnceCall

def markerFields : OnceCall → Fields
  | .replaceHashAndAppendEventOnce fields _ _ _ _ => fields
  | .appendEventOnce fields _ _ => fields
  | .incrementHashFieldsOnce fields _ _ => fields
  | .recordApplyCountersOnce fields _ _ _ => fields
  | .putVersionedHashesAtomicallyIfMarkerAbsent fields _ => fields

def program {ι : Type} (i : ι) (marker : String) : OnceCall → OnceProg ι Bool
  | .replaceHashAndAppendEventOnce markerFields key fields stream event =>
      Redis.replaceHashAndAppendEventOnce i marker markerFields key fields stream event
  | .appendEventOnce markerFields stream event =>
      Redis.appendEventOnce i marker markerFields stream event
  | .incrementHashFieldsOnce markerFields key increments =>
      Redis.incrementHashFieldsOnce i marker markerFields key increments
  | .recordApplyCountersOnce markerFields key increments latencyMs =>
      Redis.recordApplyCountersOnce i marker markerFields key increments latencyMs
  | .putVersionedHashesAtomicallyIfMarkerAbsent markerFields hashes =>
      Redis.putVersionedHashesAtomicallyIfMarkerAbsent i marker markerFields hashes

/-- The call, and the return of its answer. -/
def run {ι : Type} (i : ι) (marker : String) (call : OnceCall) : OnceProg ι Bool := do
  let answer ← call.program i marker
  once (.answer i answer)
  .pure answer

/-- The version of the marker. -/
def desiredVersion (markerFields : Fields) : Option Nat := do
  let text ← markerFields["desired_version"]?
  stoull text

/-- The database holds no newer version under the key. -/
def notNewer (version : Nat) (db : Db) (key : String) : Bool :=
  (publishes version (db.hash key)["desired_version"]?).getD false

/-- What a call does where it does something: one step on the database, from the database it
finds then. -/
def effect (marker : String) : OnceCall → Db → Db
  | .replaceHashAndAppendEventOnce markerFields key fields stream event, db =>
      db.runAll (replaceHash key fields ++
        [.xadd stream (eventFields event), .hmset marker markerFields])
  | .appendEventOnce markerFields stream event, db =>
      db.runAll [.xadd stream (eventFields event), .hmset marker markerFields]
  | .incrementHashFieldsOnce markerFields key increments, db =>
      db.runAll (incrementAll key increments ++ [.hmset marker markerFields])
  | .recordApplyCountersOnce markerFields key increments latencyMs, db =>
      db.runAll (recordQueue marker markerFields key increments latencyMs
        ((recordedMaximum latencyMs (db.hash key)["max_apply_latency_ms"]?).getD latencyMs))
  | .putVersionedHashesAtomicallyIfMarkerAbsent markerFields hashes, db =>
      db.runAll (versionedQueue marker markerFields (hashes.filter fun entry =>
        notNewer ((desiredVersion markerFields).getD 0) db entry.1))

end OnceCall

/-- Callers with one marker, one call each, among writers of other keys. -/
def onceCallers {ι : Type} [DecidableEq ι] (marker : String) (call : ι → OnceCall) :
    System (OnceOp ι) OnceOp.Reply RepositoryError Bool (OnceWorld ι) ι where
  exec := onceExec
  init w := w.server.db.has marker = false ∧ w.log = []
  starts i _ p := p = (call i).run i marker
  crash _ w := w
  env w w' := ∃ queue : List Command, (∀ c ∈ queue, c.key? ≠ some marker) ∧
    w' = { w with server := w.server.executeAll queue }
  allow _ _ _ _ := True

/-! ### Queues -/

section Queues

variable {db : Db} {marker : String}

theorem runAll_append (db : Db) (a b : List Command) :
    db.runAll (a ++ b) = (db.runAll a).runAll b := by
  simp [Db.runAll, List.foldl_append]

theorem runAll_hash_of_key?_ne {queue : List Command} {key : String}
    (h : ∀ c ∈ queue, c.key? ≠ some key) : (db.runAll queue).hash key = db.hash key := by
  induction queue generalizing db with
  | nil => rfl
  | cons c rest ih =>
      change ((c.run db).runAll rest).hash key = _
      rw [ih fun c' hc' => h c' (List.mem_cons_of_mem _ hc')]
      exact Command.run_hash_of_key?_ne (h c (by simp))

theorem has_union {fields : Fields} (base : Fields) (h : fields ≠ ∅) :
    (base ∪ fields).isEmpty = false := by
  rw [ExtTreeMap.isEmpty_eq_false_iff]
  intro hempty
  apply h
  rw [ExtTreeMap.eq_empty_iff_forall_not_mem] at hempty ⊢
  exact fun key hkey => hempty key (ExtTreeMap.mem_union_of_right hkey)

/-- The marker is part of every transaction. -/
theorem has_runAll_marker (db : Db) (marker : String) (queue : List Command) {fields : Fields}
    (h : fields ≠ ∅) :
    (db.runAll (queue ++ [.hmset marker fields])).has marker = true := by
  rw [runAll_append]
  change (((db.runAll queue).setHash marker _)).has marker = true
  rw [Db.has, Db.setHash_hash_self, has_union _ h]
  rfl

theorem has_effect {call : OnceCall} (h : call.markerFields ≠ ∅) :
    (call.effect marker db).has marker = true := by
  cases call with
  | replaceHashAndAppendEventOnce markerFields key fields stream event =>
      have := has_runAll_marker db marker
        (replaceHash key fields ++ [.xadd stream (eventFields event)]) h
      simpa [OnceCall.effect, OnceCall.markerFields] using this
  | appendEventOnce markerFields stream event =>
      exact has_runAll_marker db marker [.xadd stream (eventFields event)] h
  | incrementHashFieldsOnce markerFields key increments => exact has_runAll_marker _ _ _ h
  | recordApplyCountersOnce markerFields key increments latencyMs =>
      have := has_runAll_marker db marker (incrementAll key increments ++
        [.hmset key (latencyFields latencyMs ((recordedMaximum latencyMs
          (db.hash key)["max_apply_latency_ms"]?).getD latencyMs))]) h
      simpa [OnceCall.effect, OnceCall.markerFields, recordQueue] using this
  | putVersionedHashesAtomicallyIfMarkerAbsent markerFields hashes =>
      exact has_runAll_marker _ _ _ h

end Queues

/-! ### The contract of a caller -/

section Contract

variable {ι : Type} [DecidableEq ι]

/-- The numbers that a call parses before it does something. -/
def OnceCall.Accepts (db : Db) : OnceCall → Prop
  | .recordApplyCountersOnce _ key _ latencyMs =>
      (recordedMaximum latencyMs (db.hash key)["max_apply_latency_ms"]?).isSome
  | .putVersionedHashesAtomicallyIfMarkerAbsent markerFields hashes =>
      ∃ version, OnceCall.desiredVersion markerFields = some version ∧
        ∀ entry ∈ hashes, (publishes version (db.hash entry.1)["desired_version"]?).isSome ∧
          ∀ text, entry.2["desired_version"]? = some text → stoull text = some version
  | _ => True

def OnceEvent.isExecutionOf (i : ι) : OnceEvent ι → Bool
  | .executed j _ _ => decide (j = i)
  | .returned _ _ => false

def OnceEvent.isSuccessOf (i : ι) : OnceEvent ι → Bool
  | .executed _ _ _ => false
  | .returned j answer => decide (j = i) && answer

/-- What others may do between two steps of a caller. -/
structure OnceRely (marker : String) (i : ι) (s t : OnceWorld ι) : Prop where
  later : Server.Later s.server t.server
  watched : t.server.watched i = s.server.watched i
  marker : s.server.db.has marker = true → t.server.db.has marker = true
  executions : t.log.countP (OnceEvent.isExecutionOf i) = s.log.countP (OnceEvent.isExecutionOf i)
  successes : t.log.countP (OnceEvent.isSuccessOf i) = s.log.countP (OnceEvent.isSuccessOf i)

/-- A transaction is the whole effect of its call and finds no marker; an answer is true at most
as often as a transaction was executed, and false only if there is a marker. -/
def onceGuard (marker : String) (call : OnceCall) (i : ι) : OnceOp ι → OnceWorld ι → Prop
  | .connect j, _ => j = i
  | .watch j _, _ => j = i
  | .unwatch j, _ => j = i
  | .has _, _ => True
  | .hget _ _, _ => True
  | .exec j queue, w => j = i ∧ (w.server.clean i = true → w.server.db.has marker = false ∧
      w.server.db.runAll queue = call.effect marker w.server.db ∧ call.Accepts w.server.db)
  | .answer j true, w => j = i ∧
      w.log.countP (OnceEvent.isSuccessOf i) < w.log.countP (OnceEvent.isExecutionOf i)
  | .answer j false, w => j = i ∧ w.server.db.has marker = true

def onceContract (marker : String) (call : OnceCall) (i : ι) : Contract (OnceOp ι) (OnceWorld ι) where
  inv w := w.log.countP (OnceEvent.isSuccessOf i) ≤ w.log.countP (OnceEvent.isExecutionOf i)
  rely := OnceRely marker i
  guard := onceGuard marker call i
  allow _ _ _ := True
  refl _ := ⟨.refl _, rfl, id, rfl, rfl⟩
  trans h₁ h₂ := ⟨h₁.later.trans h₂.later, h₂.watched.trans h₁.watched,
    fun h => h₂.marker (h₁.marker h), h₂.executions.trans h₁.executions,
    h₂.successes.trans h₁.successes⟩

abbrev SafeOnce (marker : String) (call : OnceCall) (i : ι) {α : Type} (p : OnceProg ι α)
    (s : OnceWorld ι) : Prop :=
  Safe onceExec (onceContract marker call i) (fun _ _ => True) p s

variable {marker : String} {call : OnceCall} {i : ι} {α : Type} {s : OnceWorld ι}

theorem SafeOnce.throw {e : RepositoryError} : SafeOnce marker call i (.throw e : OnceProg ι α) s :=
  fun _ _ _ => trivial

theorem SafeOnce.hget {key field : String} {k : Option String → OnceProg ι α}
    (h : ∀ t, OnceRely marker i s t →
      SafeOnce marker call i (k (t.server.db.hash key)[field]?) t) :
    SafeOnce marker call i (once (.hget key field) >>= k) s :=
  fun t _ hst => ⟨trivial, fun _ _ => h t hst⟩

/-- Watching more keys. -/
theorem safe_watchAll {k : Unit → OnceProg ι α} {keys : List String} (watched : List String)
    (h : s.server.Watching i watched)
    (hk : ∀ t, t.server.Watching i (watched ++ keys) → SafeOnce marker call i (k ()) t) :
    SafeOnce marker call i (watchAll i keys >>= k) s := by
  induction keys generalizing s watched with
  | nil => exact hk s (by simpa using h)
  | cons key rest ih =>
      intro t _ hst
      refine ⟨rfl, fun c _ => ?_⟩
      have ht := h.later hst.later hst.watched
      refine ih (s := (onceExec (.watch i key) c t).2) (watched ++ [key]) ?_ ?_
      · intro key' hkey'
        simp only [onceExec, Server.watch, Server.setWatched, Function.update_self]
        rcases List.mem_append.mp hkey' with hkey' | hkey'
        · obtain ⟨stamp, hmem, hle⟩ := ht key' hkey'
          exact ⟨stamp, List.mem_append_left _ hmem, hle⟩
        · rw [List.mem_singleton.mp hkey']
          exact ⟨_, List.mem_append_right _ (List.mem_singleton.mpr rfl), Nat.le_refl _⟩
      · intro u hu
        exact hk u (by simpa using hu)

/-- A preparation that reads watched keys only. -/
def Prepares (marker : String) (call : OnceCall) (i : ι) (keys : List String)
    (prepare : OnceProg ι (List Command)) : Prop :=
  ∀ (k : List Command → OnceProg ι Bool) (s : OnceWorld ι), s.server.Watching i keys →
    (∀ t queue, OnceRely marker i s t → t.server.Held i (fun db =>
      db.runAll queue = call.effect marker db ∧ call.Accepts db) →
      SafeOnce marker call i (k queue) t) →
    SafeOnce marker call i (prepare >>= k) s

/-- A loop that was not executed leaves the tally alone; its answer is justified. -/
theorem safe_watchLoop {keys : List String} {exceeded : String}
    {prepare : OnceProg ι (List Command)} {k : Bool → OnceProg ι Bool}
    (hprepare : Prepares marker call i (marker :: keys) prepare)
    (hfalse : ∀ t : OnceWorld ι, t.server.db.has marker = true → SafeOnce marker call i (k false) t)
    (htrue : ∀ t : OnceWorld ι, t.log.countP (OnceEvent.isSuccessOf i) <
      t.log.countP (OnceEvent.isExecutionOf i) → SafeOnce marker call i (k true) t)
    (attempts : Nat) :
    SafeOnce marker call i (watchLoop i marker keys exceeded prepare attempts >>= k) s := by
  induction attempts generalizing s with
  | zero => exact SafeOnce.throw
  | succ attempts ih =>
      unfold watchLoop
      rw [Prog.bind_assoc']
      intro t _ _
      refine ⟨rfl, fun c _ => ?_⟩
      change SafeOnce marker call i ((watchAll i (marker :: keys) >>= _) >>= k) _
      rw [Prog.bind_assoc']
      refine safe_watchAll [] (fun _ h => absurd h (by simp)) fun u hu => ?_
      rw [Prog.bind_assoc']
      intro v _ huv
      refine ⟨trivial, fun c _ => ?_⟩
      have hv : v.server.Watching i (marker :: keys) := hu.later huv.later huv.watched
      by_cases hpresent : v.server.db.has marker = true
      · simp only [onceExec, hpresent]
        intro x _ hvx
        exact ⟨rfl, fun _ _ => hfalse _ (hvx.marker hpresent)⟩
      · have habsent : v.server.db.has marker = false := by simpa using hpresent
        have hheld : v.server.Held i fun db => db.has marker = false :=
          (hv.held (List.mem_cons_self : marker ∈ marker :: keys)).imp fun db hdb => by
            rw [Db.has, hdb]
            exact habsent
        simp only [onceExec, habsent]
        change SafeOnce marker call i ((prepare >>= _) >>= k) v
        rw [Prog.bind_assoc']
        refine hprepare _ v hv fun x queue hvx hqueue => ?_
        rw [Prog.bind_assoc']
        intro y hy hxy
        have hready := (hqueue.later hxy.later hxy.watched).and
          (hheld.later (hvx.later.trans hxy.later) (hxy.watched.trans hvx.watched))
        refine ⟨⟨rfl, fun hclean => ?_⟩, fun c _ => ?_⟩
        · obtain ⟨⟨heffect, haccepts⟩, hnone⟩ := hready y.server (.refl _) rfl hclean
          exact ⟨hnone, heffect, haccepts⟩
        · by_cases hclean : y.server.clean i = true
          · simp only [onceExec, hclean, if_true]
            refine htrue _ ?_
            have hle : y.log.countP (OnceEvent.isSuccessOf i) ≤
              y.log.countP (OnceEvent.isExecutionOf i) := hy
            simp [List.countP_append, OnceEvent.isSuccessOf, OnceEvent.isExecutionOf]
            omega
          · simp only [onceExec, hclean]
            exact ih

/-- A queue that does not depend on the database. -/
theorem prepares_pure {keys : List String} {queue : List Command}
    (heffect : ∀ db, db.runAll queue = call.effect marker db) (haccepts : ∀ db, call.Accepts db) :
    Prepares marker call i keys (.pure queue) :=
  fun _ s _ hk => hk s queue ((onceContract marker call i).refl s) fun t _ _ _ =>
    ⟨heffect t.db, haccepts t.db⟩

theorem prepares_record {markerFields : Fields} {key : String}
    {increments : ExtTreeMap String Int} {latencyMs : Int} :
    Prepares marker (.recordApplyCountersOnce markerFields key increments latencyMs) i [marker, key]
      (prepareRecord marker markerFields key increments latencyMs) := by
  intro k s hwatch hk
  unfold prepareRecord
  rw [Prog.bind_assoc']
  refine SafeOnce.hget fun t hst => ?_
  have hheld := (hwatch.later hst.later hst.watched).held (show key ∈ _ by simp)
  cases hmax : recordedMaximum latencyMs (t.server.db.hash key)["max_apply_latency_ms"]? with
  | none => exact SafeOnce.throw
  | some maximum =>
      refine hk t _ hst (hheld.imp fun db hdb => ⟨?_, ?_⟩)
      · simp only [OnceCall.effect, hdb, hmax, Option.getD_some]
      · simp only [OnceCall.Accepts, hdb, hmax, Option.isSome_some]

theorem safe_checkVersion {version : Nat} {fields : Fields} {k : Unit → OnceProg ι α}
    (hk : (∀ text, fields["desired_version"]? = some text → stoull text = some version) →
      SafeOnce marker call i (k ()) s) :
    SafeOnce marker call i (checkVersion i version fields >>= k) s := by
  unfold checkVersion
  cases htext : fields["desired_version"]? with
  | none => exact hk fun text h => by rw [htext] at h; cases h
  | some text =>
      dsimp only
      cases hversion : stoull text with
      | none => exact SafeOnce.throw
      | some v =>
          dsimp only
          split_ifs with hne
          · exact fun _ _ _ => ⟨rfl, fun _ _ => SafeOnce.throw⟩
          · refine hk fun text' h => ?_
            rw [htext, Option.some.injEq] at h
            rw [← h, hversion, not_not.mp hne]

/-- The targets that were looked at are published as the database at the execution wants it. -/
theorem safe_publishedHashes {version : Nat} {keys : List String}
    (seen : List (String × Fields)) {published rest : List (String × Fields)}
    {k : List (String × Fields) → OnceProg ι α} (hwatch : s.server.Watching i keys)
    (hkeys : ∀ entry ∈ rest, entry.1 ∈ keys)
    (hheld : s.server.Held i fun db =>
      published = seen.filter (fun entry => OnceCall.notNewer version db entry.1) ∧
      ∀ entry ∈ seen, (publishes version (db.hash entry.1)["desired_version"]?).isSome)
    (hseen : ∀ entry ∈ seen, ∀ text, entry.2["desired_version"]? = some text →
      stoull text = some version)
    (hk : ∀ t published, OnceRely marker i s t → t.server.Held i (fun db =>
        published = (seen ++ rest).filter (fun entry => OnceCall.notNewer version db entry.1) ∧
        ∀ entry ∈ seen ++ rest, (publishes version (db.hash entry.1)["desired_version"]?).isSome) →
      (∀ entry ∈ seen ++ rest, ∀ text, entry.2["desired_version"]? = some text →
        stoull text = some version) → SafeOnce marker call i (k published) t) :
    SafeOnce marker call i (publishedHashes i version published rest >>= k) s := by
  induction rest generalizing s seen published with
  | nil =>
      rw [List.append_nil] at hk
      exact hk s published ((onceContract marker call i).refl s) hheld hseen
  | cons entry rest ih =>
      obtain ⟨key, fields⟩ := entry
      unfold publishedHashes
      rw [Prog.bind_assoc']
      refine safe_checkVersion fun hversion => ?_
      rw [Prog.bind_assoc']
      refine SafeOnce.hget fun t hst => ?_
      have hwatch' := hwatch.later hst.later hst.watched
      have hold := (hheld.later hst.later hst.watched).and
        (hwatch'.held (hkeys (key, fields) (by simp)))
      have hseen' : ∀ entry ∈ seen ++ [(key, fields)], ∀ text,
          entry.2["desired_version"]? = some text → stoull text = some version := by
        intro entry hentry
        rcases List.mem_append.mp hentry with hentry | hentry
        · exact hseen entry hentry
        · rw [List.mem_singleton.mp hentry]
          exact hversion
      have hkeys' : ∀ entry ∈ rest, entry.1 ∈ keys := fun entry hentry =>
        hkeys entry (List.mem_cons_of_mem _ hentry)
      have hnext : ∀ flag published',
          publishes version (t.server.db.hash key)["desired_version"]? = some flag →
          (published' = published ++ if flag then [(key, fields)] else []) →
          SafeOnce marker call i (publishedHashes i version published' rest >>= k) t := by
        intro flag published' hflag hpublished
        refine ih (seen ++ [(key, fields)]) hwatch' hkeys' (hold.imp ?_) hseen' ?_
        · rintro db ⟨⟨hfilter, hsome⟩, hdb⟩
          have hnew : OnceCall.notNewer version db key = flag := by
            rw [OnceCall.notNewer, hdb, hflag, Option.getD_some]
          refine ⟨?_, fun entry hentry => ?_⟩
          · rw [hpublished, List.filter_append, ← hfilter]
            cases flag <;> simp [hnew]
          · rcases List.mem_append.mp hentry with hentry | hentry
            · exact hsome entry hentry
            · rw [List.mem_singleton.mp hentry, hdb, hflag]
              rfl
        · intro u published'' hu hheld' hseen''
          rw [List.append_assoc, List.singleton_append] at hheld' hseen''
          exact hk u published'' ((onceContract marker call i).trans hst hu) hheld' hseen''
      cases hflag : publishes version (t.server.db.hash key)["desired_version"]? with
      | none => exact SafeOnce.throw
      | some flag =>
          cases flag with
          | true => exact hnext true _ hflag rfl
          | false => exact hnext false published hflag (by simp)

theorem prepares_versioned {markerFields : Fields} {hashes : List (String × Fields)}
    {version : Nat} (hversion : OnceCall.desiredVersion markerFields = some version) :
    Prepares marker (.putVersionedHashesAtomicallyIfMarkerAbsent markerFields hashes) i
      (marker :: hashes.map (·.1)) (prepareVersioned i marker markerFields version hashes) := by
  intro k s hwatch hk
  unfold prepareVersioned
  rw [Prog.bind_assoc']
  refine safe_publishedHashes [] hwatch
    (fun entry hentry => List.mem_cons_of_mem _ (List.mem_map_of_mem hentry))
    (fun _ _ _ _ => ⟨rfl, by simp⟩) (by simp) fun t published hst hheld htexts => ?_
  refine hk t _ hst (hheld.imp ?_)
  rintro db ⟨hfilter, hsome⟩
  refine ⟨?_, version, hversion, fun entry hentry => ⟨hsome entry hentry, htexts entry hentry⟩⟩
  simp only [OnceCall.effect, hversion, Option.getD_some, hfilter, List.nil_append]

theorem safe_run : SafeOnce marker call i (call.run i marker) s := by
  have hfalse : ∀ t : OnceWorld ι, t.server.db.has marker = true →
      SafeOnce marker call i (once (.answer i false) >>= fun _ => .pure false) t :=
    fun t ht => fun u _ htu => ⟨⟨rfl, htu.marker ht⟩, fun _ _ _ _ _ => trivial⟩
  have htrue : ∀ t : OnceWorld ι, t.log.countP (OnceEvent.isSuccessOf i) <
      t.log.countP (OnceEvent.isExecutionOf i) →
      SafeOnce marker call i (once (.answer i true) >>= fun _ => .pure true) t := by
    intro t ht u _ htu
    refine ⟨⟨rfl, ?_⟩, fun _ _ _ _ _ => trivial⟩
    rw [htu.successes, htu.executions]
    exact ht
  unfold OnceCall.run
  cases call with
  | replaceHashAndAppendEventOnce markerFields key fields stream event =>
      unfold OnceCall.program replaceHashAndAppendEventOnce
      dsimp only
      split
      · exact SafeOnce.throw
      · apply safe_watchLoop (prepares_pure ?_ ?_) hfalse htrue
        · exact fun _ => rfl
        · exact fun _ => trivial
  | appendEventOnce markerFields stream event =>
      unfold OnceCall.program appendEventOnce
      dsimp only
      split
      · exact SafeOnce.throw
      · apply safe_watchLoop (prepares_pure ?_ ?_) hfalse htrue
        · exact fun _ => rfl
        · exact fun _ => trivial
  | incrementHashFieldsOnce markerFields key increments =>
      apply safe_watchLoop (prepares_pure ?_ ?_) hfalse htrue
      · exact fun _ => rfl
      · exact fun _ => trivial
  | recordApplyCountersOnce markerFields key increments latencyMs =>
      unfold OnceCall.program recordApplyCountersOnce
      dsimp only
      split_ifs
      · exact SafeOnce.throw
      · exact safe_watchLoop prepares_record hfalse htrue _
  | putVersionedHashesAtomicallyIfMarkerAbsent markerFields hashes =>
      unfold OnceCall.program putVersionedHashesAtomicallyIfMarkerAbsent
      dsimp only
      split
      · exact SafeOnce.throw
      · rename_i text htext
        split
        · exact SafeOnce.throw
        · rename_i version hversion
          refine safe_watchLoop (prepares_versioned ?_) hfalse htrue _
          simp [OnceCall.desiredVersion, htext, hversion]

end Contract

/-! ### Every run -/

section Logs

variable {ι : Type}

def OnceEvent.execution? : OnceEvent ι → Option (ι × Db × Db)
  | .executed i before after => some (i, before, after)
  | .returned _ _ => none

/-- The executed transactions, with the databases before and after. -/
def executions (log : List (OnceEvent ι)) : List (ι × Db × Db) :=
  log.filterMap OnceEvent.execution?

def OnceEvent.answer? : OnceEvent ι → Option (ι × Bool)
  | .executed _ _ _ => none
  | .returned i answer => some (i, answer)

/-- The answers so far. -/
def answers (log : List (OnceEvent ι)) : List (ι × Bool) := log.filterMap OnceEvent.answer?

theorem executions_returned (log : List (OnceEvent ι)) (i : ι) (answer : Bool) :
    executions (log ++ [.returned i answer]) = executions log := by
  simp [executions, List.filterMap_append, OnceEvent.execution?]

theorem executions_executed (log : List (OnceEvent ι)) (i : ι) (before after : Db) :
    executions (log ++ [.executed i before after]) = executions log ++ [(i, before, after)] := by
  simp [executions, List.filterMap_append, OnceEvent.execution?]

theorem answers_returned (log : List (OnceEvent ι)) (i : ι) (answer : Bool) :
    answers (log ++ [.returned i answer]) = answers log ++ [(i, answer)] := by
  simp [answers, List.filterMap_append, OnceEvent.answer?]

theorem mem_answers {log : List (OnceEvent ι)} {i : ι} {answer : Bool} :
    (i, answer) ∈ answers log ↔ .returned i answer ∈ log := by
  unfold answers
  rw [List.mem_filterMap]
  constructor
  · rintro ⟨event, hevent, heq⟩
    cases event with
    | executed j before after => cases heq
    | returned j b =>
        simp only [OnceEvent.answer?, Option.some.injEq, Prod.mk.injEq] at heq
        rw [← heq.1, ← heq.2]
        exact hevent
  · exact fun h => ⟨_, h, rfl⟩

theorem mem_executions {log : List (OnceEvent ι)} {i : ι} {before after : Db} :
    (i, before, after) ∈ executions log ↔ .executed i before after ∈ log := by
  unfold executions
  rw [List.mem_filterMap]
  constructor
  · rintro ⟨event, hevent, heq⟩
    cases event with
    | executed j b a =>
        simp only [OnceEvent.execution?, Option.some.injEq, Prod.mk.injEq] at heq
        rw [← heq.1, ← heq.2.1, ← heq.2.2]
        exact hevent
    | returned j b => cases heq
  · exact fun h => ⟨_, h, rfl⟩

/-- The callers that were told yes. -/
def successes (log : List (OnceEvent ι)) : List (ι × Bool) := (answers log).filter (·.2)

end Logs

section Runs

variable {ι : Type} [DecidableEq ι] {marker : String} {call : ι → OnceCall}

structure OnceInv (marker : String) (call : ι → OnceCall) (w : OnceWorld ι) : Prop where
  single : (executions w.log).length ≤ 1
  marked : w.server.db.has marker = true ↔ executions w.log ≠ []
  atomic : ∀ e ∈ executions w.log, e.2.1.has marker = false ∧ e.2.2.has marker = true ∧
    e.2.2 = (call e.1).effect marker e.2.1 ∧ (call e.1).Accepts e.2.1
  refused : ∀ i, (i, false) ∈ answers w.log → w.server.db.has marker = true
  granted : ∀ i, w.log.countP (OnceEvent.isSuccessOf i) ≤ w.log.countP (OnceEvent.isExecutionOf i)

/-- A world with the same log and marker. -/
theorem OnceInv.same {w w' : OnceWorld ι} (h : OnceInv marker call w) (hlog : w'.log = w.log)
    (hmarker : w'.server.db.has marker = w.server.db.has marker) : OnceInv marker call w' := by
  refine ⟨?_, ?_, ?_, ?_, ?_⟩
  · rw [hlog]
    exact h.single
  · rw [hlog, hmarker]
    exact h.marked
  · rw [hlog]
    exact h.atomic
  · rw [hlog, hmarker]
    exact h.refused
  · rw [hlog]
    exact h.granted

theorem OnceInv.execute {w : OnceWorld ι} (h : OnceInv marker call w) {i : ι}
    {queue : List Command} (hfields : (call i).markerFields ≠ ∅)
    (hnone : w.server.db.has marker = false)
    (heffect : w.server.db.runAll queue = (call i).effect marker w.server.db)
    (haccepts : (call i).Accepts w.server.db) :
    OnceInv marker call {
      server := (w.server.executeAll queue).setWatched i []
      log := w.log ++ [.executed i w.server.db (w.server.db.runAll queue)] } := by
  have hempty : executions w.log = [] := by
    by_contra hne
    rw [h.marked.mpr hne] at hnone
    cases hnone
  have hdb : ((w.server.executeAll queue).setWatched i []).db.has marker = true := by
    change (w.server.executeAll queue).db.has marker = true
    rw [Server.executeAll_db, heffect]
    exact has_effect hfields
  refine ⟨?_, ?_, fun e he => ?_, fun j hj => ?_, fun j => ?_⟩
  · rw [executions_executed, hempty]
    exact Nat.le_refl 1
  · rw [executions_executed, hempty]
    simpa using hdb
  · rw [executions_executed, hempty, List.nil_append, List.mem_singleton] at he
    subst he
    exact ⟨hnone, by rw [heffect]; exact has_effect hfields, heffect, haccepts⟩
  · exact hdb
  · have hle := h.granted j
    simp only [List.countP_append, List.countP_singleton, OnceEvent.isSuccessOf,
      OnceEvent.isExecutionOf]
    simp only [Bool.false_eq_true, if_false]
    omega

/-- The connection of one caller is nothing to the others. -/
theorem onceRely_setWatched {w : OnceWorld ι} {j k : ι} (hk : k ≠ j) (keys : List (String × Nat)) :
    OnceRely marker k w { w with server := w.server.setWatched j keys } :=
  ⟨⟨fun _ => Nat.le_refl _, fun _ _ => rfl⟩, Function.update_of_ne hk _ _, id, rfl, rfl⟩

theorem onceCallers_verified (hfields : ∀ i, (call i).markerFields ≠ ∅) :
    Verified (onceCallers marker call) (OnceInv marker call)
      (fun i => onceContract marker (call i) i) (fun _ _ _ _ => True) where
  inv i _ h := h.granted i
  allow _ _ _ _ _ := trivial
  init := by
    rintro w ⟨hnone, hlog⟩
    refine ⟨?_, ?_, ?_, ?_, ?_⟩ <;> simp [hlog, executions, answers, hnone]
  starts := by
    rintro i s _ _ rfl
    exact safe_run
  call := by
    intro i o c w h hguard _
    cases o with
    | connect j =>
        cases hguard
        exact ⟨h.same rfl rfl, fun k hk => onceRely_setWatched hk _⟩
    | watch j key =>
        cases hguard
        exact ⟨h.same rfl rfl, fun k hk => onceRely_setWatched hk _⟩
    | unwatch j =>
        cases hguard
        exact ⟨h.same rfl rfl, fun k hk => onceRely_setWatched hk _⟩
    | has key => exact ⟨h, fun k _ => (onceContract marker (call k) k).refl w⟩
    | hget key field => exact ⟨h, fun k _ => (onceContract marker (call k) k).refl w⟩
    | exec j queue =>
        obtain ⟨rfl, hready⟩ := hguard
        by_cases hclean : w.server.clean j = true
        · obtain ⟨hnone, heffect, haccepts⟩ := hready hclean
          simp only [onceCallers, onceExec, hclean, if_true]
          refine ⟨h.execute (hfields j) hnone heffect haccepts, fun k hk => ?_⟩
          have hlater := Server.later_executeAll w.server queue
          refine ⟨⟨hlater.stamps, hlater.same⟩, ?_, fun hm => ?_, ?_, ?_⟩
          · simp only [Server.setWatched, Function.update_of_ne hk, Server.executeAll_watched]
          · rw [hnone] at hm
            cases hm
          · simp [List.countP_append, OnceEvent.isExecutionOf, hk.symm]
          · simp [List.countP_append, OnceEvent.isSuccessOf]
        · simp only [onceCallers, onceExec, hclean]
          exact ⟨h.same rfl rfl, fun k hk => onceRely_setWatched hk _⟩
    | answer j b =>
        have hj : j = i := by cases b <;> exact hguard.1
        subst hj
        refine ⟨⟨?_, ?_, ?_, fun k hk => ?_, fun k => ?_⟩, fun k hk =>
          ⟨.refl _, rfl, id, ?_, ?_⟩⟩
        · simp only [onceCallers, onceExec, executions_returned]
          exact h.single
        · simp only [onceCallers, onceExec, executions_returned]
          exact h.marked
        · simp only [onceCallers, onceExec, executions_returned]
          exact h.atomic
        · simp only [onceCallers, onceExec, answers_returned] at hk
          rcases List.mem_append.mp hk with hk | hk
          · exact h.refused k hk
          · simp only [List.mem_singleton, Prod.mk.injEq] at hk
            rw [← hk.2] at hguard
            exact hguard.2
        · have hle := h.granted k
          simp only [onceCallers, onceExec, List.countP_append, List.countP_singleton,
            OnceEvent.isSuccessOf, OnceEvent.isExecutionOf]
          by_cases hk : j = k
          · subst hk
            cases b with
            | true =>
                have hlt := hguard.2
                simp
                omega
            | false => simpa using hle
          · simpa [hk] using hle
        · simp [onceCallers, onceExec, List.countP_append, OnceEvent.isExecutionOf]
        · simp [onceCallers, onceExec, List.countP_append, OnceEvent.isSuccessOf, hk.symm]
  crash i w h _ := ⟨h, fun k _ => (onceContract marker (call k) k).refl w⟩
  env := by
    rintro w _ h ⟨queue, hqueue, rfl⟩
    have hmarker : (w.server.executeAll queue).db.has marker = w.server.db.has marker := by
      rw [Db.has, Db.has, Server.executeAll_db, runAll_hash_of_key?_ne hqueue]
    refine ⟨h.same rfl hmarker, fun k => ⟨Server.later_executeAll _ _, ?_, fun hm => ?_, rfl, rfl⟩⟩
    · rw [Server.executeAll_watched]
    · rw [hmarker]
      exact hm

/-! ### What the transactions write -/

/-- The version that a key holds. -/
def heldVersion (db : Db) (key : String) : Option Nat := do
  let text ← (db.hash key)["desired_version"]?
  stoull text

/-- What a list of targets says last about a key. -/
def lastFields (hashes : List (String × Fields)) (key : String) : Option Fields :=
  (hashes.reverse.find? fun entry => entry.1 = key).map (·.2)

/-- Targets with a newer version are skipped, the others are replaced, and no version gets
older. -/
structure VersionsKept (markerFields : Fields) (hashes : List (String × Fields))
    (marker : String) (before after : Db) (version : Nat) : Prop where
  desired : OnceCall.desiredVersion markerFields = some version
  skipped : ∀ key held, heldVersion before key = some held → version < held →
    after.hash key = before.hash key
  published : ∀ key, key ≠ marker → (∀ held, heldVersion before key = some held → held ≤ version) →
    after.hash key = (lastFields hashes key).getD (before.hash key)
  kept : ∀ key held held', heldVersion before key = some held →
    heldVersion after key = some held' → held ≤ held'

/-- The recorded maximum does not get smaller. -/
def MaximumKept (key : String) (before after : Db) : Prop :=
  ∀ text maximum, (before.hash key)["max_apply_latency_ms"]? = some text →
    stoll text = some maximum → ∃ maximum', maximum ≤ maximum' ∧
      (after.hash key)["max_apply_latency_ms"]? = some (toString maximum')

/-- What is promised of the versions and of the maximum. -/
def OnceCall.Kept (marker : String) (before after : Db) : OnceCall → Prop
  | .recordApplyCountersOnce _ key _ _ => MaximumKept key before after
  | .putVersionedHashesAtomicallyIfMarkerAbsent markerFields hashes =>
      ∃ version, VersionsKept markerFields hashes marker before after version
  | _ => True

theorem runAll_replaceHash (db : Db) (key : String) (fields : Fields) :
    db.runAll (replaceHash key fields) = db.setHash key fields := by
  unfold replaceHash
  split_ifs with hempty
  · rw [ExtTreeMap.isEmpty_iff] at hempty
    subst hempty
    rfl
  · have hunion : (∅ : Fields) ∪ fields = fields := by
      ext key value
      rw [ExtTreeMap.getElem?_union]
      simp
    simp only [Db.runAll, List.foldl_cons, List.foldl_nil, Command.run, Db.setHash_hash_self, hunion]
    simp [Db.setHash]

theorem lastFields_cons (entry : String × Fields) (rest : List (String × Fields)) (key : String) :
    lastFields (entry :: rest) key =
      (lastFields rest key).or (if entry.1 = key then some entry.2 else none) := by
  unfold lastFields
  rw [List.reverse_cons, List.find?_append]
  cases rest.reverse.find? fun entry => decide (entry.1 = key) with
  | some found => simp
  | none => by_cases h : entry.1 = key <;> simp [h]

theorem runAll_replaceHashes (db : Db) (hashes : List (String × Fields)) (key : String) :
    (db.runAll (hashes.flatMap fun entry => replaceHash entry.1 entry.2)).hash key =
      (lastFields hashes key).getD (db.hash key) := by
  induction hashes generalizing db with
  | nil => rfl
  | cons entry rest ih =>
      rw [List.flatMap_cons, runAll_append, ih, runAll_replaceHash, lastFields_cons]
      cases lastFields rest key with
      | some fields => simp
      | none =>
          by_cases h : entry.1 = key
          · subst h
            simp [Db.setHash_hash_self]
          · simp [h, Db.setHash_hash_of_ne db entry.2 (Ne.symm h)]

/-- A filter by key leaves what is said last about a key, or nothing of it. -/
theorem lastFields_filter (hashes : List (String × Fields)) (keep : String → Bool) (key : String) :
    lastFields (hashes.filter fun entry => keep entry.1) key =
      if keep key then lastFields hashes key else none := by
  induction hashes with
  | nil => simp [lastFields]
  | cons entry rest ih =>
      rw [lastFields_cons]
      by_cases hkeep : keep entry.1 = true
      · rw [List.filter_cons_of_pos (p := fun e : String × Fields => keep e.1) hkeep, lastFields_cons, ih]
        by_cases heq : entry.1 = key
        · subst heq
          simp [hkeep]
        · by_cases hk : keep key = true <;> simp [heq, hk]
      · rw [List.filter_cons_of_neg (p := fun e : String × Fields => keep e.1) hkeep, ih]
        by_cases heq : entry.1 = key
        · subst heq
          simp [hkeep]
        · by_cases hk : keep key = true <;> simp [heq, hk]

theorem mem_of_lastFields {hashes : List (String × Fields)} {key : String} {fields : Fields}
    (h : lastFields hashes key = some fields) : (key, fields) ∈ hashes := by
  unfold lastFields at h
  obtain ⟨⟨key', fields'⟩, hfind, rfl⟩ := Option.map_eq_some_iff.mp h
  have hkey : key' = key := by simpa using List.find?_some hfind
  subst hkey
  exact List.mem_reverse.mp (List.mem_of_find?_eq_some hfind)

theorem heldVersion_eq_none {db : Db} {key : String} (h : db.has key = false) :
    heldVersion db key = none := by
  have hempty : db.hash key = ∅ := by simpa [Db.has] using h
  simp [heldVersion, hempty]

theorem notNewer_eq_false {db : Db} {key : String} {version held : Nat}
    (hheld : heldVersion db key = some held) (hlt : version < held) :
    OnceCall.notNewer version db key = false := by
  unfold heldVersion at hheld
  obtain ⟨text, htext, hparse⟩ := Option.bind_eq_some_iff.mp hheld
  simp [OnceCall.notNewer, publishes, htext, hparse, hlt]

theorem notNewer_eq_true {db : Db} {key : String} {version : Nat}
    (hsome : (publishes version (db.hash key)["desired_version"]?).isSome)
    (hle : ∀ held, heldVersion db key = some held → held ≤ version) :
    OnceCall.notNewer version db key = true := by
  cases htext : (db.hash key)["desired_version"]? with
  | none => simp [OnceCall.notNewer, publishes, htext]
  | some text =>
      rw [htext] at hsome
      cases hparse : stoull text with
      | none => simp [publishes, hparse] at hsome
      | some held =>
          have hheld : heldVersion db key = some held := by simp [heldVersion, htext, hparse]
          simp [OnceCall.notNewer, publishes, htext, hparse, hle held hheld]

theorem versionsKept_effect {markerFields : Fields} {hashes : List (String × Fields)} {db : Db}
    (hnone : db.has marker = false)
    (haccepts : (OnceCall.putVersionedHashesAtomicallyIfMarkerAbsent markerFields hashes).Accepts
      db) :
    ∃ version, VersionsKept markerFields hashes marker db
      ((OnceCall.putVersionedHashesAtomicallyIfMarkerAbsent markerFields hashes).effect marker db)
      version := by
  obtain ⟨version, hversion, hall⟩ := haccepts
  have hhash : ∀ key, key ≠ marker →
      ((OnceCall.putVersionedHashesAtomicallyIfMarkerAbsent markerFields hashes).effect marker
        db).hash key = (if OnceCall.notNewer version db key then lastFields hashes key
          else none).getD (db.hash key) := by
    intro key hkey
    simp only [OnceCall.effect, hversion, Option.getD_some, versionedQueue]
    rw [runAll_append, runAll_hash_of_key?_ne (by simpa [Command.key?] using hkey.symm),
      runAll_replaceHashes, lastFields_filter hashes (OnceCall.notNewer version db)]
  have hmarker : ∀ key held, heldVersion db key = some held → key ≠ marker := by
    rintro key held hheld rfl
    rw [heldVersion_eq_none hnone] at hheld
    cases hheld
  have hskipped : ∀ key held, heldVersion db key = some held → version < held →
      ((OnceCall.putVersionedHashesAtomicallyIfMarkerAbsent markerFields hashes).effect marker
        db).hash key = db.hash key := by
    intro key held hheld hlt
    rw [hhash key (hmarker key held hheld), notNewer_eq_false hheld hlt]
    rfl
  have hpublished : ∀ key, key ≠ marker →
      (∀ held, heldVersion db key = some held → held ≤ version) →
      ((OnceCall.putVersionedHashesAtomicallyIfMarkerAbsent markerFields hashes).effect marker
        db).hash key = (lastFields hashes key).getD (db.hash key) := by
    intro key hkey hle
    rw [hhash key hkey]
    cases hlast : lastFields hashes key with
    | none => simp
    | some fields =>
        rw [notNewer_eq_true (hall _ (mem_of_lastFields hlast)).1 hle]
        rfl
  refine ⟨version, hversion, hskipped, hpublished, fun key held held' hheld hheld' => ?_⟩
  by_cases hlt : version < held
  · unfold heldVersion at hheld hheld'
    rw [hskipped key held hheld hlt, hheld] at hheld'
    exact Nat.le_of_eq (Option.some.inj hheld')
  · have hle : ∀ other, heldVersion db key = some other → other ≤ version := by
      intro other hother
      rw [hheld] at hother
      cases hother
      omega
    have hafter := hpublished key (hmarker key held hheld) hle
    unfold heldVersion at hheld hheld'
    rw [hafter] at hheld'
    cases hlast : lastFields hashes key with
    | none =>
        rw [hlast, Option.getD_none, hheld] at hheld'
        exact Nat.le_of_eq (Option.some.inj hheld')
    | some fields =>
        rw [hlast, Option.getD_some] at hheld'
        obtain ⟨text, htext, hparse⟩ := Option.bind_eq_some_iff.mp hheld'
        have hsame := (hall _ (mem_of_lastFields hlast)).2 text htext
        rw [hparse, Option.some.injEq] at hsame
        omega

theorem maximumKept_effect {markerFields : Fields} {key : String}
    {increments : ExtTreeMap String Int} {latencyMs : Int} {db : Db}
    (hnone : db.has marker = false) :
    MaximumKept key db
      ((OnceCall.recordApplyCountersOnce markerFields key increments latencyMs).effect marker
        db) := by
  intro text maximum htext hparse
  have hkey : key ≠ marker := by
    rintro rfl
    have hempty : db.hash key = ∅ := by simpa [Db.has] using hnone
    simp [hempty] at htext
  refine ⟨max latencyMs maximum, Int.le_max_right _ _, ?_⟩
  simp only [OnceCall.effect, htext, recordedMaximum, hparse, Option.map_some, Option.getD_some,
    recordQueue]
  rw [← List.singleton_append, ← List.append_assoc, runAll_append,
    runAll_hash_of_key?_ne (by simpa [Command.key?] using hkey.symm), runAll_append]
  simp only [Db.runAll, List.foldl_cons, List.foldl_nil, Command.run, Db.setHash_hash_self]
  rw [ExtTreeMap.getElem?_union]
  simp [latencyFields]

theorem kept_effect {c : OnceCall} {db : Db} (hnone : db.has marker = false)
    (haccepts : c.Accepts db) : c.Kept marker db (c.effect marker db) := by
  cases c with
  | recordApplyCountersOnce markerFields key increments latencyMs =>
      exact maximumKept_effect hnone
  | putVersionedHashesAtomicallyIfMarkerAbsent markerFields hashes =>
      exact versionsKept_effect hnone haccepts
  | _ => trivial

/-! ### Answers -/

theorem OnceInv.executed_of_success {w : OnceWorld ι} (h : OnceInv marker call w) {i : ι}
    (hi : (i, true) ∈ answers w.log) : ∃ e ∈ executions w.log, e.1 = i := by
  have hpos : 0 < w.log.countP (OnceEvent.isSuccessOf i) :=
    List.countP_pos_iff.mpr ⟨_, mem_answers.mp hi, by simp [OnceEvent.isSuccessOf]⟩
  obtain ⟨event, hevent, hexec⟩ := List.countP_pos_iff.mp (Nat.lt_of_lt_of_le hpos (h.granted i))
  cases event with
  | executed j before after =>
      have hj : j = i := by simpa [OnceEvent.isExecutionOf] using hexec
      exact ⟨(j, before, after), mem_executions.mpr hevent, hj⟩
  | returned j b => cases hexec

theorem length_successes {log : List (OnceEvent ι)} {i : ι}
    (hall : ∀ j, (j, true) ∈ answers log → j = i) :
    (successes log).length = log.countP (OnceEvent.isSuccessOf i) := by
  induction log with
  | nil => rfl
  | cons event rest ih =>
      have hrest : ∀ j, (j, true) ∈ answers rest → j = i := fun j hj =>
        hall j (mem_answers.mpr (List.mem_cons_of_mem _ (mem_answers.mp hj)))
      cases event with
      | executed j before after =>
          rw [List.countP_cons_of_neg (by simp [OnceEvent.isSuccessOf]), ← ih hrest]
          rfl
      | returned j b =>
          cases b with
          | false =>
              rw [List.countP_cons_of_neg (by simp [OnceEvent.isSuccessOf]), ← ih hrest]
              rfl
          | true =>
              have hj : j = i := hall j (mem_answers.mpr (by simp))
              rw [List.countP_cons_of_pos (by simp [OnceEvent.isSuccessOf, hj]), ← ih hrest]
              rfl

theorem length_executions {log : List (OnceEvent ι)} {i : ι} :
    log.countP (OnceEvent.isExecutionOf i) ≤ (executions log).length := by
  induction log with
  | nil => exact Nat.le_refl 0
  | cons event rest ih =>
      cases event with
      | executed j before after =>
          rw [List.countP_cons]
          change _ ≤ (executions rest).length + 1
          split_ifs <;> omega
      | returned j b =>
          rw [List.countP_cons_of_neg (by simp [OnceEvent.isExecutionOf])]
          exact ih

theorem OnceInv.success_unique {w : OnceWorld ι} (h : OnceInv marker call w) :
    (successes w.log).length ≤ 1 := by
  cases hs : successes w.log with
  | nil => simp
  | cons first rest =>
      obtain ⟨i, b⟩ := first
      have hmem : (i, b) ∈ successes w.log := by simp [hs]
      have hb : b = true := by simpa using (List.mem_filter.mp hmem).2
      subst hb
      obtain ⟨e, he, hei⟩ := h.executed_of_success (List.mem_filter.mp hmem).1
      have hall : ∀ j, (j, true) ∈ answers w.log → j = i := by
        intro j hj
        obtain ⟨e', he', hej⟩ := h.executed_of_success hj
        have hone : ∃ x, executions w.log = [x] := by
          have hle := h.single
          match hx : executions w.log, hle with
          | [], _ =>
              rw [hx] at he
              cases he
          | [x], _ => exact ⟨x, rfl⟩
        obtain ⟨x, hx⟩ := hone
        rw [hx, List.mem_singleton] at he he'
        rw [← hej, ← hei, he, he']
      rw [← hs, length_successes hall]
      exact Nat.le_trans (h.granted i) (Nat.le_trans length_executions h.single)

end Runs

/-! ### Two publications of one version -/

def versionOne : Fields := (∅ : Fields).insert "desired_version" "1"

/-- A fence that is already newer, and a fresh connection. -/
def fenced : Db := ({} : Db).setHash "a" ((∅ : Fields).insert "desired_version" "2")

def rivalCalls : Bool → OnceCall
  | true => .putVersionedHashesAtomicallyIfMarkerAbsent versionOne
      [("a", versionOne), ("b", versionOne)]
  | false => .incrementHashFieldsOnce versionOne "counters"
      ((∅ : ExtTreeMap String Int).insert "active" 1)

def afterCall (i : Bool) (w : OnceWorld Bool) : OnceWorld Bool :=
  (((rivalCalls i).run i "marker").run onceExec (List.replicate 12 0) w).2

/-- The first caller publishes, the second finds the marker. -/
def rivalsDone : OnceWorld Bool := afterCall false (afterCall true { server := { db := fenced } })

theorem rivalsDone_reachable :
    Reachable (onceCallers "marker" rivalCalls) ⟨rivalsDone, fun _ => none⟩ := by
  have hinit : Reachable (onceCallers "marker" rivalCalls)
      ⟨{ server := { db := fenced } }, fun _ => none⟩ := .init ⟨by decide +kernel, rfl⟩
  have hall : ∀ i (p : OnceProg Bool Bool) w, p.along onceExec
      ((onceCallers "marker" rivalCalls).allow i) (List.replicate 12 0) w :=
    fun i p w => Prog.along_of_forall (fun _ _ _ => trivial) p _ w
  have hfirst := hinit.cut (i := true) rfl rfl _ (hall true _ _) trivial
  exact hfirst.cut (i := false) rfl rfl _ (hall false _ _) trivial

end MiniOcs.Redis
