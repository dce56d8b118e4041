import MiniOcs.Gnmi.CandidateSemantics
import MiniOcs.Gnmi.GetRepository
import MiniOcs.Gnmi.Linearizable

/-!
# A Set read back

What a read of a connection config path returns after a Set wrote the connection, as long as no
other Set writes it.
-/
namespace MiniOcs.Gnmi
open Std Concurrent KeyedFold
open PathParser (PathKind)

/-! ## The ports that were set -/

def OperationValues.port (values : OperationValues) : PortDirection → Option Nat
  | .input => values.inputPort
  | .output => values.outputPort

def MutableConnection.port (m : MutableConnection) : PortDirection → Option Nat
  | .input => m.inputPort
  | .output => m.outputPort

def ConnectionConfig.port (config : ConnectionConfig) : PortDirection → Nat
  | .input => config.inputPort
  | .output => config.outputPort

def portField : PortDirection → String
  | .input => "input-port"
  | .output => "output-port"

/-- The port that one operation leaves set. -/
def setPort (direction : PortDirection) (port : Option Nat) (operation : SetOperation) : Option Nat :=
  match operation.kind with
  | .delete => none
  | _ => (operation.values.port direction).or port

/-- The last port that the operations give a connection, after its last deletion. -/
def portSet (direction : PortDirection) (id : String) (operations : List SetOperation) : Option Nat :=
  (ofKey operationId id operations).foldl (setPort direction) none

theorem port_draftStep {current : Dict String ConnectionConfig} {timestampNs : Nat}
    {direction : PortDirection} {operation : SetOperation} {draft : Option MutableConnection}
    {port : Option Nat} (hcomplete : operation.kind = .replace →
      operation.values.inputPort.isSome ∧ operation.values.outputPort.isSome)
    (h : ∀ p, port = some p → draft.bind (·.port direction) = some p) (p : Nat)
    (hp : setPort direction port operation = some p) :
    (draftStep current timestampNs operation draft).bind (·.port direction) = some p := by
  unfold setPort at hp
  unfold draftStep
  cases hkind : operation.kind with
  | delete => rw [hkind] at hp; cases hp
  | replace =>
      rw [hkind] at hp
      obtain ⟨hi, ho⟩ := hcomplete hkind
      obtain ⟨inputPort, hi⟩ := Option.isSome_iff_exists.mp hi
      obtain ⟨outputPort, ho⟩ := Option.isSome_iff_exists.mp ho
      cases direction <;> simpa [OperationValues.port, MutableConnection.port, hi, ho] using hp
  | update =>
      rw [hkind] at hp
      have hupdate : ∀ m : MutableConnection, (m.update operation.values).port direction =
          (operation.values.port direction).or (m.port direction) := by
        intro m
        cases direction <;> rfl
      simp only [Option.bind_some, hupdate]
      cases hvalue : operation.values.port direction with
      | some q =>
          rw [hvalue] at hp
          simpa using hp
      | none =>
          rw [hvalue, Option.none_or] at hp
          obtain ⟨m, rfl, hm⟩ := Option.bind_eq_some_iff.mp (h p hp)
          simpa using hm

theorem port_finalDrafts (current : Dict String ConnectionConfig) (timestampNs : Nat)
    {operations : List SetOperation} (hcomplete : CompleteReplacements operations)
    {direction : PortDirection} {id : String} {p : Nat}
    (hp : portSet direction id operations = some p) :
    (finalDrafts current timestampNs operations id).bind (·.port direction) = some p := by
  rw [finalDrafts, run_at]
  unfold portSet at hp
  have hown : ∀ operation ∈ ofKey operationId id operations, operation.kind = .replace →
      operation.values.inputPort.isSome ∧ operation.values.outputPort.isSome :=
    fun operation hmem => hcomplete operation (List.mem_filter.mp hmem).1
  generalize ofKey operationId id operations = ops at hp hown
  generalize hdraft : currentDrafts current id = draft
  have hstart : ∀ q, (none : Option Nat) = some q → draft.bind (·.port direction) = some q := by
    intro q hq
    cases hq
  clear hdraft
  generalize (none : Option Nat) = port at hp hstart
  induction ops generalizing draft port with
  | nil => exact hstart p hp
  | cons operation ops ih =>
      refine ih (fun op hop => hown op (by simp [hop])) _ _ hp ?_
      exact port_draftStep (hown operation (by simp)) hstart

/-! ## Reading it back -/

/-- A read of the connection config path returns the id, the device, the ports that the
operations gave it and the revision. -/
def ReadsBack (device id : String) (operations : List SetOperation) (revision : Nat)
    (requestType : RequestType) (state : Redis.Fields) (db : ConfigDb) : Prop :=
  ∃ item, getConnection device id .connectionConfig requestType (db.hgetall device id) state =
      .ok (.hash item) ∧
    item["id"]? = some (.text id) ∧
    item["device"]? = some (.text device) ∧
    (∀ direction p, portSet direction id operations = some p →
      item[portField direction]? = some (.int p)) ∧
    item["desired-version"]? = some (.int revision)

/-- A stored connection is read back unless its id or its device looks like a boolean. -/
theorem readsBack_iff {device id : String} {operations : List SetOperation}
    {requestType : RequestType} {state : Redis.Fields} {db : ConfigDb} {config : ConnectionConfig}
    (hstored : db.connections[id]? = some config) (hid : config.connectionId = id)
    (hports : ∀ direction p, portSet direction id operations = some p →
      config.port direction = p) :
    ReadsBack device id operations config.desiredVersion requestType state db ↔
      (id ≠ "true" ∧ id ≠ "false") ∧ device ≠ "true" ∧ device ≠ "false" := by
  obtain ⟨item, hitem, hdevice, hname, hinput, houtput, hversion⟩ :=
    nativeFields_redisFields device config
  have hread : getConnection device id .connectionConfig requestType (db.hgetall device id) state =
      .ok (.hash item) := by
    have hnonempty : (redisFields device config).isEmpty = false := by
      rw [← Bool.not_eq_true, ExtTreeMap.isEmpty_iff]
      intro hempty
      have hget := getElem?_redisFields
        (show ("device", device) ∈ redisEntries device config by simp [redisEntries])
      rw [hempty] at hget
      simp at hget
    simp [getConnection, ConfigDb.hgetall, hstored, hnonempty, nativeHash, hitem, Except.map]
  have hport : ∀ direction, item[portField direction]? = some (.int (config.port direction)) := by
    intro direction
    cases direction
    · exact hinput
    · exact houtput
  constructor
  · rintro ⟨item', hread', hid', hdevice', -⟩
    rw [hread] at hread'
    cases hread'
    rw [hname, Option.some.injEq, hid] at hid'
    rw [hdevice, Option.some.injEq] at hdevice'
    exact ⟨(textValue_eq_text.mp hid').2, (textValue_eq_text.mp hdevice').2⟩
  · rintro ⟨hidText, hdeviceText⟩
    refine ⟨item, hread, ?_, ?_, ?_, hversion⟩
    · rw [hname, hid, textValue_eq_text.mpr ⟨rfl, hidText⟩]
    · rw [hdevice, textValue_eq_text.mpr ⟨rfl, hdeviceText⟩]
    · intro direction p hp
      rw [hport, hports direction p hp]

/-! ## What a commit stores -/

theorem completeReplacements_of_applied {current : Dict String ConnectionConfig}
    {timestampNs : Nat} {operations : List SetOperation}
    {working working' : Dict String MutableConnection}
    (h : applyOperations current timestampNs operations working = .ok working') :
    CompleteReplacements operations := by
  induction operations generalizing working with
  | nil => exact nofun
  | cons operation rest ih =>
      simp only [applyOperations] at h
      split at h
      · cases h
      · rename_i next hnext
        rintro op hop hkind
        rcases List.mem_cons.mp hop with rfl | hrest
        · unfold applyOperation at hnext
          simp only [hkind] at hnext
          cases hi : op.values.inputPort with
          | none => simp [hi] at hnext
          | some inputPort =>
              cases ho : op.values.outputPort with
              | none => simp [hi, ho] at hnext
              | some outputPort => exact ⟨rfl, rfl⟩
        · exact ih h op hrest hkind

/-- An upsert of an accepted plan has the ports of the plan and the version of its revision. -/
theorem upsert_config {inventory : Inventory} {plan : SetPlan} {timestampNs : Nat} {db : ConfigDb}
    (hserial : Serial inventory db) {candidate : CandidateMutation}
    (h : evaluate inventory plan timestampNs db = .ok candidate) {id : String}
    {config : ConnectionConfig} (hchange : ⟨id, .upsert, some config⟩ ∈ candidate.changes) :
    config.connectionId = id ∧ config.desiredVersion = candidate.revision ∧
      (applyChanges db.connections candidate.changes)[id]? = some config ∧
      ∀ direction p, portSet direction id plan.operations = some p → config.port direction = p := by
  obtain ⟨counts, -, hbuild⟩ := evaluate_ok h
  have hwrites := buildCandidate_writes hserial.valid.keyed rfl hbuild
  have hbatch := buildCandidate_batch rfl hbuild
  obtain ⟨hid, hversion⟩ := hwrites.stamped _ hchange config rfl
  refine ⟨hid, hversion.trans hwrites.revision.symm, hbatch.writes _ hchange, ?_⟩
  intro direction p hp
  obtain ⟨working, fin, hworking, hfin, hcandidate⟩ :=
    (buildCandidate_eq_ok (Nat.succ_ne_zero _)).mp hbuild
  subst hcandidate
  obtain ⟨id', -, hof⟩ := List.mem_filterMap.mp hchange
  obtain ⟨hsame, hconfig, -⟩ := changeOf_id hof
  dsimp only at hsame hconfig
  subst hsame
  rw [get?_finalized (get?_working hworking) hfin, eq_comm, Option.map_eq_some_iff] at hconfig
  obtain ⟨m, hm, rfl⟩ := hconfig
  have hport := port_finalDrafts (ConnectionTable.load db.connections) timestampNs
    (completeReplacements_of_applied hworking) hp
  rw [show finalDrafts _ _ _ _ = some m from hm, Option.bind_some] at hport
  cases direction <;>
    simpa [ConnectionConfig.port, MutableConnection.port, finalConfig] using
      congrArg (Option.getD · 0) hport

theorem getElem?_applyChanges_of_ne {changes : List CandidateChange} {id : String}
    (h : ∀ change ∈ changes, change.connectionId ≠ id) (table : ConnectionTable) :
    (applyChanges table changes)[id]? = table[id]? := by
  induction changes generalizing table with
  | nil => rfl
  | cons change changes ih =>
      change (applyChanges (applyChange table change) changes)[id]? = _
      rw [ih (fun other hother => h other (by simp [hother])), getElem?_applyChange,
        if_neg (Ne.symm (h change (by simp)))]

theorem Commits.events_eq {inventory : Inventory} {db db' : ConfigDb}
    (h : Commits inventory db db') : ∃ event, db'.events = db.events ++ [event] ∧ ∀ id : String,
      (∀ command ∈ event.commands, command.id ≠ id) →
        db'.connections[id]? = db.connections[id]? := by
  cases h with
  | @intro plan timestampNs eventId candidate _ _ _ _ =>
      refine ⟨_, rfl, fun id hid => getElem?_applyChanges_of_ne (fun change hchange => ?_) _⟩
      have hcommand := hid (eventCommand candidate.revision change)
        (List.mem_map_of_mem hchange)
      rwa [eventCommand_id] at hcommand

/-- Sets without a command for an id leave its connection alone. -/
theorem stored_of_quiet {inventory : Inventory} {db db' : ConfigDb}
    (h : Relation.ReflTransGen (Commits inventory) db db') (id : String) :
    ∃ later, db'.events = db.events ++ later ∧
      ((∀ event ∈ later, ∀ command ∈ event.commands, command.id ≠ id) →
        db'.connections[id]? = db.connections[id]?) := by
  induction h with
  | refl => exact ⟨[], by simp, fun _ => rfl⟩
  | @tail mid last _ hstep ih =>
      obtain ⟨later, hlater, hkeep⟩ := ih
      obtain ⟨event, hevent, hkeepStep⟩ := hstep.events_eq
      refine ⟨later ++ [event], by rw [hevent, hlater, List.append_assoc], fun hquiet => ?_⟩
      rw [hkeepStep id (hquiet event (by simp)), hkeep fun e he => hquiet e (by simp [he])]

theorem serial_of_commits {inventory : Inventory} {db : ConfigDb}
    (h : Relation.ReflTransGen (Commits inventory) {} db) : Log inventory db := by
  induction h with
  | refl => exact Log.init inventory
  | tail _ hstep ih => exact ih.commit hstep

/-- A Set that writes a connection is read back, until another Set writes it, exactly when
neither the id nor the device is a text that looks like a boolean. -/
theorem set_then_get {inventory : Inventory} {db db' db'' : ConfigDb} {plan : SetPlan}
    {timestampNs eventId revision : Nat} {candidate : CandidateMutation} {id : String}
    {config : ConnectionConfig} {requestType : RequestType} {state : Redis.Fields}
    (hstart : Relation.ReflTransGen (Commits inventory) {} db)
    (hplan : evaluate inventory plan timestampNs db = .ok candidate)
    (hset : commitSet inventory plan timestampNs eventId db = some db')
    (hwritten : ⟨id, .upsert, some config⟩ ∈ candidate.changes)
    (hrevision : db'.revision = some revision)
    (hlater : Relation.ReflTransGen (Commits inventory) db' db'')
    (hother : ∀ event ∈ db''.events.drop db'.events.length, ∀ command ∈ event.commands,
      command.id ≠ id) :
    ReadsBack plan.device id plan.operations revision requestType state db'' ↔
      (id ≠ "true" ∧ id ≠ "false") ∧ plan.device ≠ "true" ∧ plan.device ≠ "false" := by
  obtain ⟨hid, hversion, hstored, hports⟩ :=
    upsert_config (serial_of_commits hstart).serial hplan hwritten
  unfold commitSet at hset
  rw [hplan] at hset
  dsimp only at hset
  split_ifs at hset
  cases hset
  rw [Option.some.injEq] at hrevision
  obtain ⟨later, hevents, hkeep⟩ := stored_of_quiet hlater id
  rw [hevents, List.drop_left] at hother
  rw [← hrevision, ← hversion]
  exact readsBack_iff ((hkeep hother).trans hstored) hid hports

/-! ## Small Sets -/

def idTrue : SafeId := ⟨"true", by decide⟩

/-- The first connection of the small inventory. -/
def firstConnection (id : SafeId) : ConnectionConfig where
  connectionId := id.text
  inputPort := 3
  outputPort := 4
  desiredVersion := 1
  createdAtNs := 7
  updatedAtNs := 7

def firstCandidate (id : SafeId) : CandidateMutation where
  revision := 1
  timestampNs := 7
  changes := [⟨id.text, .upsert, some (firstConnection id)⟩]
  connections := [firstConnection id]

def firstPlan (id : SafeId) : SetPlan := planOf [connect id 3 4]

/-- CONFIG_DB after it. -/
def firstDb (id : SafeId) : ConfigDb where
  connections := applyChanges ∅ (firstCandidate id).changes
  revision := some 1
  events := [eventFields (firstPlan id) 0 1 7 (firstCandidate id).changes]

theorem evaluate_first : evaluate smallInventory (firstPlan idA) 7 {} = .ok (firstCandidate idA) ∧
    evaluate smallInventory (firstPlan idTrue) 7 {} = .ok (firstCandidate idTrue) := by
  decide +kernel

theorem commitSet_first {id : SafeId}
    (h : evaluate smallInventory (firstPlan id) 7 {} = .ok (firstCandidate id)) :
    commitSet smallInventory (firstPlan id) 7 0 {} = some (firstDb id) := by
  unfold commitSet
  rw [h]
  rfl

theorem set_then_get_first :
    ReadsBack "ocs1" "a" [connect idA 3 4] 1 .all ∅ (firstDb idA) ↔
      ("a" ≠ "true" ∧ "a" ≠ "false") ∧ "ocs1" ≠ "true" ∧ "ocs1" ≠ "false" :=
  set_then_get .refl evaluate_first.1 (commitSet_first evaluate_first.1) (List.mem_singleton_self _)
    rfl .refl (by simp)

/-- The connection "true" is not read back as it was set. -/
theorem true_not_read_back : ¬∀ (inventory : Inventory) (db db' : ConfigDb) (plan : SetPlan)
    (timestampNs eventId revision : Nat) (candidate : CandidateMutation) (id : String)
    (config : ConnectionConfig), Relation.ReflTransGen (Commits inventory) {} db →
    evaluate inventory plan timestampNs db = .ok candidate →
    commitSet inventory plan timestampNs eventId db = some db' →
    ⟨id, .upsert, some config⟩ ∈ candidate.changes → db'.revision = some revision →
    ReadsBack plan.device id plan.operations revision .all ∅ db' := by
  intro h
  have hread := h smallInventory {} (firstDb idTrue) (firstPlan idTrue) 7 0 1 (firstCandidate idTrue)
    "true" (firstConnection idTrue) .refl evaluate_first.2 (commitSet_first evaluate_first.2)
    (List.mem_singleton_self _) rfl
  have hports : ∀ direction p, portSet direction "true" [connect idTrue 3 4] = some p →
      (firstConnection idTrue).port direction = p := by
    rintro (_ | _) p ⟨⟩ <;> rfl
  have hstored : (firstDb idTrue).connections["true"]? = some (firstConnection idTrue) := by
    decide +kernel
  exact absurd rfl ((readsBack_iff hstored rfl hports).mp hread).1.1

end MiniOcs.Gnmi
