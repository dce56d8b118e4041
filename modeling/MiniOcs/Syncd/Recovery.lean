import MiniOcs.Concurrent.Provenance
import MiniOcs.Convergence
import MiniOcs.Orch.Agreement
import MiniOcs.Syncd.Poll

/-!
# The recovery of a device generation

`scheduleGenerationRecovery` compares the intents of the orchestrator with the matrix of a new
device generation. Its batch repairs exactly the differences. It may be cut between any two
operations and run again; its markers keep a second command and a second state event out.
-/
namespace MiniOcs.Syncd
open Std Concurrent

/-! ## What the intents want -/

/-- What an intent wants the device to have. -/
def wanted (intent : Application) : Option AppliedConnection :=
  match intent.operation with
  | .remove => none
  | .upsert => some ⟨intent.id, intent.inputPort, intent.outputPort, intent.desiredVersion⟩

/-- The command that an intent comes to; the ports of a removal are left out. -/
def requested (intent : Application) : ConnectionCommand :=
  match intent.operation with
  | .remove => { operation := .remove, id := intent.id, desiredVersion := intent.desiredVersion }
  | .upsert => {
      id := intent.id
      inputPort := intent.inputPort
      outputPort := intent.outputPort
      desiredVersion := intent.desiredVersion }

def wantedOf (intents : Table) (id : String) : Option AppliedConnection :=
  intents[id]?.bind wanted

def inMatrix (actual : List AppliedConnection) (id : String) : Option AppliedConnection :=
  actual.find? fun connection => connection.id = id

/-- One command for each id whose intent differs from the matrix, and one removal for each
connection of the matrix that nothing intends. -/
structure RecoveryBatch (intents : Table) (actual : List AppliedConnection)
    (commands : List ConnectionCommand) : Prop where
  nodup : (commands.map (·.id)).Nodup
  exact : ∀ c, c ∈ commands ↔
    (∃ id intent, intents[id]? = some intent ∧ inMatrix actual id ≠ wanted intent ∧
      c = requested intent) ∨
    ∃ x ∈ actual, intents[x.id]? = none ∧ c = removal x

/-- Every intent is stored under its id. -/
def KeyedById (intents : Table) : Prop :=
  ∀ (id : String) (intent : Application), intents[id]? = some intent → intent.id = id

section Intents

variable {intents : Table} {actual : List AppliedConnection} {commands : List ConnectionCommand}

theorem requested_id (intent : Application) : (requested intent).id = intent.id := by
  unfold requested
  cases intent.operation <;> rfl

theorem eq_requested {intent : Application} {c : ConnectionCommand}
    (h : intendedCommand intent = .ok c) : c = requested intent := by
  unfold intendedCommand at h
  unfold requested
  cases hop : intent.operation with
  | remove =>
      rw [hop] at h
      cases h
      rfl
  | upsert =>
      simp only [hop] at h
      split_ifs at h
      cases h
      rfl

theorem inMatrix_id {id : String} {x : AppliedConnection} (h : inMatrix actual id = some x) :
    x.id = id := by
  simpa using List.find?_some h

theorem intentMatches_requested {intent : Application} {found : Option AppliedConnection}
    (hid : ∀ x, found = some x → x.id = intent.id) :
    intentMatches (requested intent) found = true ↔ found = wanted intent := by
  unfold intentMatches requested wanted
  cases hop : intent.operation with
  | remove =>
      cases found with
      | none => simp
      | some x => simp
  | upsert =>
      cases found with
      | none => simp
      | some x =>
          obtain ⟨id, inputPort, outputPort, version⟩ := x
          have heq : id = intent.id := hid _ rfl
          simp [applies, heq, and_assoc]

theorem getElem?_tableOf_actual (hactual : (actual.map (·.id)).Nodup) (id : String) :
    (tableOf actual)[id]? = inMatrix actual id := by
  cases hfind : inMatrix actual id with
  | some x =>
      have hmem := List.mem_of_find?_eq_some hfind
      exact (getElem?_tableOf hactual).mpr ⟨hmem, inMatrix_id hfind⟩
  | none =>
      cases hget : (tableOf actual)[id]? with
      | none => rfl
      | some x =>
          obtain ⟨hmem, hid⟩ := (getElem?_tableOf hactual).mp hget
          exact absurd (decide_eq_true hid) (List.find?_eq_none.mp hfind x hmem)

/-- The batch turns the matrix into the upserts of the intents. -/
theorem RecoveryBatch.folds (h : RecoveryBatch intents actual commands)
    (hkeyed : KeyedById intents) (hactual : (actual.map (·.id)).Nodup) (id : String) :
    (foldCommands (tableOf actual) commands)[id]? = wantedOf intents id := by
  have huntouched : (∀ c ∈ commands, c.id ≠ id) →
      (foldCommands (tableOf actual) commands)[id]? = inMatrix actual id := by
    intro hid
    rw [getElem?_foldCommands_of_not_mem hid, getElem?_tableOf_actual hactual]
  unfold wantedOf
  cases hget : intents[id]? with
  | some intent =>
      have hid := hkeyed id intent hget
      by_cases hmatch : inMatrix actual id = wanted intent
      · rw [huntouched fun c hc heq => ?_]
        · exact hmatch
        rcases (h.exact c).mp hc with ⟨id', intent', hget', hdiffers, rfl⟩ | ⟨x, -, hnone, rfl⟩
        · rw [requested_id, hkeyed id' intent' hget'] at heq
          subst heq
          rw [hget] at hget'
          cases hget'
          exact hdiffers hmatch
        · rw [show x.id = id from heq, hget] at hnone
          cases hnone
      · have hmem : requested intent ∈ commands :=
          (h.exact _).mpr (.inl ⟨id, intent, hget, hmatch, rfl⟩)
        have hfold := getElem?_foldCommands_of_mem h.nodup hmem (tableOf actual)
        rw [requested_id, hid] at hfold
        rw [hfold]
        cases hop : intent.operation <;> simp [requested, wanted, hop, asConnection]
  | none =>
      cases hfind : inMatrix actual id with
      | some x =>
          have hxid := inMatrix_id hfind
          have hmem : removal x ∈ commands :=
            (h.exact _).mpr (.inr ⟨x, List.mem_of_find?_eq_some hfind, hxid ▸ hget, rfl⟩)
          have hfold := getElem?_foldCommands_of_mem h.nodup hmem (tableOf actual)
          rw [← hxid]
          exact hfold
      | none =>
          rw [huntouched fun c hc heq => ?_, hfind]
          · rfl
          rcases (h.exact c).mp hc with ⟨id', intent', hget', -, rfl⟩ | ⟨x, hx, -, rfl⟩
          · rw [requested_id, hkeyed id' intent' hget'] at heq
            subst heq
            rw [hget] at hget'
            cases hget'
          · exact List.find?_eq_none.mp hfind x hx (decide_eq_true heq)

theorem RecoveryBatch.perm {commands' : List ConnectionCommand}
    (h : RecoveryBatch intents actual commands) (hperm : commands'.Perm commands) :
    RecoveryBatch intents actual commands' :=
  ⟨(hperm.map _).nodup_iff.mpr h.nodup, fun c => hperm.mem_iff.trans (h.exact c)⟩

end Intents

/-! ## What one run schedules -/

/-- Replies that come from the intents, as long as they are read. -/
def Reads (intents : Table) : (o : Op) → o.Reply → Prop
  | .syncd .scanDevice, keys => keys = intents.keys
  | .syncd (.getDevice id), intent => intent = intents[id]?
  | _, _ => True

/-- What a run for a generation may send: reads, its own markers, and a batch that fits. -/
def Schedules (fits : List ConnectionCommand → Prop) (generation : Nat) : Op → Prop
  | .orch _ => False
  | .syncd o => match o with
    | .getHash _ | .scanDevice | .getDevice _ | .getState _ | .raise _ => True
    | .putHash k _ => k = .configBatch (.recovery generation)
    | .putHashIfAbsent k v =>
        (⟨k, v⟩ : SyncdEntry) = ⟨.generationRecovery generation, ⟨false, none⟩⟩ ∧ fits []
    | .replaceStateOnce marker _ id _ event =>
        marker = .generationStatePublication generation id ∧ event.id = .actual generation id
    | .incrementOnce marker _ _ => marker = .generationCountersPublication generation
    | .appendCommandOnce marker fields event =>
        (⟨marker, fields⟩ : SyncdEntry) =
          ⟨.generationRecovery generation, ⟨true, some (.recovery generation)⟩⟩ ∧
        event.id = .recovery generation ∧ fits event.payload.commands
    | _ => False

abbrev Scheduling (R : (o : Op) → o.Reply → Prop) (fits : List ConnectionCommand → Prop)
    (generation : Nat) {α : Type} (Q : α → Prop) (p : Service α) : Prop :=
  p.Given (Schedules fits generation) R Q

section Scheduling

variable {intents : Table} {actual : List AppliedConnection} {generation : Nat} {α : Type}
  {Q : α → Prop} {R : (o : Op) → o.Reply → Prop} {fits : List ConnectionCommand → Prop}

theorem Scheduling.send {o : SyncdOp} {k : o.Reply → Service α}
    (ho : Schedules fits generation (.syncd o))
    (hk : ∀ r, R (.syncd o) r → Scheduling R fits generation Q (k r)) :
    Scheduling R fits generation Q (Syncd.send o >>= k) := ⟨ho, hk⟩

theorem Scheduling.raise {e : Raised} :
    Scheduling R fits generation Q (Syncd.raise e : Service α) :=
  ⟨trivial, fun _ _ => trivial⟩

theorem scheduling_replaceGenerationState (id : String) (version : Nat) (before after : Bool)
    (state : Option ConnectionState) : Scheduling R fits generation (fun _ => True)
      (replaceGenerationState generation id version before after state) := by
  refine Scheduling.send ⟨rfl, rfl⟩ fun published _ => ?_
  unfold publishedDelta
  split_ifs
  · trivial
  · refine Scheduling.send trivial fun marked _ => ?_
    cases marked with
    | none => exact Scheduling.raise
    | some delta => trivial

/-- The commands of the intents among some keys. -/
def requests (intents : Table) (keys : List String) : List ConnectionCommand :=
  keys.filterMap fun key => intents[key]?.map requested

/-- The commands that the connections do not match. -/
def unmatched (remaining : List AppliedConnection) (commands : List ConnectionCommand) :
    List ConnectionCommand :=
  commands.filter fun c => !intentMatches c (inMatrix remaining c.id)

/-- The connections that no command names. -/
def unnamed (remaining : List AppliedConnection) (commands : List ConnectionCommand) :
    List AppliedConnection :=
  remaining.filter fun connection => decide (connection.id ∉ commands.map (·.id))

theorem mem_requests {keys : List String} {c : ConnectionCommand} :
    c ∈ requests intents keys ↔
      ∃ key ∈ keys, ∃ intent, intents[key]? = some intent ∧ c = requested intent := by
  simp [requests, eq_comm]

theorem requests_ids (hkeyed : KeyedById intents) {keys : List String} (hkeys : keys.Nodup) :
    ((requests intents keys).map (·.id)).Nodup := by
  have hsub : ((requests intents keys).map (·.id)).Sublist keys := by
    induction keys with
    | nil => exact List.Sublist.slnil
    | cons key rest ih =>
        have hrest := ih (List.nodup_cons.mp hkeys).2
        unfold requests at hrest ⊢
        cases hget : intents[key]? with
        | none => simpa [hget] using hrest.cons key
        | some intent =>
            have hid : (requested intent).id = key :=
              (requested_id intent).trans (hkeyed key intent hget)
            simpa [hget, hid] using hrest.cons_cons key
  exact hsub.nodup hkeys

/-- Taking one connection away leaves what is found under the other ids. -/
theorem inMatrix_filter {remaining : List AppliedConnection} {id id' : String} (hne : id' ≠ id) :
    inMatrix (remaining.filter fun connection => connection.id ≠ id) id' =
      inMatrix remaining id' := by
  unfold inMatrix
  rw [List.find?_filter]
  congr 1
  funext connection
  by_cases hid : connection.id = id'
  · simp [hid, hne]
  · simp [hid]

theorem unmatched_filter {remaining : List AppliedConnection} {id : String}
    {commands : List ConnectionCommand} (hne : ∀ c ∈ commands, c.id ≠ id) :
    unmatched (remaining.filter fun connection => connection.id ≠ id) commands =
      unmatched remaining commands := by
  apply List.filter_congr
  intro c hc
  rw [inMatrix_filter (hne c hc)]

theorem unnamed_cons (remaining : List AppliedConnection) (c : ConnectionCommand)
    (commands : List ConnectionCommand) :
    unnamed (remaining.filter fun connection => connection.id ≠ c.id) commands =
      unnamed remaining (c :: commands) := by
  unfold unnamed
  rw [List.filter_filter]
  congr 1
  funext connection
  by_cases hid : connection.id = c.id
  · simp [hid]
  · simp [hid]

theorem unmatched_cons (remaining : List AppliedConnection) (c : ConnectionCommand)
    (commands : List ConnectionCommand) : unmatched remaining (c :: commands) =
      (if intentMatches c (inMatrix remaining c.id) then [] else [c]) ++
        unmatched remaining commands := by
  unfold unmatched
  rw [List.filter_cons]
  by_cases hmatch : intentMatches c (inMatrix remaining c.id) = true
  · simp [hmatch]
  · simp [hmatch]

theorem scheduling_refreshIntended (hkeyed : KeyedById intents) (scan : RecoveryScan)
    {keys : List String} (hkeys : keys.Nodup) :
    Scheduling (Reads intents) fits generation (fun r =>
        r.commands = scan.commands ++ unmatched scan.remaining (requests intents keys) ∧
        r.remaining = unnamed scan.remaining (requests intents keys))
      (refreshIntended generation scan keys) := by
  induction keys generalizing scan with
  | nil =>
      refine ⟨?_, ?_⟩
      · simp [requests, unmatched]
      · simp [requests, unnamed]
  | cons key rest ih =>
      obtain ⟨hfresh, hrest⟩ := List.nodup_cons.mp hkeys
      unfold refreshIntended
      refine Scheduling.send trivial fun reply hreply => ?_
      have hget : intents[key]? = reply := hreply.symm
      cases reply with
      | none =>
          have hrequests : requests intents (key :: rest) = requests intents rest := by
            simp [requests, hget]
          rw [hrequests]
          exact ih scan hrest
      | some intent =>
          have hrequests : requests intents (key :: rest) =
              requested intent :: requests intents rest := by
            simp [requests, hget]
          dsimp only
          cases hintended : intendedCommand intent with
          | error message => exact Scheduling.raise
          | ok command =>
              obtain rfl := eq_requested hintended
              have hid : (requested intent).id = key :=
                (requested_id intent).trans (hkeyed key intent hget)
              have hothers : ∀ c ∈ requests intents rest, c.id ≠ (requested intent).id := by
                intro c hc heq
                obtain ⟨key', hkey', intent', hget', rfl⟩ := mem_requests.mp hc
                rw [requested_id, hkeyed key' intent' hget', hid] at heq
                exact hfresh (heq ▸ hkey')
              dsimp only
              refine Scheduling.send trivial fun previous _ => ?_
              refine (scheduling_replaceGenerationState _ _ _ _ _).bind fun delta _ => ?_
              refine (ih _ hrest).mono fun r hr => ?_
              obtain ⟨hcommands, hremaining⟩ := hr
              rw [hrequests]
              rw [unmatched_filter hothers] at hcommands
              rw [unnamed_cons] at hremaining
              refine ⟨?_, hremaining⟩
              rw [hcommands, unmatched_cons]
              change (if intentMatches (requested intent)
                (inMatrix scan.remaining (requested intent).id) then _ else _) ++ _ = _
              split_ifs
              · rfl
              · exact List.append_assoc _ _ _

theorem scheduling_refreshUnexpected (scan : RecoveryScan) (rest : List AppliedConnection) :
    Scheduling R fits generation
      (fun r => r.commands = scan.commands ++ rest.map removal)
      (refreshUnexpected generation scan rest) := by
  induction rest generalizing scan with
  | nil => exact (List.append_nil _).symm
  | cons x rest ih =>
      unfold refreshUnexpected
      refine Scheduling.send trivial fun previous _ => ?_
      refine (scheduling_replaceGenerationState _ _ _ _ _).bind fun delta _ => ?_
      refine (ih _).mono fun r hr => ?_
      rw [hr]
      simp

theorem mem_requests_keys {c : ConnectionCommand} : c ∈ requests intents intents.keys ↔
    ∃ (id : String) (intent : Application), intents[id]? = some intent ∧ c = requested intent := by
  rw [mem_requests]
  constructor
  · rintro ⟨id, -, intent, hget, heq⟩
    exact ⟨id, intent, hget, heq⟩
  · rintro ⟨id, intent, hget, heq⟩
    have hkey : id ∈ intents.keys := by
      rw [ExtTreeMap.mem_keys, ExtTreeMap.mem_iff_isSome_getElem?, hget]
      rfl
    exact ⟨id, hkey, intent, hget, heq⟩

theorem named_iff (hkeyed : KeyedById intents) {id : String} :
    id ∈ (requests intents intents.keys).map (·.id) ↔ intents[id]? ≠ none := by
  rw [List.mem_map]
  constructor
  · rintro ⟨c, hc, rfl⟩
    obtain ⟨id, intent, hget, rfl⟩ := mem_requests_keys.mp hc
    rw [requested_id, hkeyed id intent hget, hget]
    simp
  · intro hsome
    obtain ⟨intent, hget⟩ := Option.ne_none_iff_exists'.mp hsome
    exact ⟨requested intent, mem_requests_keys.mpr ⟨id, intent, hget, rfl⟩,
      (requested_id intent).trans (hkeyed id intent hget)⟩

theorem mem_unmatched (hkeyed : KeyedById intents) {c : ConnectionCommand} :
    c ∈ unmatched actual (requests intents intents.keys) ↔
      ∃ (id : String) (intent : Application), intents[id]? = some intent ∧
        inMatrix actual id ≠ wanted intent ∧ c = requested intent := by
  have hmatch : ∀ (id : String) (intent : Application), intents[id]? = some intent →
      (intentMatches (requested intent) (inMatrix actual (requested intent).id) = true ↔
        inMatrix actual id = wanted intent) := by
    intro id intent hget
    rw [requested_id, hkeyed id intent hget]
    apply intentMatches_requested
    intro x hfind
    rw [inMatrix_id hfind, hkeyed id intent hget]
  unfold unmatched
  rw [List.mem_filter, mem_requests_keys]
  constructor
  · rintro ⟨⟨id, intent, hget, rfl⟩, hdiffers⟩
    refine ⟨id, intent, hget, fun heq => ?_, rfl⟩
    rw [(hmatch id intent hget).mpr heq] at hdiffers
    cases hdiffers
  · rintro ⟨id, intent, hget, hdiffers, rfl⟩
    have hno : ¬intentMatches (requested intent) (inMatrix actual (requested intent).id) = true :=
      fun heq => hdiffers ((hmatch id intent hget).mp heq)
    exact ⟨⟨id, intent, hget, rfl⟩, by simpa using hno⟩

theorem mem_unnamed (hkeyed : KeyedById intents) {x : AppliedConnection} :
    x ∈ unnamed actual (requests intents intents.keys) ↔
      x ∈ actual ∧ intents[x.id]? = none := by
  unfold unnamed
  rw [List.mem_filter, decide_eq_true_eq, named_iff hkeyed, not_not]

/-- The differences of the intents and the connections that no intent names make the batch. -/
theorem recoveryBatch_scanned (hkeyed : KeyedById intents) (hactual : (actual.map (·.id)).Nodup) :
    RecoveryBatch intents actual (unmatched actual (requests intents intents.keys) ++
      (unnamed actual (requests intents intents.keys)).map removal) := by
  have hids := requests_ids hkeyed (ExtTreeMap.nodup_keys (t := intents))
  refine ⟨?_, fun c => ?_⟩
  · rw [List.map_append, List.nodup_append, List.map_map]
    refine ⟨(List.filter_sublist.map _).nodup hids, (List.filter_sublist.map _).nodup hactual, ?_⟩
    rintro id hid id' hid' rfl
    obtain ⟨c, hc, rfl⟩ := List.mem_map.mp hid
    obtain ⟨x, hx, hxid⟩ := List.mem_map.mp hid'
    have hunnamed := ((mem_unnamed hkeyed).mp hx).2
    rw [show x.id = c.id from hxid] at hunnamed
    exact (named_iff hkeyed).mp (List.mem_map_of_mem (List.mem_filter.mp hc).1) hunnamed
  · rw [List.mem_append, mem_unmatched hkeyed, List.mem_map]
    apply or_congr_right
    constructor
    · rintro ⟨x, hx, rfl⟩
      obtain ⟨hmem, hnone⟩ := (mem_unnamed hkeyed).mp hx
      exact ⟨x, hmem, hnone, rfl⟩
    · rintro ⟨x, hmem, hnone, rfl⟩
      exact ⟨x, (mem_unnamed hkeyed).mpr ⟨hmem, hnone⟩, rfl⟩

theorem scheduling_publishRecovery (info : DeviceInfo) {commands : List ConnectionCommand}
    (h : fits commands) :
    Scheduling R fits info.generation (fun _ => True) (publishRecovery info commands) := by
  unfold publishRecovery
  split_ifs with hempty
  · subst hempty
    exact Scheduling.send ⟨rfl, h⟩ fun _ _ => trivial
  · refine Scheduling.send rfl fun _ _ => ?_
    exact Scheduling.send ⟨rfl, rfl, h⟩ fun _ _ => trivial

/-- A run that reads the intents. -/
theorem scheduling_of_reads (hkeyed : KeyedById intents) (hactual : (actual.map (·.id)).Nodup)
    (info : DeviceInfo) :
    Scheduling (Reads intents) (RecoveryBatch intents actual) info.generation (fun _ => True)
      (scheduleGenerationRecovery info actual) := by
  unfold scheduleGenerationRecovery
  refine Scheduling.send trivial fun scheduled _ => ?_
  cases scheduled with
  | some _ => trivial
  | none =>
      refine Scheduling.send trivial fun keys hkeys => ?_
      obtain rfl : keys = intents.keys := hkeys
      refine (scheduling_refreshIntended hkeyed { remaining := actual } ExtTreeMap.nodup_keys).bind
        fun intended hintended => ?_
      refine (scheduling_refreshUnexpected intended intended.remaining).bind fun scan hscan => ?_
      refine Scheduling.send rfl fun _ _ => ?_
      apply scheduling_publishRecovery info
      refine (recoveryBatch_scanned hkeyed hactual).perm (sortById_perm.trans ?_)
      rw [hscan, hintended.1, hintended.2]
      exact List.Perm.refl _

theorem scheduling_refreshAny (scan : RecoveryScan) (keys : List String) :
    Scheduling R (fun _ => True) generation (fun _ => True)
      (refreshIntended generation scan keys) := by
  induction keys generalizing scan with
  | nil => trivial
  | cons key rest ih =>
      unfold refreshIntended
      refine Scheduling.send trivial fun reply _ => ?_
      cases reply with
      | none => exact ih scan
      | some intent =>
          dsimp only
          cases intendedCommand intent with
          | error message => exact Scheduling.raise
          | ok command =>
              refine Scheduling.send trivial fun previous _ => ?_
              exact (scheduling_replaceGenerationState _ _ _ _ _).bind fun _ _ => ih _

/-- A run whose intents may change while it reads them. -/
theorem scheduling_of_any (info : DeviceInfo) (actual : List AppliedConnection) :
    Scheduling R (fun _ => True) info.generation (fun _ => True)
      (scheduleGenerationRecovery info actual) := by
  unfold scheduleGenerationRecovery
  refine Scheduling.send trivial fun scheduled _ => ?_
  cases scheduled with
  | some _ => trivial
  | none =>
      refine Scheduling.send trivial fun keys _ => ?_
      refine (scheduling_refreshAny _ keys).bind fun intended _ => ?_
      refine (scheduling_refreshUnexpected intended intended.remaining).bind fun scan _ => ?_
      refine Scheduling.send rfl fun _ _ => ?_
      exact scheduling_publishRecovery info trivial

end Scheduling

/-! ## Runs that are cut -/

/-- What the other programs do: they neither publish recovery commands and states of a
generation nor touch their markers. The intents may be any of the allowed ones. -/
structure OtherWork (contents : Table → Prop) (s t : World) : Prop where
  commands : ∃ extra, t.commands = s.commands ++ extra ∧
    ∀ e ∈ extra, ∀ generation, e.id ≠ .recovery generation
  states : ∃ extra, t.syncd.stateEvents = s.syncd.stateEvents ++ extra ∧
    ∀ e ∈ extra, ∀ generation id, e.id ≠ .actual generation id
  recovered : ∀ generation, t.syncd.hash (.generationRecovery generation) =
    s.syncd.hash (.generationRecovery generation)
  published : ∀ generation id, t.syncd.hash (.generationStatePublication generation id) =
    s.syncd.hash (.generationStatePublication generation id)
  intents : contents t.orch.device

/-- Runs of `scheduleGenerationRecovery`, one after the other or at once, cut anywhere. -/
def recoveries (ι : Type) (runs : DeviceInfo → List AppliedConnection → Prop)
    (contents : Table → Prop) : System Op Op.Reply Raised Unit World ι where
  exec := exec
  init w := w.commands = [] ∧ w.syncd = {} ∧ contents w.orch.device
  starts _ _ p := ∃ info actual, runs info actual ∧ p = scheduleGenerationRecovery info actual
  crash _ w := w
  env := OtherWork contents
  allow _ _ _ _ := True

/-- The command of a generation. -/
def isRecoveryOf (generation : Nat) (event : CommandEvent) : Bool :=
  decide (event.id = .recovery generation)

/-- The state event of a connection in a generation. -/
def isActualOf (generation : Nat) (id : String) (event : StateEvent) : Bool :=
  decide (event.id = .actual generation id)

/-- The commands and state events of the generations are behind their markers, and the batches
fit. -/
structure Recovering (fits : Nat → List ConnectionCommand → Prop) (w : World) : Prop where
  commands : ∀ generation, BehindMarker (isRecoveryOf generation) w.commands
    (w.syncd.hash (.generationRecovery generation)).isSome
  states : ∀ generation id, BehindMarker (isActualOf generation id) w.syncd.stateEvents
    (w.syncd.hash (.generationStatePublication generation id)).isSome
  batches : ∀ event ∈ w.commands, ∀ generation, event.id = .recovery generation →
    fits generation event.payload.commands
  needless : ∀ generation recovery, w.syncd.hash (.generationRecovery generation) = some recovery →
    recovery.recoveryRequired = false → fits generation []
  needed : ∀ generation recovery, w.syncd.hash (.generationRecovery generation) = some recovery →
    recovery.recoveryRequired = true → ∃ event ∈ w.commands, event.id = .recovery generation

section Recovering

variable {fits : Nat → List ConnectionCommand → Prop} {w t : World} {generation : Nat}

/-- Nothing of a generation is published. -/
theorem Recovering.others (h : Recovering fits w) {contents : Table → Prop}
    (ht : OtherWork contents w t) : Recovering fits t := by
  obtain ⟨extra, hcommands, hforeign⟩ := ht.commands
  obtain ⟨extra', hstates, hforeign'⟩ := ht.states
  refine ⟨fun generation => ?_, fun generation id => ?_, fun event hmem generation hid => ?_,
    fun generation recovery hget => ?_, fun generation recovery hget hrequired => ?_⟩
  · rw [hcommands, ht.recovered]
    exact (h.commands generation).append fun e he => decide_eq_false (hforeign e he generation)
  · rw [hstates, ht.published]
    exact (h.states generation id).append fun e he =>
      decide_eq_false (hforeign' e he generation id)
  · rw [hcommands] at hmem
    rcases List.mem_append.mp hmem with hmem | hmem
    · exact h.batches event hmem generation hid
    · exact absurd hid (hforeign event hmem generation)
  · rw [ht.recovered] at hget
    exact h.needless generation recovery hget
  · rw [ht.recovered] at hget
    obtain ⟨event, hmem, hid⟩ := h.needed generation recovery hget hrequired
    rw [hcommands]
    exact ⟨event, List.mem_append_left _ hmem, hid⟩

/-- A write that is behind no marker of a generation. -/
theorem Recovering.aside (h : Recovering fits w) (hcommands : t.commands = w.commands)
    (hstates : t.syncd.stateEvents = w.syncd.stateEvents) (hhash : ∀ generation,
      t.syncd.hash (.generationRecovery generation) =
        w.syncd.hash (.generationRecovery generation))
    (hhash' : ∀ generation id, t.syncd.hash (.generationStatePublication generation id) =
      w.syncd.hash (.generationStatePublication generation id)) : Recovering fits t :=
  have hothers : OtherWork (fun _ => True) w t :=
    ⟨⟨[], by simp [hcommands]⟩, ⟨[], by simp [hstates]⟩, hhash, hhash', trivial⟩
  h.others hothers

theorem Recovering.markAside (h : Recovering fits w) {k : SyncdKey} (v : SyncdHash k)
    (hk : ∀ generation, SyncdKey.generationRecovery generation ≠ k)
    (hk' : ∀ generation id, SyncdKey.generationStatePublication generation id ≠ k) :
    Recovering fits (w.markSyncd k v) :=
  h.aside rfl rfl (fun generation => World.markSyncd_hash_of_ne _ _ _ (hk generation))
    fun generation id => World.markSyncd_hash_of_ne _ _ _ (hk' generation id)

/-- Nothing needs a repair. -/
theorem Recovering.settle (h : Recovering fits w) (hfits : fits generation []) :
    Recovering fits (w.markSyncd (.generationRecovery generation) ⟨false, none⟩) := by
  refine ⟨fun g => ?_, fun g id => ?_, h.batches, fun g recovery hget => ?_,
    fun g recovery hget hrequired => ?_⟩
  · by_cases hg : g = generation
    · subst hg
      rw [World.markSyncd_hash_self]
      exact (h.commands g).set
    · rw [World.markSyncd_hash_of_ne _ _ _ (by simpa using hg)]
      exact h.commands g
  · rw [World.markSyncd_hash_of_ne _ _ _ (by simp)]
    exact h.states g id
  · by_cases hg : g = generation
    · subst hg
      exact fun _ => hfits
    · rw [World.markSyncd_hash_of_ne _ _ _ (by simpa using hg)] at hget
      exact h.needless g recovery hget
  · by_cases hg : g = generation
    · subst hg
      rw [World.markSyncd_hash_self] at hget
      cases hget
      cases hrequired
    · rw [World.markSyncd_hash_of_ne _ _ _ (by simpa using hg)] at hget
      exact h.needed g recovery hget hrequired

/-- The command of a generation. -/
theorem Recovering.command (h : Recovering fits w)
    (hnone : w.syncd.hash (.generationRecovery generation) = none) {event : CommandEvent}
    (hid : event.id = .recovery generation) (hfits : fits generation event.payload.commands) :
    Recovering fits ({ w with commands := w.commands ++ [event] }.markSyncd
      (.generationRecovery generation) ⟨true, some (.recovery generation)⟩) := by
  have hown : ∀ g, event.id = .recovery g → g = generation := by
    intro g hg
    rw [hid] at hg
    cases hg
    rfl
  refine ⟨fun g => ?_, fun g id => ?_, fun e hmem g heq => ?_, fun g recovery hget => ?_,
    fun g recovery hget hrequired => ?_⟩
  · by_cases hg : g = generation
    · subst hg
      rw [World.markSyncd_hash_self]
      have hbefore := h.commands g
      rw [hnone] at hbefore
      exact hbefore.mark event
    · rw [World.markSyncd_hash_of_ne _ _ _ (by simpa using hg)]
      refine (h.commands g).append fun e he => ?_
      cases List.mem_singleton.mp he
      exact decide_eq_false fun heq => hg (hown g heq)
  · rw [World.markSyncd_hash_of_ne _ _ _ (by simp)]
    exact h.states g id
  · rcases List.mem_append.mp hmem with hmem | hmem
    · exact h.batches e hmem g heq
    · cases List.mem_singleton.mp hmem
      cases hown g heq
      exact hfits
  · by_cases hg : g = generation
    · subst hg
      rw [World.markSyncd_hash_self] at hget
      cases hget
      exact fun hrequired => by cases hrequired
    · rw [World.markSyncd_hash_of_ne _ _ _ (by simpa using hg)] at hget
      exact h.needless g recovery hget
  · by_cases hg : g = generation
    · subst hg
      exact ⟨event, List.mem_append_right _ (List.mem_singleton_self event), hid⟩
    · rw [World.markSyncd_hash_of_ne _ _ _ (by simpa using hg)] at hget
      obtain ⟨e, he, heq⟩ := h.needed g recovery hget hrequired
      exact ⟨e, List.mem_append_left _ he, heq⟩

/-- The state of a connection in a generation. -/
theorem Recovering.state (h : Recovering fits w) {id : String}
    (hnone : w.syncd.hash (.generationStatePublication generation id) = none)
    (delta : Int) (state : Option ConnectionState) {event : StateEvent}
    (hid : event.id = .actual generation id) :
    Recovering fits (w.publishState (.generationStatePublication generation id) delta id state
      event) := by
  have hhash : ∀ g, (w.publishState (.generationStatePublication generation id) delta id state
      event).syncd.hash (.generationRecovery g) = w.syncd.hash (.generationRecovery g) :=
    fun g => World.markSyncd_hash_of_ne _ _ _ (by simp)
  refine ⟨fun g => ?_, fun g id' => ?_, h.batches, fun g recovery hget => ?_,
    fun g recovery hget hrequired => ?_⟩
  · rw [hhash]
    exact h.commands g
  · by_cases hk : SyncdKey.generationStatePublication g id' =
        .generationStatePublication generation id
    · cases hk
      unfold World.publishState
      rw [World.markSyncd_hash_self]
      have hbefore := h.states generation id
      rw [hnone] at hbefore
      exact hbefore.mark event
    · unfold World.publishState
      rw [World.markSyncd_hash_of_ne _ _ _ hk]
      refine (h.states g id').append fun e he => ?_
      cases List.mem_singleton.mp he
      apply decide_eq_false
      intro heq
      rw [hid] at heq
      cases heq
      exact hk rfl
  · rw [hhash] at hget
    exact h.needless g recovery hget
  · rw [hhash] at hget
    exact h.needed g recovery hget hrequired

/-- One call of a run. -/
theorem Recovering.exec (h : Recovering fits w) {o : SyncdOp}
    (ho : Schedules (fits generation) generation (.syncd o)) (choice : Nat) :
    Recovering fits (o.exec choice w).2 := by
  cases o with
  | getHash _ => exact h
  | scanDevice => exact h
  | getDevice _ => exact h
  | getState _ => exact h
  | raise _ => exact h
  | putHash k v =>
      obtain rfl : k = .configBatch (.recovery generation) := ho
      exact h.markAside v (by simp) (by simp)
  | putHashIfAbsent k v =>
      obtain ⟨heq, hfits⟩ := ho
      cases heq
      simp only [SyncdOp.exec, World.onceSyncd]
      split_ifs
      · exact h
      · exact h.settle hfits
  | incrementOnce marker fields update =>
      obtain rfl : marker = .generationCountersPublication generation := ho
      simp only [SyncdOp.exec, World.onceSyncd]
      split_ifs
      · exact h
      · have hcounted : Recovering fits { w with counters := w.counters ++ [update] } :=
          h.aside rfl rfl (fun _ => rfl) fun _ _ => rfl
        exact hcounted.markAside fields (by simp) (by simp)
  | appendCommandOnce marker fields event =>
      obtain ⟨heq, hid, hfits⟩ := ho
      cases heq
      simp only [SyncdOp.exec]
      cases hm : w.syncd.hash (.generationRecovery generation) with
      | some recovery =>
          rw [onceSyncd_some (by rw [hm]; rfl)]
          exact h
      | none =>
          rw [onceSyncd_none hm]
          exact h.command hm hid hfits
  | replaceStateOnce marker fields id state event =>
      obtain ⟨rfl, hid⟩ := ho
      simp only [SyncdOp.exec]
      cases hm : w.syncd.hash (.generationStatePublication generation id) with
      | some delta =>
          rw [onceSyncd_some (by rw [hm]; rfl)]
          exact h
      | none =>
          rw [onceSyncd_none hm]
          exact h.state hm fields state hid
  | _ => exact ho.elim

end Recovering

/-! ## Every run -/

section Runs

variable {fits : Nat → List ConnectionCommand → Prop} {contents : Table → Prop}
  {runs : DeviceInfo → List AppliedConnection → Prop} {R : (o : Op) → o.Reply → Prop}

/-- The contract of a run: its intents are allowed ones, and everybody keeps the markers. -/
def recoveryContract (fits : Nat → List ConnectionCommand → Prop) (contents : Table → Prop) :
    Contract Op World where
  inv w := contents w.orch.device ∧ Recovering fits w
  rely _ _ := True
  guard o _ := ∃ generation, Schedules (fits generation) generation o
  allow _ _ _ := True
  refl _ := trivial
  trans _ _ := trivial

theorem exec_intents {o : SyncdOp} {generation : Nat} {fits : List ConnectionCommand → Prop}
    (ho : Schedules fits generation (.syncd o)) (choice : Nat) (w : World) :
    (o.exec choice w).2.orch.device = w.orch.device := by
  cases o with
  | getHash _ | scanDevice | getDevice _ | getState _ | raise _ | putHash _ _ => rfl
  | putHashIfAbsent _ _ | incrementOnce _ _ _ | appendCommandOnce _ _ _
  | replaceStateOnce _ _ _ _ _ =>
      simp only [SyncdOp.exec, World.onceSyncd]
      split_ifs <;> rfl
  | _ => exact ho.elim

theorem exec_keeps (contents : Table → Prop) {o : Op} {generation : Nat}
    (ho : Schedules (fits generation) generation o) (choice : Nat) {w : World} (h : contents w.orch.device ∧ Recovering fits w) :
    contents (exec o choice w).2.orch.device ∧ Recovering fits (exec o choice w).2 := by
  cases o with
  | orch o => exact ho.elim
  | syncd o =>
      refine ⟨?_, h.2.exec ho choice⟩
      change contents (o.exec choice w).2.orch.device
      rw [exec_intents ho]
      exact h.1

/-- Runs whose replies are in `R` whenever the intents are allowed, and whose batches fit then. -/
theorem recoveries_verified (ι : Type)
    (hreads : ∀ o choice w, contents w.orch.device → R o (exec o choice w).1)
    (hruns : ∀ info actual, runs info actual → Scheduling R (fits info.generation)
      info.generation (fun _ => True) (scheduleGenerationRecovery info actual)) :
    Verified (recoveries ι runs contents) (fun w => contents w.orch.device ∧ Recovering fits w)
      (fun _ => recoveryContract fits contents) fun _ _ _ _ => True where
  inv _ _ hI := hI
  allow _ _ _ _ _ := trivial
  init := by
    rintro w ⟨hcommands, hsyncd, hcontents⟩
    refine ⟨hcontents, fun generation => ?_, fun generation id => ?_, fun event hmem => ?_,
      fun generation recovery hget => ?_, fun generation recovery hget => ?_⟩
    · rw [hcommands]
      exact Nat.zero_le _
    · rw [hsyncd]
      exact Nat.zero_le _
    · rw [hcommands] at hmem
      cases hmem
    · rw [hsyncd] at hget
      cases hget
    · rw [hsyncd] at hget
      cases hget
  starts := by
    rintro i w p _ ⟨info, actual, hrun, rfl⟩
    have hreply : ∀ t o choice, contents t.orch.device ∧ Recovering fits t →
        Schedules (fits info.generation) info.generation o → True →
          True ∧ R o (exec o choice t).1 :=
      fun t o choice ht _ _ => ⟨trivial, hreads o choice t ht.1⟩
    exact Safe.of_given (C := recoveryContract fits contents) (R := fun _ => R)
      (P := fun _ => Schedules (fits info.generation) info.generation)
      (fun _ _ _ ho => ⟨_, ho⟩) hreply (fun _ _ _ _ _ hr => hr) fun _ _ _ => hruns info actual hrun
  call := by
    rintro i o choice w hI ⟨generation, ho⟩ -
    exact ⟨exec_keeps contents ho choice hI, fun _ _ => trivial⟩
  crash _ _ hI _ := ⟨hI, fun _ _ => trivial⟩
  env _ _ hI ht := ⟨⟨ht.intents, hI.2.others ht⟩, fun _ => trivial⟩

end Runs

/-! ## Runs that are not cut -/

section Uncut

variable {α β : Type} {pick : Op → World → Nat} {w : World} {generation : Nat}

theorem completes_send {N : α → World → Prop} {o : SyncdOp} {k : o.Reply → Service α}
    (h : (k (o.exec (pick (.syncd o) w) w).1).Completes exec pick
      (o.exec (pick (.syncd o) w) w).2 N) :
    (Syncd.send o >>= k).Completes exec pick w N := h

/-- The intents can be read: their ports are valid, and a scan does not exceed its bound. -/
structure Readable (intents : Table) : Prop where
  ports : ∀ (id : String) (intent : Application), intents[id]? = some intent →
    intent.operation = .upsert →
      validPort intent.inputPort = true ∧ validPort intent.outputPort = true
  bounded : intents.keys.length ≤ 4096

theorem Readable.intended {intents : Table} (h : Readable intents) {id : String}
    {intent : Application} (hget : intents[id]? = some intent) :
    intendedCommand intent = .ok (requested intent) := by
  unfold intendedCommand requested
  cases hop : intent.operation with
  | remove => rfl
  | upsert =>
      obtain ⟨hin, hout⟩ := h.ports id intent hget hop
      simp [hin, hout]

theorem completes_replaceGenerationState (id : String) (version : Nat) (before after : Bool)
    (state : Option ConnectionState) :
    (replaceGenerationState generation id version before after state).Completes exec pick w
      fun _ t => t.orch = w.orch := by
  unfold replaceGenerationState
  refine completes_send ?_
  cases hm : w.syncd.hash (.generationStatePublication generation id) with
  | none =>
      simp only [SyncdOp.exec, onceSyncd_none hm]
      exact Prog.Completes.pure rfl
  | some delta =>
      simp only [SyncdOp.exec, onceSyncd_some (show (w.syncd.hash _).isSome by rw [hm]; rfl)]
      refine completes_send ?_
      simp only [SyncdOp.exec, hm]
      exact Prog.Completes.pure rfl

theorem completes_refreshIntended {intents : Table} (hreadable : Readable intents)
    (hw : w.orch.device = intents) (scan : RecoveryScan) (keys : List String) :
    (refreshIntended generation scan keys).Completes exec pick w fun _ t => t.orch = w.orch := by
  induction keys generalizing w scan with
  | nil => exact Prog.Completes.pure rfl
  | cons key rest ih =>
      unfold refreshIntended
      refine completes_send ?_
      simp only [SyncdOp.exec, hw]
      cases hget : intents[key]? with
      | none => exact ih hw scan
      | some intent =>
          simp only [hreadable.intended hget]
          refine completes_send ?_
          refine (completes_replaceGenerationState _ _ _ _ _).bind fun delta t ht => ?_
          obtain ⟨scan', u, heq, hu⟩ := ih (w := t) (by rw [ht]; exact hw) _
          exact ⟨scan', u, heq, hu.trans ht⟩

theorem completes_refreshUnexpected (scan : RecoveryScan) (rest : List AppliedConnection) :
    (refreshUnexpected generation scan rest).Completes exec pick w fun _ _ => True := by
  induction rest generalizing w scan with
  | nil => exact Prog.Completes.pure trivial
  | cons x rest ih =>
      unfold refreshUnexpected
      refine completes_send ?_
      exact (completes_replaceGenerationState _ _ _ _ _).bind fun delta t _ => ih _

theorem completes_publishRecovery (info : DeviceInfo) (commands : List ConnectionCommand) :
    (publishRecovery info commands).Completes exec pick w fun _ t =>
      (t.syncd.hash (.generationRecovery info.generation)).isSome := by
  have hmarked : ∀ (u : World) (v : GenerationRecovery) (write : World → World),
      ((u.onceSyncd (.generationRecovery info.generation) v write).2.syncd.hash
        (.generationRecovery info.generation)).isSome := by
    intro u v write
    unfold World.onceSyncd
    split_ifs with hset
    · exact hset
    · rw [World.markSyncd_hash_self]
      rfl
  unfold publishRecovery
  split_ifs
  · exact completes_send (Prog.Completes.pure (hmarked _ _ _))
  · exact completes_send (completes_send (Prog.Completes.pure (hmarked _ _ _)))

theorem completes_generationRecovery {info : DeviceInfo} {actual : List AppliedConnection}
    (hreadable : Readable w.orch.device) :
    (scheduleGenerationRecovery info actual).Completes exec pick w fun _ t =>
      (t.syncd.hash (.generationRecovery info.generation)).isSome := by
  unfold scheduleGenerationRecovery
  refine completes_send ?_
  cases hm : w.syncd.hash (.generationRecovery info.generation) with
  | some recovery =>
      simp only [SyncdOp.exec, hm]
      exact Prog.Completes.pure (by rw [hm]; rfl)
  | none =>
      simp only [SyncdOp.exec, hm]
      refine completes_send ?_
      refine (completes_refreshIntended hreadable rfl _ _).bind fun intended t ht => ?_
      refine (completes_refreshUnexpected intended intended.remaining).bind fun scan u _ => ?_
      exact completes_send (completes_publishRecovery info _)

end Uncut

/-- What was scheduled for a generation is what the intents ask of the matrix. -/
structure Recovered (intents : Table) (info : DeviceInfo) (actual : List AppliedConnection)
    (w : World) : Prop where
  batch : ∀ event ∈ w.commands, event.id = .recovery info.generation →
    RecoveryBatch intents actual event.payload.commands ∧
      ∀ id, (foldCommands (tableOf actual) event.payload.commands)[id]? = wantedOf intents id
  needless : ∀ recovery, w.syncd.hash (.generationRecovery info.generation) = some recovery →
    recovery.recoveryRequired = false → RecoveryBatch intents actual [] ∧
      ∀ id, (tableOf actual)[id]? = wantedOf intents id
  needed : ∀ recovery, w.syncd.hash (.generationRecovery info.generation) = some recovery →
    recovery.recoveryRequired = true →
      ∃ event ∈ w.commands, event.id = .recovery info.generation

section Exact

variable {intents : Table} {info : DeviceInfo} {actual : List AppliedConnection} {w : World}

theorem Recovering.recovered (hkeyed : KeyedById intents) (hactual : (actual.map (·.id)).Nodup)
    (h : Recovering (fun _ => RecoveryBatch intents actual) w) :
    Recovered intents info actual w := by
  refine ⟨fun event hmem hid => ?_, fun recovery hget hneedless => ?_, fun recovery hget => ?_⟩
  · have hbatch := h.batches event hmem _ hid
    exact ⟨hbatch, hbatch.folds hkeyed hactual⟩
  · have hbatch := h.needless _ recovery hget hneedless
    exact ⟨hbatch, hbatch.folds hkeyed hactual⟩
  · exact h.needed _ recovery hget

theorem reads_exec (o : Op) (choice : Nat) {w : World} (hw : w.orch.device = intents) :
    Reads intents o (exec o choice w).1 := by
  cases o with
  | orch o => trivial
  | syncd o =>
      cases o with
      | scanDevice => exact congrArg ExtTreeMap.keys hw
      | getDevice id => exact congrArg (fun table : Table => table[id]?) hw
      | _ => trivial

/-- A run that is not cut schedules the generation. -/
theorem Recovering.completes (hkeyed : KeyedById intents) (hactual : (actual.map (·.id)).Nodup)
    (hreadable : Readable intents) (hw : w.orch.device = intents)
    (h : Recovering (fun _ => RecoveryBatch intents actual) w) (pick : Op → World → Nat) :
    (scheduleGenerationRecovery info actual).Completes MiniOcs.exec pick w fun _ t =>
      (t.syncd.hash (.generationRecovery info.generation)).isSome ∧
        Recovered intents info actual t := by
  have hmarked : (scheduleGenerationRecovery info actual).Completes MiniOcs.exec pick w fun _ t =>
      (t.syncd.hash (.generationRecovery info.generation)).isSome :=
    completes_generationRecovery (hw.symm ▸ hreadable)
  obtain ⟨a, t, heq, hmarked⟩ := hmarked
  have hstep : ∀ o choice (w : World),
      Schedules (RecoveryBatch intents actual) info.generation o →
        w.orch.device = intents ∧ Recovering (fun _ => RecoveryBatch intents actual) w →
          (MiniOcs.exec o choice w).2.orch.device = intents ∧
            Recovering (fun _ => RecoveryBatch intents actual) (MiniOcs.exec o choice w).2 :=
    fun _ choice _ ho hI => exec_keeps (· = intents) ho choice hI
  have hkept := (scheduling_of_reads hkeyed hactual info).alone
    (fun o choice _ hI => reads_exec o choice hI.1) hstep pick ⟨hw, h⟩
  rw [heq] at hkept
  exact ⟨a, t, heq, hmarked, hkept.2.recovered hkeyed hactual⟩

end Exact

/-- While the intents stay, the command of a generation repairs exactly the differences, a
generation is marked without a command only if there are none, and a run that is not cut marks
it. Whatever the intents come to while runs are cut and repeated, no generation gets a second
command and no connection a second state event in a generation. -/
theorem generation_recovery_exact {ι : Type} [DecidableEq ι] (device : String) :
    (∀ (intents : Table) (info : DeviceInfo) (actual : List AppliedConnection),
      KeyedById intents → (actual.map (·.id)).Nodup →
        ∀ c, Reachable (recoveries ι (fun i a => i = info ∧ a = actual) (· = intents)) c →
          Recovered intents info actual c.world ∧
          (Readable intents → ∀ pick, (scheduleGenerationRecovery info actual).Completes exec pick
            c.world fun _ t => (t.syncd.hash (.generationRecovery info.generation)).isSome ∧
              Recovered intents info actual t)) ∧
    ∀ c, Reachable (recoveries ι (fun info _ => info.name = device) fun _ => True) c →
      (∀ generation, c.world.commands.countP (isRecoveryOf generation) ≤ 1) ∧
        ∀ generation id, c.world.syncd.stateEvents.countP (isActualOf generation id) ≤ 1 := by
  constructor
  · intro intents info actual hkeyed hactual c hc
    have hruns : ∀ i a, i = info ∧ a = actual →
        Scheduling (Reads intents) (RecoveryBatch intents actual) i.generation (fun _ => True)
          (scheduleGenerationRecovery i a) := by
      rintro i a ⟨rfl, rfl⟩
      exact scheduling_of_reads hkeyed hactual i
    have hverified : Verified (recoveries ι (fun i a => i = info ∧ a = actual) (· = intents))
        (fun w => w.orch.device = intents ∧ Recovering (fun _ => RecoveryBatch intents actual) w)
        _ _ := recoveries_verified ι (fun o choice _ hw => reads_exec o choice hw) hruns
    obtain ⟨hintents, hrecovering⟩ := hverified.invariant hc
    exact ⟨hrecovering.recovered hkeyed hactual,
      fun hreadable pick => hrecovering.completes hkeyed hactual hreadable hintents pick⟩
  · intro c hc
    have hruns : ∀ (info : DeviceInfo) (actual : List AppliedConnection), info.name = device →
        Scheduling (fun _ _ => True) (fun _ => True) info.generation (fun _ => True)
          (scheduleGenerationRecovery info actual) :=
      fun info actual _ => scheduling_of_any info actual
    have hverified : Verified (recoveries ι (fun info _ => info.name = device) fun _ => True)
        (fun w => True ∧ Recovering (fun _ _ => True) w) _ _ :=
      recoveries_verified ι (fun _ _ _ _ => trivial) hruns
    obtain ⟨-, hrecovering⟩ := hverified.invariant hc
    exact ⟨fun generation => (hrecovering.commands generation).le_one,
      fun generation id => (hrecovering.states generation id).le_one⟩

/-! ## A new generation -/

def intentAt (id : String) (operation : ConnectionOperation) (port version : Nat) : Application where
  device := "ocs1"
  id := id
  inputPort := port
  outputPort := port
  desiredVersion := version
  applyStatus := .active
  operation := operation
  requestId := "0"
  eventId := 0
  commandId := .config 0
  retryAttempt := 0
  nextRetryAtNs := none
  failedCommandId := none
  lastErrorCode := none
  lastErrorMessage := ""

/-- A connection to create and one to remove. -/
def mixedIntents : Table :=
  ((∅ : Table).insert "a" (intentAt "a" .upsert 1 1)).insert "b" (intentAt "b" .remove 2 2)

/-- The new device has the connection to remove, and one that nothing intends. -/
def mixedMatrix : List AppliedConnection := [⟨"b", 2, 2, 1⟩, ⟨"c", 3, 3, 0⟩]

def mixedWorld : World :=
  { Orch.smallWorld with orch := { device := mixedIntents } }

def mixedRecovered : World :=
  ((scheduleGenerationRecovery Orch.smallDevice.info mixedMatrix).run exec
    (List.replicate 40 0) mixedWorld).2

theorem mixedIntents_keyed : KeyedById mixedIntents := by
  intro id intent hget
  unfold mixedIntents at hget
  simp only [ExtTreeMap.getElem?_insert, Std.compare_eq_iff_eq] at hget
  split_ifs at hget with hb ha
  · cases hget
    exact hb
  · cases hget
    exact ha
  · simp at hget

/-- One command for the missing connection, one for the removal, and one for the connection that
nothing intends. -/
theorem generation_recovery_exact_mixed : mixedRecovered.commands.length = 1 ∧
    ∀ event ∈ mixedRecovered.commands, event.payload.commands.length = 3 ∧
      RecoveryBatch mixedIntents mixedMatrix event.payload.commands := by
  have hinit : Reachable (recoveries Unit
      (fun i a => i = Orch.smallDevice.info ∧ a = mixedMatrix) (· = mixedIntents))
      ⟨mixedWorld, fun _ => none⟩ := .init ⟨rfl, rfl, rfl⟩
  have hallow : (scheduleGenerationRecovery Orch.smallDevice.info mixedMatrix).along exec
      (fun _ _ _ => True) (List.replicate 40 0) mixedWorld :=
    Prog.along_of_forall (fun _ _ _ => trivial) _ _ _
  have hrun := hinit.startRun (i := ()) rfl ⟨_, _, ⟨rfl, rfl⟩, rfl⟩ _ hallow
  have hrecovered := ((generation_recovery_exact "ocs1").1 mixedIntents Orch.smallDevice.info
    mixedMatrix mixedIntents_keyed (by decide) _ hrun).1
  refine ⟨by decide +kernel, fun event hmem => ?_⟩
  have hid : ∀ event ∈ mixedRecovered.commands, event.id = .recovery 1 ∧
      event.payload.commands.length = 3 := by decide +kernel
  exact ⟨(hid event hmem).2, (hrecovered.batch event hmem (hid event hmem).1).1⟩

end MiniOcs.Syncd
