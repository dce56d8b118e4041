import MiniOcs.Orch.Contract
import MiniOcs.Concurrent.Provenance
import MiniOcs.Json.Access

/-!
# Events of one connection

The configuration events that carry one connection instead of a batch. An event that is more than
one version ahead of APPL_DB is not trusted: the desired connection is read again from CONFIG_DB.
-/
namespace MiniOcs.Orch
open Std Concurrent

/-- `payload` is what the text of the payload parses to. -/
structure ConnectionEvent where
  eventId : Nat
  requestId : Nat
  timestampNs : Nat
  device : String
  resourceId : String
  operation : CommandOperation
  desiredVersion : Nat
  payload : Option Json

/-- The envelope, which the publication reads. -/
def ConnectionEvent.envelope (event : ConnectionEvent) : Gnmi.ConfigEvent where
  eventId := event.eventId
  requestId := event.requestId
  timestampNs := event.timestampNs
  device := event.device
  desiredVersion := event.desiredVersion
  commands := []

def decodePort (payload : Json) (field : String) : Except Raised Nat :=
  match payload.atKey field with
  | .error e => .error (.runtimeError e)
  | .ok (.int n) =>
      if n < 0 then .error (.invalidArgument (field ++ " must be positive"))
      else if validPort n.toNat then .ok n.toNat
      else .error (.invalidArgument (field ++ " is outside the supported port range"))
  | .ok _ => .error (.invalidArgument (field ++ " must be an integer"))

def decodeConfigEvent (event : ConnectionEvent) : Except Raised ConnectionCommand :=
  if event.desiredVersion = 0 then
    .error (.invalidArgument "connection desired version must be positive")
  else match event.operation with
    | .remove => .ok {
        operation := .remove, id := event.resourceId, desiredVersion := event.desiredVersion }
    | .upsert => match event.payload with
      | none => .error (.runtimeError "parse error")
      | some payload => do
          let inputPort ← decodePort payload "input_port"
          let outputPort ← decodePort payload "output_port"
          .ok {
            id := event.resourceId, inputPort := inputPort, outputPort := outputPort
            desiredVersion := event.desiredVersion }
    | _ => .error (.invalidArgument "unsupported connection configuration operation")

def snapshotPort (port : Nat) (field : String) : Except Raised Nat :=
  if validPort port then .ok port
  else .error (.invalidArgument ("connection snapshot has invalid port: " ++ field))

/-- The command carries the version of the snapshot, whatever the version of the event is. -/
def loadDesiredSnapshot (event : ConnectionEvent) (snapshot : Option Gnmi.ConnectionConfig) :
    Except Raised ConnectionCommand :=
  match snapshot with
  | none =>
      if event.operation = .remove then .ok {
        operation := .remove, id := event.resourceId, desiredVersion := event.desiredVersion }
      else .error (.runtimeError "version gap cannot reload missing desired snapshot")
  | some snapshot =>
      if snapshot.desiredVersion < event.desiredVersion then
        .error (.invalidArgument "connection snapshot is older than configuration event")
      else do
        let inputPort ← snapshotPort snapshot.inputPort "input_port"
        let outputPort ← snapshotPort snapshot.outputPort "output_port"
        .ok {
          id := event.resourceId, inputPort := inputPort, outputPort := outputPort
          desiredVersion := snapshot.desiredVersion }

/-- The loop over the only member of a new event: `none` where there is nothing to do. -/
def selectConnection (event : ConnectionEvent) (command : ConnectionCommand) :
    Service (Option ConnectionCommand) := do
  let existing ← send (.getAppl command.id)
  if command.desiredVersion ≤ currentVersion existing then .pure none
  else if command.operation = .remove ∧ existing.isNone then .pure none
  else if 1 < command.desiredVersion - currentVersion existing then
    let snapshot ← send (.getConfig event.resourceId)
    match loadDesiredSnapshot event snapshot with
    | .ok command => .pure (some command)
    | .error e => raise e
  else .pure (some command)

def prepareConnection (n : Nat) (event : ConnectionEvent) (decoded : ConnectionCommand) :
    Service Bool := do
  let selected ← selectConnection event decoded
  match selected with
  | none => acknowledge .config n
  | some command =>
      let _ ← send (.putHashIfAbsent (.configBatch (.config event.eventId)) { commands := [command] })
      let prepared ← send (.getHash (.configBatch (.config event.eventId)))
      resumePrepared n event.envelope prepared

/-- `processConfigOne` on an event of one connection. -/
def handleConnection (n : Nat) (event : ConnectionEvent) : Service Bool := do
  let published ← send (.getHash (.deviceCommandPublication event.eventId))
  match published with
  | some _ => acknowledge .config n
  | none =>
      let prepared ← send (.getHash (.configBatch (.config event.eventId)))
      match prepared with
      | some _ => resumePrepared n event.envelope prepared
      | none =>
          match decodeConfigEvent event with
          | .error e => raise e
          | .ok decoded => prepareConnection n event decoded

/-! ## Versions of APPL_DB -/

/-- A publication into APPL_DB writes hashes; it takes none away. -/
def Forward : OrchOp → Prop
  | .putVersionedHashes .appl _ _ _ hashes => ∀ entry ∈ hashes, entry.2.isSome
  | _ => True

/-- The moments after `w`: the orchestrator goes on publishing, and the others leave APPL_DB
alone. -/
inductive Later (w : World) : World → Prop
  | now : Later w w
  | call {t o} (choice : Nat) : Later w t → Forward o → Later w (o.exec choice t).2
  | other {t t'} : Later w t → t'.orch.appl = t.orch.appl → Later w t'

theorem once_appl {w : World} {marker : OrchKey} {v : OrchHash marker} {write : World → World}
    (h : (write w).orch.appl = w.orch.appl) : (w.once marker v write).2.orch.appl = w.orch.appl := by
  unfold World.once
  split_ifs
  · rfl
  · exact h

/-- A published version replaces only what is not newer. -/
theorem currentVersion_putVersioned {table : Table} {version : Nat}
    {hashes : List (String × Option Application)} (hmatch : versionsMatch version hashes = true)
    (hsome : ∀ entry ∈ hashes, entry.2.isSome) (id : String) :
    currentVersion table[id]? ≤ currentVersion (putVersioned table version hashes)[id]? := by
  unfold putVersioned
  have hentries : ∀ entry ∈ publishable table version hashes,
      ∃ a, entry.2 = some a ∧ currentVersion table[entry.1]? ≤ a.desiredVersion := by
    rintro ⟨id', hash⟩ hmem
    obtain ⟨hmem, hle⟩ := mem_publishable.mp hmem
    obtain ⟨a, rfl⟩ := Option.isSome_iff_exists.mp (hsome _ hmem)
    have hversion : a.desiredVersion = version := by
      simpa using List.all_eq_true.mp hmatch _ hmem
    refine ⟨a, rfl, ?_⟩
    cases hold : table[id']? with
    | none => exact Nat.zero_le _
    | some existing => exact hversion ▸ hle existing hold
  generalize publishable table version hashes = entries at hentries
  -- the fold over the table that was read: each entry is at least the version it read
  suffices h : ∀ current : Table, currentVersion table[id]? ≤ currentVersion current[id]? →
      currentVersion table[id]? ≤ currentVersion
        (entries.foldl (fun t entry => putEntry t entry.1 entry.2) current)[id]? from h table le_rfl
  induction entries with
  | nil => exact fun current h => h
  | cons entry rest ih =>
      intro current hcurrent
      refine ih (fun e he => hentries e (List.mem_cons_of_mem _ he)) _ ?_
      obtain ⟨a, ha, hle⟩ := hentries entry List.mem_cons_self
      rw [getElem?_putEntry]
      split_ifs with heq
      · subst heq
        rw [ha]
        exact hle
      · exact hcurrent

theorem currentVersion_exec {o : OrchOp} (ho : Forward o) (choice : Nat) (w : World) (id : String) :
    currentVersion w.orch.appl[id]? ≤ currentVersion (o.exec choice w).2.orch.appl[id]? := by
  cases o with
  | putVersionedHashes copy marker fields version hashes =>
      simp only [OrchOp.exec]
      split_ifs with hmarked hmatch
      · exact le_rfl
      · exact le_rfl
      · cases copy with
        | appl => exact currentVersion_putVersioned (by simpa using hmatch) ho id
        | device => exact le_rfl
  | putHashIfAbsent k v => exact (congrArg (currentVersion ·[id]?) (once_appl rfl)).ge
  | appendCommandOnce k v event => exact (congrArg (currentVersion ·[id]?) (once_appl rfl)).ge
  | appendRetryOnce k v event => exact (congrArg (currentVersion ·[id]?) (once_appl rfl)).ge
  | replaceAlarmOnce k v connection alarm event =>
      exact (congrArg (currentVersion ·[id]?) (once_appl rfl)).ge
  | incrementOnce k v increments => exact (congrArg (currentVersion ·[id]?) (once_appl rfl)).ge
  | readGroup g => cases g <;> exact le_rfl
  | xack g n => cases g <;> exact le_rfl
  | _ => exact le_rfl

theorem currentVersion_later {w t : World} (h : Later w t) (id : String) :
    currentVersion w.orch.appl[id]? ≤ currentVersion t.orch.appl[id]? := by
  induction h with
  | now => exact le_rfl
  | call choice _ ho ih => exact ih.trans (currentVersion_exec ho choice _ id)
  | other _ happl ih => rw [happl]; exact ih

/-! ### The handlers only go forward -/

section Advances

variable {α : Type} {Q : α → Prop}

/-- The orchestrator sends nothing else. -/
def ForwardOp : Op → Prop
  | .orch o => Forward o
  | .syncd _ => False

def Advances (Q : α → Prop) (p : Service α) : Prop := p.Given ForwardOp (fun _ _ => True) Q

def present (hashes : List (String × Option Application)) : Prop :=
  ∀ entry ∈ hashes, entry.2.isSome

theorem present_concat {hashes : List (String × Option Application)} (h : present hashes)
    (id : String) (a : Application) : present (hashes ++ [(id, some a)]) := by
  intro entry hmem
  rcases List.mem_append.mp hmem with hmem | hmem
  · exact h entry hmem
  · rw [List.mem_singleton.mp hmem]
    rfl

theorem Advances.send {o : OrchOp} {k : o.Reply → Service α} (ho : Forward o)
    (hk : ∀ r, Advances Q (k r)) : Advances Q (Orch.send o >>= k) := ⟨ho, fun r _ => hk r⟩

theorem Advances.last {o : OrchOp} (ho : Forward o) :
    Advances (fun _ => True) (Orch.send o) := ⟨ho, fun _ _ => trivial⟩

theorem Advances.raise {e : Raised} : Advances Q (Orch.raise e : Service α) :=
  ⟨trivial, fun _ _ => trivial⟩

theorem Advances.bind {β : Type} {T : β → Prop} {p : Service β} {f : β → Service α}
    (hp : Advances T p) (hf : ∀ b, T b → Advances Q (f b)) : Advances Q (p >>= f) :=
  Prog.Given.bind hp hf

theorem advances_acknowledge (g : OrchGroup) (n : Nat) :
    Advances (fun _ => True) (acknowledge g n) := Advances.send trivial fun _ => trivial

theorem advances_nextMessage (g : OrchGroup) : Advances (fun _ => True) (nextMessage g) := by
  refine Advances.send trivial fun candidate => ?_
  cases candidate with
  | none => exact Advances.last trivial
  | some n =>
      refine Advances.send trivial fun claimed => ?_
      cases claimed with
      | none => exact Advances.last trivial
      | some event => trivial

theorem advances_publish {copy : Copy} {marker : OrchKey} {fields : OrchHash marker}
    {version : Nat} {hashes : List (String × Option Application)}
    (h : copy = .appl → present hashes) :
    Advances (fun _ => True) (publish copy marker fields version hashes) := by
  refine Advances.send ?_ fun published => ?_
  · cases copy with
    | appl => exact h rfl
    | device => trivial
  · cases published with
    | none => exact Advances.raise
    | some _ => trivial

theorem advances_require (source target : ConnectionApplyStatus) :
    Advances (fun _ => True) (require source target) := by
  unfold require
  cases requireTransition source target with
  | error e => exact Advances.raise
  | ok _ => trivial

theorem advances_configApplications (event : Gnmi.ConfigEvent)
    {hashes : List (String × Option Application)} (h : present hashes)
    (commands : List ConnectionCommand) :
    Advances present (configApplications event hashes commands) := by
  induction commands generalizing hashes with
  | nil => exact h
  | cons command rest ih =>
      refine Advances.send trivial fun existing => ?_
      cases startApplyTransition (currentStatus existing) command.operation with
      | error e => exact Advances.raise
      | ok status => exact ih (present_concat h _ _)

theorem advances_publishConfig (n : Nat) (event : Gnmi.ConfigEvent) (batch : DeviceCommandBatch) :
    Advances (fun _ => True) (publishConfig n event batch) := by
  refine (advances_configApplications event (by simp [present]) _).bind fun hashes h => ?_
  refine (advances_publish fun _ => h).bind fun _ _ => ?_
  refine (advances_publish fun _ => h).bind fun _ _ => ?_
  exact Advances.send trivial fun _ => advances_acknowledge _ n

theorem advances_resumePrepared (n : Nat) (event : Gnmi.ConfigEvent)
    (prepared : Option DeviceCommandBatch) :
    Advances (fun _ => True) (resumePrepared n event prepared) := by
  unfold resumePrepared
  cases prepared with
  | none => exact Advances.raise
  | some payload =>
      dsimp only
      cases decodeDeviceCommand payload with
      | error message => exact Advances.raise
      | ok batch => exact advances_publishConfig n event batch

theorem advances_selectCommands (selected commands : List ConnectionCommand) :
    Advances (fun _ => True) (selectCommands selected commands) := by
  induction commands generalizing selected with
  | nil => trivial
  | cons command rest ih =>
      refine Advances.send trivial fun existing => ?_
      split_ifs
      · trivial
      · exact ih selected
      · exact ih _

theorem advances_prepareConfig (n : Nat) (event : Gnmi.ConfigEvent) (decoded : DeviceCommandBatch) :
    Advances (fun _ => True) (prepareConfig n event decoded) := by
  refine (advances_selectCommands [] _).bind fun selected _ => ?_
  match selected with
  | none => exact advances_acknowledge _ n
  | some [] => exact advances_acknowledge _ n
  | some (command :: rest) =>
      refine Advances.send trivial fun _ => ?_
      exact Advances.send trivial fun prepared => advances_resumePrepared n event prepared

theorem advances_processConfigOne : Advances (fun _ => True) processConfigOne := by
  refine (advances_nextMessage .config).bind fun message _ => ?_
  match message with
  | none => trivial
  | some (n, event) =>
      refine Advances.send trivial fun published => ?_
      cases published with
      | some _ => exact advances_acknowledge _ n
      | none =>
          refine Advances.send trivial fun prepared => ?_
          cases prepared with
          | some payload => exact advances_resumePrepared n event _
          | none =>
              dsimp only
              cases decodeConfigBatchEvent event with
              | error message => exact Advances.raise
              | ok decoded => exact advances_prepareConfig n event decoded

theorem advances_selectConnection (event : ConnectionEvent) (command : ConnectionCommand) :
    Advances (fun _ => True) (selectConnection event command) := by
  refine Advances.send trivial fun existing => ?_
  split_ifs
  · trivial
  · trivial
  · refine Advances.send trivial fun snapshot => ?_
    cases loadDesiredSnapshot event snapshot with
    | error e => exact Advances.raise
    | ok command => trivial
  · trivial

theorem advances_handleConnection (n : Nat) (event : ConnectionEvent) :
    Advances (fun _ => True) (handleConnection n event) := by
  refine Advances.send trivial fun published => ?_
  cases published with
  | some _ => exact advances_acknowledge _ n
  | none =>
      refine Advances.send trivial fun prepared => ?_
      cases prepared with
      | some payload => exact advances_resumePrepared n _ _
      | none =>
          dsimp only
          cases decodeConfigEvent event with
          | error e => exact Advances.raise
          | ok decoded =>
              refine (advances_selectConnection event decoded).bind fun selected _ => ?_
              cases selected with
              | none => exact advances_acknowledge _ n
              | some command =>
                  refine Advances.send trivial fun _ => ?_
                  exact Advances.send trivial fun prepared => advances_resumePrepared n _ prepared

theorem advances_countRaisedAlarm (connection : String) (marker : Option AlarmMarker) :
    Advances (fun _ => True) (countRaisedAlarm connection marker) := by
  unfold countRaisedAlarm
  cases marker with
  | none => exact Advances.raise
  | some marker =>
      dsimp only
      split_ifs
      · exact Advances.send trivial fun _ => trivial
      · trivial

theorem advances_publishTimeoutAlarm (result : ResultEvent) (command : CommandId)
    (connection message : String) :
    Advances (fun _ => True) (publishTimeoutAlarm result command connection message) := by
  refine Advances.send trivial fun published => Advances.send trivial fun active => ?_
  cases published with
  | some marker => exact advances_countRaisedAlarm connection _
  | none =>
      refine Advances.send trivial fun now => Advances.send trivial fun _ => ?_
      exact Advances.send trivial fun marker => advances_countRaisedAlarm connection marker

theorem advances_countClearedAlarm (connection : String) (marker : Option AlarmMarker) :
    Advances (fun _ => True) (countClearedAlarm connection marker) := by
  unfold countClearedAlarm
  cases marker with
  | none => exact Advances.raise
  | some marker => exact Advances.send trivial fun _ => trivial

theorem advances_clearAfterSuccess (result : ResultEvent) :
    Advances (fun _ => True) (clearAfterSuccess result) := by
  unfold clearAfterSuccess
  split_ifs
  · refine Advances.send trivial fun published => Advances.send trivial fun active => ?_
    cases published with
    | some marker => exact advances_countClearedAlarm _ _
    | none =>
        cases active with
        | none => trivial
        | some alarm =>
            refine Advances.send trivial fun now => Advances.send trivial fun _ => ?_
            exact Advances.send trivial fun marker => advances_countClearedAlarm _ marker
  · trivial

theorem advances_settleResult (n : Nat) (result : ResultEvent) :
    Advances (fun _ => True) (settleResult n result) := by
  refine Advances.send trivial fun existing => ?_
  cases existing with
  | none => exact advances_acknowledge _ n
  | some application =>
      dsimp only
      cases resultDecision result application with
      | stale => exact advances_acknowledge _ n
      | newer => exact Advances.raise
      | invalid e => exact Advances.raise
      | publish next =>
          -- the hash that may be absent goes to DEVICE_DB
          refine (advances_publish (fun h => by cases h)).bind fun _ _ => ?_
          have hnil : present [] := by simp [present]
          refine (advances_publish fun _ => present_concat hnil _ _).bind fun _ _ => ?_
          exact (advances_clearAfterSuccess result).bind fun _ _ => advances_acknowledge _ n

theorem advances_timeoutApplications (result : ResultEvent) (metadata : TimeoutMetadata)
    {hashes : List (String × Option Application)} (h : present hashes)
    (commands : List ConnectionCommand) :
    Advances (fun found => ∀ hashes, found = some hashes → present hashes)
      (timeoutApplications result metadata hashes commands) := by
  induction commands generalizing hashes with
  | nil =>
      rintro _ ⟨⟩
      exact h
  | cons command rest ih =>
      refine Advances.send trivial fun existing => ?_
      cases existing with
      | none => exact fun _ hfound => by cases hfound
      | some application =>
          dsimp only
          split_ifs
          · exact ih (present_concat h _ _)
          · exact fun _ hfound => by cases hfound

theorem advances_publishTimeout (result : ResultEvent) (batch : DeviceCommandBatch)
    (metadata : TimeoutMetadata) :
    Advances (fun _ => True) (publishTimeout result batch metadata) := by
  have halarms : ∀ commands, Advances (fun _ => True) (raiseTimeoutAlarms result commands) := by
    intro commands
    induction commands with
    | nil => trivial
    | cons command rest ih => exact (advances_publishTimeoutAlarm result _ _ _).bind fun _ _ => ih
  refine (advances_timeoutApplications result metadata (by simp [present]) _).bind
    fun found hfound => ?_
  cases found with
  | none => trivial
  | some hashes =>
      refine (advances_publish fun _ => hfound _ rfl).bind fun _ _ => ?_
      refine (advances_publish fun _ => hfound _ rfl).bind fun _ _ => ?_
      refine (halarms batch.commands).bind fun _ _ => ?_
      unfold scheduleRetry
      split_ifs
      · exact Advances.send trivial fun _ => trivial
      · trivial

theorem advances_firstTimeout (policy : ApplyRetryPolicy) (result : ResultEvent)
    (first : Option Application) : Advances (fun _ => True) (firstTimeout policy result first) := by
  unfold firstTimeout
  cases first with
  | none => trivial
  | some application =>
      dsimp only
      split_ifs
      · trivial
      · trivial
      · refine (advances_require _ _).bind fun _ _ => ?_
        exact (advances_require _ _).bind fun _ _ => Advances.send trivial fun _ => trivial
      · exact (advances_require _ _).bind fun _ _ => trivial

theorem advances_handleTimeoutResult (policy : ApplyRetryPolicy) (result : ResultEvent) :
    Advances (fun _ => True) (handleTimeoutResult policy result) := by
  refine Advances.send trivial fun attempt => ?_
  cases attempt with
  | none => trivial
  | some payload =>
      dsimp only
      cases decodeDeviceCommand payload with
      | error message => trivial
      | ok batch =>
          obtain ⟨commands, options⟩ := batch
          cases commands with
          | nil => trivial
          | cons front rest =>
              refine Advances.send trivial fun application => ?_
              cases application with
              | some metadata => exact advances_publishTimeout _ _ _
              | none =>
                  refine Advances.send trivial fun device => ?_
                  cases device with
                  | some metadata => exact advances_publishTimeout _ _ _
                  | none =>
                      refine Advances.send trivial fun first => ?_
                      refine (advances_firstTimeout policy result first).bind fun metadata _ => ?_
                      cases metadata with
                      | none => trivial
                      | some metadata => exact advances_publishTimeout _ _ _

theorem advances_processResultOne (policy : ApplyRetryPolicy) :
    Advances (fun _ => True) (processResultOne policy) := by
  refine (advances_nextMessage .results).bind fun message _ => ?_
  match message with
  | none => trivial
  | some (n, result) =>
      dsimp only
      split_ifs
      · exact (advances_handleTimeoutResult policy result).bind fun _ _ => advances_acknowledge _ n
      · refine Advances.send trivial fun application => ?_
        cases application with
        | none => exact advances_settleResult n result
        | some _ =>
            refine Advances.send trivial fun device => ?_
            cases device with
            | none => exact advances_settleResult n result
            | some _ =>
                exact (advances_clearAfterSuccess result).bind fun _ _ => advances_acknowledge _ n

theorem advances_retryApplications (retry : RetryEvent) (started : Bool)
    {hashes : List (String × Option Application)} (h : present hashes)
    (commands : List ConnectionCommand) :
    Advances (fun found => ∀ hashes, found = some hashes → present hashes)
      (retryApplications retry started hashes commands) := by
  induction commands generalizing hashes with
  | nil =>
      rintro _ ⟨⟩
      exact h
  | cons command rest ih =>
      refine Advances.send trivial fun existing => ?_
      cases existing with
      | none => exact fun _ hfound => by cases hfound
      | some application =>
          dsimp only
          split_ifs
          · exact ih (present_concat h _ _)
          · exact (advances_require _ _).bind fun _ _ => ih (present_concat h _ _)
          · exact fun _ hfound => by cases hfound

theorem advances_publishRetry (n : Nat) (retry : RetryEvent) (batch : DeviceCommandBatch)
    (started : Bool) : Advances (fun _ => True) (publishRetry n retry batch started) := by
  refine (advances_retryApplications retry started (by simp [present]) _).bind fun found hfound => ?_
  cases found with
  | none => exact advances_acknowledge _ n
  | some hashes =>
      refine (advances_publish fun _ => hfound _ rfl).bind fun _ _ => ?_
      refine (advances_publish fun _ => hfound _ rfl).bind fun _ _ => ?_
      refine Advances.send trivial fun _ => Advances.send trivial fun _ => ?_
      exact advances_acknowledge _ n

theorem advances_processRetryOne : Advances (fun _ => True) processRetryOne := by
  refine (advances_nextMessage .retries).bind fun message _ => ?_
  match message with
  | none => trivial
  | some (n, retry) =>
      refine Advances.send trivial fun now => ?_
      split_ifs
      · trivial
      cases decodeDeviceCommand retry.batch with
      | error message => exact Advances.raise
      | ok batch =>
          refine Advances.send trivial fun published => ?_
          cases published with
          | some _ => exact advances_acknowledge _ n
          | none =>
              refine Advances.send trivial fun application => ?_
              cases application with
              | some _ => exact advances_publishRetry n retry batch true
              | none => exact Advances.send trivial fun device => advances_publishRetry n retry batch _

/-- Whatever a program that advances has done so far, it led to a later moment. -/
theorem Advances.later {p : Service α} (hp : Advances Q p) (choices : List Nat) (w : World) :
    Later w (p.run exec choices w).2 := by
  suffices h : ∀ t, Later w t → Later w (p.run exec choices t).2 from h w .now
  induction p generalizing choices with
  | pure a => cases choices <;> exact fun t ht => ht
  | throw e => cases choices <;> exact fun t ht => ht
  | call o k ih =>
      intro t ht
      cases choices with
      | nil => exact ht
      | cons choice choices =>
          obtain ⟨ho, hk⟩ := hp
          cases o with
          | orch o => exact ih _ (hk _ trivial) choices _ (ht.call choice ho)
          | syncd o => exact ho.elim

end Advances

end MiniOcs.Orch
