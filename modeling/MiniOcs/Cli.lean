import MiniOcs.Concurrent.System
import MiniOcs.Concurrent.Triple
import MiniOcs.Gnmi.Linearizable
import MiniOcs.Orch.Agreement
import MiniOcs.Orch.Provenance
import MiniOcs.Syncd.Provenance

/-!
# Waiting for a connection

`_set_one` of `ocsctl`: a Set of one connection, and `wait_for_connection`, which polls the
published state until it is active. Any number of such clients run beside the services. A Set is
one step: its transaction is atomic. The revision that it commits is not part of its answer; the
statements about a call refer to it.
-/
namespace MiniOcs.Cli
open Std Concurrent

/-! ## Calls -/

inductive StatusCode where
  | invalidArgument
  | notFound
  | deadlineExceeded
  | unavailable
  | internal
  deriving DecidableEq, Repr

/-- `AioRpcError`. -/
structure RpcError where
  code : StatusCode
  details : String
  deriving DecidableEq, Repr

/-- `map_exception`. -/
def mapException : Gnmi.SetError → RpcError
  | .invalidArgument message => ⟨.invalidArgument, "invalid argument: " ++ message⟩
  | .notFound message => ⟨.notFound, "not found: " ++ message⟩
  | .conflict message => ⟨.invalidArgument, "configuration conflict: " ++ message⟩
  | .dependencyUnavailable message => ⟨.unavailable, "dependency unavailable: " ++ message⟩
  | .deadlineExceeded message => ⟨.deadlineExceeded, "deadline exceeded: " ++ message⟩
  | .unexpected _ => ⟨.internal, "internal error"⟩

/-- A call that gets no answer within its deadline. -/
def lostCall : RpcError := ⟨.deadlineExceeded, "Deadline Exceeded"⟩

structure SetResponse where
  timestampNs : Nat
  operations : List Gnmi.SetOperation
  revision : Option Nat
  deriving DecidableEq

/-- `since` is the revision that the caller waits for. -/
inductive CliOp where
  | service (o : Op)
  | set (plan : Gnmi.SetPlan) (timestampNs eventId : Nat)
  | getState (device : String) (id : String) (since : Option Nat)

abbrev CliOp.Reply : CliOp → Type
  | .service o => o.Reply
  | .set _ _ _ => Except RpcError SetResponse
  | .getState _ _ _ => Except RpcError ConnectionState

/-- CONFIG_DB after a Set, and the answer. An event id that is taken is no new uuid. -/
def setConfig (w : World) (plan : Gnmi.SetPlan) (timestampNs eventId : Nat) :
    Except RpcError SetResponse × World :=
  match Gnmi.evaluate w.inventory plan timestampNs w.config with
  | .error e => (.error (mapException e), w)
  | .ok candidate =>
      match Gnmi.commitSet w.inventory plan timestampNs eventId w.config with
      | some db => (.ok ⟨timestampNs, plan.operations, some candidate.revision⟩,
          { w with config := db })
      | none =>
          if candidate.changes.isEmpty then (.ok ⟨timestampNs, plan.operations, none⟩, w)
          else (.error lostCall, w)

/-- The choice 0 answers; else the call or, with the choice 1, its answer is lost. -/
def CliOp.exec : (o : CliOp) → Nat → World → o.Reply × World
  | .service o, choice, w => MiniOcs.exec o choice w
  | .set plan timestampNs eventId, choice, w =>
      let committed := setConfig w plan timestampNs eventId
      match choice with
      | 0 => committed
      | 1 => (.error lostCall, committed.2)
      | _ => (.error lostCall, w)
  | .getState device id _, choice, w =>
      if choice = 0 then
        match w.syncd.state[id]? with
        | some state => (.ok state, w)
        | none => (.error ⟨.notFound, "not found: connection state " ++ Gnmi.quoted device ++ "/" ++
            Gnmi.quoted id⟩, w)
      else (.error lostCall, w)

/-! ## The client -/

structure ConnectionSpec where
  connectionId : Gnmi.SafeId
  inputPort : Nat
  outputPort : Nat
  deriving DecidableEq

/-- What `_set_one` is called with, what the server draws for the Set, and how many rounds the
deadline leaves. -/
structure Request where
  device : String
  connection : ConnectionSpec
  replace : Bool
  waitActive : Bool := true
  requestId : Nat
  timestampNs : Nat
  eventId : Nat
  rounds : Nat
  deriving DecidableEq

structure SetResult where
  request : Request
  response : SetResponse
  state : Option ConnectionState := none
  deriving DecidableEq

inductive Answer where
  | handled (more : Bool)
  | set (result : SetResult)
  deriving DecidableEq

inductive Failure where
  | service (raised : Raised)
  | rpc (error : RpcError)
  | timeout (message : String)
  deriving DecidableEq, Repr

abbrev Client (α : Type) := Prog CliOp CliOp.Reply Failure α

/-- The one operation of the plan. -/
def Request.operation (request : Request) : Gnmi.SetOperation where
  kind := if request.replace then .replace else .update
  connectionId := request.connection.connectionId
  values := {
    inputPort := some request.connection.inputPort
    outputPort := some request.connection.outputPort
    adminStatus := some Gnmi.adminEnabled }

def Request.plan (request : Request) : Gnmi.SetPlan where
  device := request.device
  requestId := request.requestId
  operations := [request.operation]

def setConnections (request : Request) : Client SetResponse :=
  .call (.set request.plan request.timestampNs request.eventId) fun reply => match reply with
    | .ok response => .pure response
    | .error e => .throw (.rpc e)

def applyStatusText : ConnectionApplyStatus → String
  | .absent => "ABSENT"
  | .pendingCreate => "PENDING_CREATE"
  | .applying => "APPLYING"
  | .active => "ACTIVE"
  | .pendingUpdate => "PENDING_UPDATE"
  | .pendingDelete => "PENDING_DELETE"
  | .removing => "REMOVING"
  | .failed => "FAILED"
  | .retryWait => "RETRY_WAIT"
  | .drifted => "DRIFTED"
  | .reconciling => "RECONCILING"

def timeoutText (device id : String) (last : Option ConnectionState) : String :=
  "connection " ++ device ++ "/" ++ id ++ " did not reach ACTIVE; last=" ++
    match last with
    | some state => applyStatusText state.applyStatus
    | none => "MISSING"

/-- `last_state` after a Get: a missing state keeps the one before. -/
def lastState (last : Option ConnectionState) (reply : Except RpcError ConnectionState) :
    Except RpcError (Option ConnectionState) :=
  match reply with
  | .ok state => .ok (some state)
  | .error e => if e.code = .notFound then .ok last else .error e

def waitForConnection (device id : String) (since : Option Nat) (last : Option ConnectionState) :
    Nat → Client ConnectionState
  | 0 => .throw (.timeout (timeoutText device id last))
  | rounds + 1 => .call (.getState device id since) fun reply =>
      match lastState last reply with
      | .error e => .throw (.rpc e)
      | .ok none => waitForConnection device id since none rounds
      | .ok (some state) =>
          if state.applyStatus = .active then .pure state
          else waitForConnection device id since (some state) rounds

def setOne (request : Request) : Client Answer := do
  let response ← setConnections request
  if request.waitActive then
    let state ← waitForConnection request.device request.connection.connectionId.text
      response.revision none request.rounds
    .pure (.set ⟨request, response, some state⟩)
  else .pure (.set ⟨request, response, none⟩)

/-! ## The system -/

/-- A program of a service among the clients. -/
def embed : Service Bool → Client Answer
  | .pure more => .pure (.handled more)
  | .throw e => .throw (.service e)
  | .call o k => .call (.service o) fun r => embed (k r)

inductive Task where
  | orch (n : Nat)
  | syncd (n : Nat)
  | client (n : Nat)
  deriving DecidableEq

def Task.isClient : Task → Bool
  | .client _ => true
  | _ => false

/-- Other Sets commit, and the device is disturbed, reset or started again. -/
inductive Around (s : World) : World → Prop
  | commit {db : Gnmi.ConfigDb} : Gnmi.Commits s.inventory s.config db →
      Around s { s with config := db }
  | device {call : SimulatedOcsDevice.Call CommandId} {d : SimulatedOcsDevice CommandId} :
      (∀ commands options, call ≠ .applyConnections commands options) →
      call.run s.hwsim = .ok d → Around s { s with hwsim := d }
  | restart {info : DeviceInfo} {d : SimulatedOcsDevice CommandId} :
      SimulatedOcsDevice.construct info = some (.ok d) → Around s { s with hwsim := d }

/-- Any number of tasks of both services and of clients, from the empty databases. -/
def controlPlane (policy : Orch.ApplyRetryPolicy) (allow : CliOp → Nat → World → Prop) :
    System CliOp CliOp.Reply Failure Answer World Task where
  exec := CliOp.exec
  init w := ∃ inventory info hwsim, SimulatedOcsDevice.construct info = some (.ok hwsim) ∧
    w = { inventory := inventory, hwsim := hwsim }
  starts i w p := match i with
    | .orch _ => p = embed Orch.processConfigOne ∨ p = embed (Orch.processResultOne policy) ∨
        p = embed Orch.processRetryOne
    | .syncd _ => p = embed Syncd.initializeService ∨ p = embed Syncd.processOne ∨
        p = embed Syncd.pollDevice
    | .client _ => ∃ request : Request, request.device = w.inventory.device ∧ p = setOne request
  crash i w := match i with
    | .syncd _ => Syncd.forget w
    | _ => w
  env := Around
  allow _ := allow

/-- A poll does not meet an active state that was published for an older version. -/
def upToDate : CliOp → Nat → World → Prop
  | .getState _ id (some revision), _, w => ∀ state ∈ w.syncd.state[id]?,
      state.applyStatus = .active → revision ≤ state.desiredVersion
  | _, _, _ => True

instance decidableUpToDate : ∀ o choice w, Decidable (upToDate o choice w)
  | .service _, _, _ => isTrue trivial
  | .set _ _ _, _, _ => isTrue trivial
  | .getState _ _ none, _, _ => isTrue trivial
  | .getState _ id (some revision), _, w =>
      inferInstanceAs (Decidable (∀ state ∈ w.syncd.state[id]?,
        state.applyStatus = .active → revision ≤ state.desiredVersion))

/-! ## What a Set of one connection changes -/

/-- The working copy carries what the operation asks for. -/
theorem applyOperation_requested {request : Request} {current : Dict String Gnmi.ConnectionConfig}
    {timestampNs : Nat} {working working' : Dict String Gnmi.MutableConnection}
    (h : Gnmi.applyOperation current timestampNs working request.operation = .ok working') :
    ∃ m, working'.get? request.connection.connectionId.text = some m ∧
      m.inputPort = some request.connection.inputPort ∧
      m.outputPort = some request.connection.outputPort := by
  unfold Gnmi.applyOperation Request.operation at h
  dsimp only at h
  cases hkind : request.replace with
  | true =>
      simp only [hkind, if_true, Except.ok.injEq] at h
      subst h
      exact ⟨_, by rw [Dict.get?_set, if_pos rfl], rfl, rfl⟩
  | false =>
      simp only [hkind, Bool.false_eq_true, if_false, Except.ok.injEq] at h
      subst h
      refine ⟨_, by rw [Dict.get?_set, if_pos rfl], ?_, ?_⟩
      · simp [Gnmi.MutableConnection.update]
      · simp [Gnmi.MutableConnection.update]

theorem buildCandidate_requested {input : Gnmi.CandidateInput} {request : Request}
    {candidate : Gnmi.CandidateMutation} {table : Gnmi.ConnectionTable}
    (hkeyed : ∀ (id : String) (c : Gnmi.ConnectionConfig), table[id]? = some c →
      c.connectionId = id ∧ id ≠ "")
    (hload : input.current = Gnmi.ConnectionTable.load table)
    (hbuild : Gnmi.buildCandidate input request.plan = .ok candidate) :
    ∀ change ∈ candidate.changes, ∃ config, change.config = some config ∧
      config.inputPort = request.connection.inputPort ∧
      config.outputPort = request.connection.outputPort := by
  unfold Gnmi.buildCandidate at hbuild
  split_ifs at hbuild
  split at hbuild
  · cases hbuild
  rename_i working hwork
  dsimp only at hbuild
  split at hbuild
  · cases hbuild
  rename_i fin hfin
  cases hbuild
  have hids : ∀ entry ∈ working.entries, entry.1 ≠ "" := by
    rintro ⟨id, m⟩ hmem
    rcases Gnmi.ids_applyOperations hwork (Dict.get?_eq_some.mpr hmem) with ⟨m', hm'⟩ | ⟨op, -, rfl⟩
    · rw [Dict.get?_mapValues, hload, Gnmi.ConnectionTable.get?_load, Option.map_eq_some_iff] at hm'
      obtain ⟨c, hc, -⟩ := hm'
      exact (hkeyed id c hc).2
    · exact op.connectionId.ne_empty
  obtain ⟨m, hm, hin, hout⟩ : ∃ m,
      working.get? request.connection.connectionId.text = some m ∧
        m.inputPort = some request.connection.inputPort ∧
        m.outputPort = some request.connection.outputPort := by
    simp only [Request.plan, Gnmi.applyOperations] at hwork
    split at hwork
    · cases hwork
    · rename_i working' hone
      cases hwork
      exact applyOperation_requested hone
  obtain ⟨-, hmem, -⟩ := Gnmi.finalizeAll_ok working.nodup hids (Gnmi.Occupies.nil _) hfin
  obtain ⟨config, hconfig, hfinal⟩ := hmem _ m (Dict.get?_eq_some.mp hm)
  intro change hchange
  obtain ⟨id, hid, hch⟩ := List.mem_filterMap.mp hchange
  obtain ⟨-, hcfg, -⟩ := Gnmi.changeOf_id hch
  obtain ⟨operation, hoperation, rfl⟩ := Gnmi.mem_keys_touchedIds.mp hid
  simp only [Request.plan, List.mem_singleton] at hoperation
  subst hoperation
  have hport := hfinal.inputPort
  have hport' := hfinal.outputPort
  rw [hin, Option.some.injEq] at hport
  rw [hout, Option.some.injEq] at hport'
  exact ⟨config, hcfg.trans hconfig, hport.symm, hport'.symm⟩

/-- The revision stands in the log, and what it says of the connection is what was asked for. -/
def Committed (request : Request) (revision : Nat) (events : List Gnmi.ConfigEvent) : Prop :=
  ∃ event ∈ events, event.desiredVersion = revision ∧ ∀ c ∈ event.commands,
    c.inputPort = request.connection.inputPort ∧ c.outputPort = request.connection.outputPort

theorem committed_eventFields {inventory : Gnmi.Inventory} {db : Gnmi.ConfigDb}
    (hserial : Gnmi.Serial inventory db) {request : Request} {timestampNs eventId : Nat}
    {candidate : Gnmi.CandidateMutation}
    (h : Gnmi.evaluate inventory request.plan timestampNs db = .ok candidate) :
    Committed request candidate.revision (db.events ++ [Gnmi.eventFields request.plan eventId
      candidate.revision candidate.timestampNs candidate.changes]) := by
  refine ⟨_, List.mem_append_right _ (List.mem_singleton.mpr rfl), rfl, fun c hc => ?_⟩
  obtain ⟨change, hchange, rfl⟩ := List.mem_map.mp hc
  obtain ⟨counts, -, hbuild⟩ := Gnmi.evaluate_ok h
  obtain ⟨config, hconfig, hin, hout⟩ :=
    buildCandidate_requested hserial.valid.keyed rfl hbuild change hchange
  simp [Gnmi.eventCommand, hconfig, hin, hout]

/-! ## The contract of a task -/

theorem grounded_around {s t : World} (h : Grounded s) (ha : Around s t) :
    Grounded t ∧ Grows s t := by
  cases ha with
  | commit hc => exact h.commit hc
  | device hne hrun => exact ⟨h.disturb hne hrun, .of_eq rfl rfl⟩
  | restart hd => exact ⟨h.restart hd, .of_eq rfl rfl⟩

/-- A Set is refused, lost, finds nothing to change, or commits. -/
theorem setConfig_cases (w : World) (plan : Gnmi.SetPlan) (timestampNs eventId : Nat) :
    ((setConfig w plan timestampNs eventId).2 = w ∧ ∀ response,
      (setConfig w plan timestampNs eventId).1 = .ok response → response.revision = none) ∨
    ∃ candidate db, Gnmi.evaluate w.inventory plan timestampNs w.config = .ok candidate ∧
      Gnmi.commitSet w.inventory plan timestampNs eventId w.config = some db ∧
      setConfig w plan timestampNs eventId =
        (.ok ⟨timestampNs, plan.operations, some candidate.revision⟩, { w with config := db }) := by
  unfold setConfig
  cases heval : Gnmi.evaluate w.inventory plan timestampNs w.config with
  | error e => exact .inl ⟨rfl, nofun⟩
  | ok candidate =>
      dsimp only
      cases hset : Gnmi.commitSet w.inventory plan timestampNs eventId w.config with
      | some db => exact .inr ⟨candidate, db, rfl, rfl, rfl⟩
      | none =>
          dsimp only
          split_ifs
          · refine .inl ⟨rfl, ?_⟩
            rintro response ⟨⟩
            rfl
          · exact .inl ⟨rfl, nofun⟩

theorem grounded_setConfig {w : World} (h : Grounded w) (plan : Gnmi.SetPlan)
    (timestampNs eventId : Nat) : Grounded (setConfig w plan timestampNs eventId).2 ∧
      Grows w (setConfig w plan timestampNs eventId).2 := by
  rcases setConfig_cases w plan timestampNs eventId with ⟨heq, -⟩ | ⟨candidate, db, -, hset, heq⟩
  · rw [heq]
    exact ⟨h, .refl w⟩
  · rw [heq]
    exact h.commit (Gnmi.commits_commitSet hset)

theorem committed_setConfig {w : World} (h : Grounded w) {request : Request}
    {response : SetResponse} {revision : Nat}
    (hok : (setConfig w request.plan request.timestampNs request.eventId).1 = .ok response)
    (hrevision : response.revision = some revision) : Committed request revision
      (setConfig w request.plan request.timestampNs request.eventId).2.config.events := by
  rcases setConfig_cases w request.plan request.timestampNs request.eventId with
    ⟨-, hnone⟩ | ⟨candidate, db, heval, hset, heq⟩
  · rw [hnone response hok] at hrevision
    cases hrevision
  · rw [heq] at hok ⊢
    cases hok
    cases hrevision
    simp only [Gnmi.commitSet, heval] at hset
    split_ifs at hset
    cases hset
    exact committed_eventFields h.log.serial heval

/-- What a call asks for comes from the log. -/
def CliAsks (w : World) : CliOp → Prop
  | .service o => Asks w.config.events w.commands o
  | _ => True

def CliTold (w : World) : (o : CliOp) → o.Reply → Prop
  | .service o, reply => Told w.config.events w.commands o reply
  | _, _ => True

def contract (allow : CliOp → Nat → World → Prop) : Contract CliOp World where
  inv := Grounded
  rely := Grows
  guard o w := CliAsks w o
  allow := allow
  refl := .refl
  trans := .trans

theorem getState_world (device id : String) (since : Option Nat) (choice : Nat) (w : World) :
    (CliOp.exec (.getState device id since) choice w).2 = w := by
  simp only [CliOp.exec]
  split_ifs
  · split <;> rfl
  · rfl

/-- Every call that is made keeps the invariant. -/
theorem grounded_exec {w : World} (h : Grounded w) {o : CliOp} (ha : CliAsks w o) (choice : Nat) :
    Grounded (o.exec choice w).2 ∧ Grows w (o.exec choice w).2 := by
  cases o with
  | service o => exact ⟨h.exec ha choice, grows_exec o choice w⟩
  | set plan timestampNs eventId =>
      have hset := grounded_setConfig h plan timestampNs eventId
      rcases choice with _ | _ | choice
      · exact hset
      · exact hset
      · exact ⟨h, .refl w⟩
  | getState device id since =>
      rw [getState_world]
      exact ⟨h, .refl w⟩

/-! ## The services -/

theorem given_embed {w : World} {p : Service Bool} (h : Respects w.config.events w.commands p) :
    (embed p).Given (CliAsks w) (CliTold w) fun _ => True := by
  induction p with
  | pure more => trivial
  | throw e => trivial
  | call o k ih => exact ⟨h.1, fun r hr => ih r (h.2 r hr)⟩

theorem safe_embed {allow : CliOp → Nat → World → Prop} {p : Service Bool}
    (h : ∀ w, Grounded w → Respects w.config.events w.commands p) (s : World) :
    Safe CliOp.exec (contract allow) (fun _ _ => True) (embed p) s := by
  refine Safe.of_given (P := CliAsks) (R := CliTold) (fun _ _ _ ha => ha) ?_ ?_ ?_
  · intro t o choice ht ha _
    obtain ⟨-, hgrows⟩ := grounded_exec ht ha choice
    refine ⟨hgrows, ?_⟩
    cases o with
    | service o => exact (ht.told ha choice).mono hgrows.events hgrows.commands
    | _ => trivial
  · intro s t o r hst hr
    cases o with
    | service o => exact Told.mono hr hst.events hst.commands
    | _ => trivial
  · exact fun t ht _ => given_embed (h t ht)

theorem safe_services {allow : CliOp → Nat → World → Prop} (policy : Orch.ApplyRetryPolicy)
    {p : Client Answer} (h : (p = embed Orch.processConfigOne ∨
        p = embed (Orch.processResultOne policy) ∨ p = embed Orch.processRetryOne) ∨
      p = embed Syncd.initializeService ∨ p = embed Syncd.processOne ∨ p = embed Syncd.pollDevice)
    (s : World) : Safe CliOp.exec (contract allow) (fun _ _ => True) p s := by
  rcases h with (rfl | rfl | rfl) | rfl | rfl | rfl
  · exact safe_embed (fun w hw => Orch.respects_processConfigOne hw.definite) s
  · exact safe_embed (fun w _ => Orch.respects_processResultOne policy) s
  · exact safe_embed (fun w _ => Orch.respects_processRetryOne) s
  · exact safe_embed (fun w _ => Syncd.respects_initializeService) s
  · exact safe_embed (fun w hw => Syncd.respects_processOne hw.stream.issuable hw.stream.nodup) s
  · exact safe_embed (fun w _ => Syncd.respects_pollDevice) s

/-! ## The client -/

/-- No newer Set touches the connection. -/
def Untouched (events : List Gnmi.ConfigEvent) (revision : Nat) (id : String) : Prop :=
  ∀ event ∈ events, revision < event.desiredVersion → ∀ c ∈ event.commands, c.id ≠ id

/-- The state reports the change that was committed. -/
structure Reports (events : List Gnmi.ConfigEvent) (connection : ConnectionSpec) (revision : Nat)
    (state : ConnectionState) : Prop where
  active : state.applyStatus = .active
  version : revision ≤ state.appliedVersion
  ports : Untouched events revision connection.connectionId.text →
    state.inputPort = connection.inputPort ∧ state.outputPort = connection.outputPort

/-- What the answer of a client says of the revision that its Set committed. -/
def Reported (result : SetResult) (events : List Gnmi.ConfigEvent) : Prop :=
  ∀ revision state, result.response.revision = some revision → result.state = some state →
    Reports events result.request.connection revision state

/-- What a poll may return. -/
structure Shown (id : String) (since : Option Nat) (state : ConnectionState) (w : World) : Prop where
  active : state.applyStatus = .active
  vouched : Vouched w.config.events id state
  recent : ∀ revision, since = some revision → revision ≤ state.desiredVersion

theorem Shown.reports {w : World} (h : Grounded w) {request : Request} {revision : Nat}
    (hc : Committed request revision w.config.events) {state : ConnectionState}
    (hs : Shown request.connection.connectionId.text (some revision) state w) :
    Reports w.config.events request.connection revision state := by
  have hversion := hs.vouched.version hs.active
  have hle : revision ≤ state.appliedVersion := by
    rw [hversion]
    exact hs.recent revision rfl
  refine ⟨hs.active, hle, fun huntouched => ?_⟩
  obtain ⟨event, hmem, hclaim⟩ := hs.vouched.logged hs.active rfl
  obtain ⟨n, hn⟩ := List.mem_iff_getElem?.mp hmem
  obtain ⟨hevent, hcommands⟩ := h.log.serial.versions n event hn
  have happlied : state.appliedVersion = event.desiredVersion := by
    rw [hevent]
    exact hcommands _ hclaim
  have hnot : ¬revision < event.desiredVersion :=
    fun hlt => huntouched event hmem hlt _ hclaim rfl
  obtain ⟨event', hmem', hrevision, hports⟩ := hc
  have heq := h.event_unique hmem hmem' (by omega)
  subst heq
  exact hports _ hclaim

theorem Committed.mono {request : Request} {revision : Nat} {events events' : List Gnmi.ConfigEvent}
    (h : Committed request revision events) (hsub : events ⊆ events') :
    Committed request revision events' := by
  obtain ⟨event, hmem, hevent⟩ := h
  exact ⟨event, hsub hmem, hevent⟩

/-- What is known of the Set while its connection is polled. -/
def Awaited (request : Request) (since : Option Nat) (w : World) : Prop :=
  ∀ revision, since = some revision → Committed request revision w.config.events

theorem stable_awaited (request : Request) (since : Option Nat) :
    Stable (contract upToDate) (Awaited request since) :=
  fun _ _ h hst revision hrevision => (h revision hrevision).mono hst.events

theorem Shown.mono {id : String} {since : Option Nat} {state : ConnectionState} {s t : World}
    (h : Shown id since state s) (hst : Grows s t) : Shown id since state t :=
  ⟨h.active, h.vouched.mono hst.events, h.recent⟩

/-- A poll that may be made. -/
theorem getState_shown {w : World} (h : Grounded w) {device id : String} {since : Option Nat}
    {choice : Nat} (hallow : upToDate (.getState device id since) choice w)
    {state : ConnectionState}
    (hok : (CliOp.exec (.getState device id since) choice w).1 = .ok state)
    (hactive : state.applyStatus = .active) : Shown id since state w := by
  simp only [CliOp.exec] at hok
  split_ifs at hok
  split at hok
  · rename_i found hfound
    cases hok
    refine ⟨hactive, h.syncd.state id _ hfound, ?_⟩
    rintro revision rfl
    exact hallow _ hfound hactive
  · cases hok

theorem triple_waitForConnection (request : Request) (device id : String) (since : Option Nat)
    {last : Option ConnectionState} (hlast : ∀ state ∈ last, state.applyStatus ≠ .active)
    (rounds : Nat) : Triple CliOp.exec (contract upToDate) (Awaited request since)
      (waitForConnection device id since last rounds)
      (fun state w => Awaited request since w ∧ Shown id since state w) fun _ _ => True := by
  induction rounds generalizing last with
  | zero => exact Triple.throw (fun _ _ _ _ => trivial) fun _ _ => trivial
  | succ rounds ih =>
      refine Triple.call (fun reply w => Awaited request since w ∧ ∀ state, reply = .ok state →
        state.applyStatus = .active → Shown id since state w) (stable_awaited request since)
        (fun _ _ _ => trivial) (fun w choice hw hK hallow => ?_) fun reply => ?_
      · rw [getState_world]
        exact ⟨hK, fun state hok hactive => getState_shown hw hallow hok hactive⟩
      · have hagain : ∀ {last : Option ConnectionState},
            (∀ state ∈ last, state.applyStatus ≠ .active) → Triple CliOp.exec (contract upToDate)
            (fun w => Awaited request since w ∧ ∀ state, reply = .ok state →
              state.applyStatus = .active → Shown id since state w)
            (waitForConnection device id since last rounds)
            (fun state w => Awaited request since w ∧ Shown id since state w) fun _ _ => True :=
          fun hlast => (ih hlast).pre fun _ h => h.1
        cases reply with
        | error e =>
            by_cases hcode : e.code = .notFound
            · cases last with
              | none => simpa only [lastState, hcode, if_true] using hagain hlast
              | some state =>
                  simpa only [lastState, hcode, if_true, hlast state rfl, if_false] using
                    hagain hlast
            · simp only [lastState, hcode, if_false]
              exact Triple.throw (fun _ _ _ _ => trivial) fun _ _ => trivial
        | ok state =>
            simp only [lastState]
            split_ifs with hactive
            · refine Triple.pure (fun s t h hst => ⟨?_, h.2.mono hst⟩) fun w h =>
                ⟨h.1, h.2 state rfl hactive⟩
              exact stable_awaited request since s t h.1 hst
            · exact hagain fun state' hmem => by cases hmem; exact hactive

theorem triple_setConnections (request : Request) :
    Triple CliOp.exec (contract upToDate) (fun _ => True) (setConnections request)
      (fun response => Awaited request response.revision) fun _ _ => True := by
  refine Triple.call (fun reply w => ∀ response, reply = .ok response →
    Awaited request response.revision w) (fun _ _ _ _ => trivial) (fun _ _ _ => trivial)
    (fun w choice hw _ _ => ?_) fun reply => ?_
  · rcases choice with _ | _ | choice
    · intro response hok revision hrevision
      exact committed_setConfig hw hok hrevision
    · exact nofun
    · exact nofun
  · cases reply with
    | error e => exact Triple.throw (fun _ _ _ _ => trivial) fun _ _ => trivial
    | ok response =>
        exact Triple.pure (stable_awaited request response.revision) fun w h => h response rfl

/-- What stays known of an answer. -/
structure Backed (result : SetResult) (w : World) : Prop where
  awaited : Awaited result.request result.response.revision w
  shown : ∀ state, result.state = some state →
    Shown result.request.connection.connectionId.text result.response.revision state w

theorem stable_backed (result : SetResult) : Stable (contract upToDate) (Backed result) :=
  fun s t h hst => ⟨stable_awaited _ _ s t h.awaited hst,
    fun state hstate => (h.shown state hstate).mono hst⟩

theorem Backed.reported {result : SetResult} {w : World} (h : Backed result w) (hw : Grounded w) :
    Reported result w.config.events := by
  intro revision state hrevision hstate
  have hshown := h.shown state hstate
  rw [hrevision] at hshown
  exact hshown.reports hw (h.awaited revision hrevision)

theorem triple_setOne (request : Request) :
    Triple CliOp.exec (contract upToDate) (fun _ => True) (setOne request)
      (fun answer w => ∀ result, answer = .set result → Backed result w) fun _ _ => True := by
  have hdone : ∀ {K : World → Prop} (result : SetResult), (∀ w, K w → Backed result w) →
      Triple CliOp.exec (contract upToDate) K (.pure (.set result) : Client Answer)
        (fun answer w => ∀ result, answer = .set result → Backed result w) fun _ _ => True := by
    intro K result h
    refine Triple.pure (fun s t hs hst => ?_) fun w hw => ?_
    · rintro result ⟨⟩
      exact stable_backed _ s t (hs _ rfl) hst
    · rintro result ⟨⟩
      exact h w hw
  refine (triple_setConnections request).bind fun response => ?_
  split_ifs with hwait
  · refine Triple.bind (triple_waitForConnection request _ _ _ (by simp) _) fun state => ?_
    refine hdone _ fun w h => ⟨h.1, ?_⟩
    rintro state' ⟨⟩
    exact h.2
  · exact hdone _ fun w h => ⟨h, nofun⟩

theorem safe_setOne (request : Request) (s : World) :
    Safe CliOp.exec (contract upToDate)
      (fun r t => ∀ result, r = .ok (.set result) → Reported result t.config.events)
      (setOne request) s := by
  refine (triple_setOne request s trivial).weaken fun r t ht hr => ?_
  rintro result rfl
  exact (hr result rfl).reported ht

/-! ## Every run -/

theorem controlPlane_verified (policy : Orch.ApplyRetryPolicy) :
    Verified (controlPlane policy upToDate) Grounded (fun _ => contract upToDate)
      fun i _ r t => i.isClient = true →
        ∀ result, r = .ok (.set result) → Reported result t.config.events where
  inv _ _ h := h
  allow _ _ _ _ h := h
  init := by
    rintro w ⟨inventory, info, hwsim, hconstruct, rfl⟩
    exact .init hconstruct
  starts i s p _ hp := by
    cases i with
    | orch n => exact (safe_services policy (.inl hp) s).weaken fun _ _ _ _ => nofun
    | syncd n => exact (safe_services policy (.inr hp) s).weaken fun _ _ _ _ => nofun
    | client n =>
        obtain ⟨request, -, rfl⟩ := hp
        exact (safe_setOne request s).weaken fun _ _ _ h _ => h
  call _ o choice s hs hguard _ := by
    obtain ⟨hgrounded, hgrows⟩ := grounded_exec hs hguard choice
    exact ⟨hgrounded, fun _ _ => hgrows⟩
  crash i s hs _ := by
    cases i with
    | syncd n => exact ⟨hs.setSyncd rfl hs.syncd.state, fun _ _ => .of_eq rfl rfl⟩
    | _ => exact ⟨hs, fun _ _ => .refl s⟩
  env s t hs ht := by
    obtain ⟨hgrounded, hgrows⟩ := grounded_around hs ht
    exact ⟨hgrounded, fun _ => hgrows⟩

/-- A replace of connection `a`. -/
def replaceA (number outputPort : Nat) (waitActive : Bool) : Request where
  device := "ocs1"
  connection := { connectionId := Gnmi.idA, inputPort := 1, outputPort := outputPort }
  replace := true
  waitActive := waitActive
  requestId := number
  timestampNs := number
  eventId := number
  rounds := 2

def clock : CliOp → Nat
  | .service (.syncd .now) => 1
  | _ => 0

/-- A task alone, with every call answered. -/
def ranAlone (p : Client Answer) (calls : Nat) (w : World) : Client Answer × World :=
  p.run CliOp.exec (p.schedule CliOp.exec clock calls w) w

/-- The services take up what is committed. -/
def servedBy (w : World) : World :=
  (ranAlone (embed Syncd.processOne) 150 (ranAlone (embed Syncd.initializeService) 150
    (ranAlone (embed Orch.processConfigOne) 150 w).2).2).2

section Runs

variable (allow : CliOp → Nat → World → Prop)

theorem reachable_smallWorld :
    Reachable (controlPlane {} allow) ⟨Orch.smallWorld, fun _ => none⟩ :=
  .init ⟨_, Orch.smallDevice.info, Orch.smallDevice, rfl, rfl⟩

variable {allow}

theorem ranAlone_complete {w : World} {procs : Task → Option (Running CliOp CliOp.Reply Failure
      Answer World)} (h : Reachable (controlPlane {} allow) ⟨w, procs⟩) {i : Task}
    (hi : procs i = none) {p : Client Answer} (hp : (controlPlane {} allow).starts i w p)
    (hallow : p.along CliOp.exec allow (p.schedule CliOp.exec clock 150 w) w) {a : Answer}
    (hend : (ranAlone p 150 w).1.outcome? = some (.ok a)) :
    Reachable (controlPlane {} allow) ⟨(ranAlone p 150 w).2, procs⟩ :=
  h.complete hi hp _ hallow hend

/-- One client is there, and no service. -/
def besides (since : World) (p : Client Answer) :
    Task → Option (Running CliOp CliOp.Reply Failure Answer World) :=
  Function.update (fun _ => none) (.client 0) (some ⟨since, p⟩)

theorem besides_self (since : World) (p : Client Answer) :
    besides since p (.client 0) = some ⟨since, p⟩ := Function.update_self _ _ _

theorem ranAlone_started {w : World}
    (h : Reachable (controlPlane {} allow) ⟨w, fun _ => none⟩) (request : Request)
    (hdevice : request.device = w.inventory.device) (calls : Nat)
    (hallow : (setOne request).along CliOp.exec allow
      ((setOne request).schedule CliOp.exec clock calls w) w) :
    Reachable (controlPlane {} allow) ⟨(ranAlone (setOne request) calls w).2,
      besides w (ranAlone (setOne request) calls w).1⟩ :=
  h.startRun (i := .client 0) rfl ⟨request, hdevice, rfl⟩ _ hallow

theorem ranAlone_resumed {since w : World} {p : Client Answer}
    (h : Reachable (controlPlane {} allow) ⟨w, besides since p⟩) (calls : Nat)
    (hallow : p.along CliOp.exec allow (p.schedule CliOp.exec clock calls w) w) :
    Reachable (controlPlane {} allow) ⟨(ranAlone p calls w).2,
      besides since (ranAlone p calls w).1⟩ := by
  have hrun := h.run (i := .client 0) (besides_self since p) _ hallow
  simp only [besides, Function.update_idem] at hrun
  exact hrun

theorem servedBy_reachable {w : World}
    {procs : Task → Option (Running CliOp CliOp.Reply Failure Answer World)}
    (h : Reachable (controlPlane {} allow) ⟨w, procs⟩) (horch : procs (.orch 0) = none)
    (hsyncd : procs (.syncd 0) = none) (hservice : ∀ o choice w, allow (.service o) choice w)
    (hdone : (ranAlone (embed Orch.processConfigOne) 150 w).1.outcome? =
      some (.ok (.handled true)))
    (hinit : (ranAlone (embed Syncd.initializeService) 150
      (ranAlone (embed Orch.processConfigOne) 150 w).2).1.outcome? = some (.ok (.handled true)))
    (happlied : (ranAlone (embed Syncd.processOne) 150 (ranAlone (embed Syncd.initializeService) 150
      (ranAlone (embed Orch.processConfigOne) 150 w).2).2).1.outcome? =
        some (.ok (.handled true))) :
    Reachable (controlPlane {} allow) ⟨servedBy w, procs⟩ := by
  have halong : ∀ (p : Service Bool) (cs : List Nat) (w : World),
      (embed p).along CliOp.exec allow cs w := by
    intro p
    induction p with
    | pure more => intro cs w; cases cs <;> trivial
    | throw e => intro cs w; cases cs <;> trivial
    | call o k ih =>
        intro cs w
        cases cs with
        | nil => trivial
        | cons choice cs => exact ⟨hservice o choice w, ih _ _ _⟩
  have hconfig := ranAlone_complete h horch (.inl rfl) (halong _ _ _) hdone
  have hstarted := ranAlone_complete hconfig hsyncd (.inl rfl) (halong _ _ _) hinit
  exact ranAlone_complete hstarted hsyncd (.inr (.inl rfl)) (halong _ _ _) happlied

end Runs

/-- Connection `a` is active at the first version. -/
def firstActive : World := servedBy (ranAlone (setOne (replaceA 0 1 false)) 150 Orch.smallWorld).2

def olderResult : SetResult where
  request := replaceA 1 2 true
  response := ⟨1, (replaceA 1 2 true).plan.operations, some 2⟩
  state := some {
    id := "a"
    inputPort := 1
    outputPort := 1
    desiredVersion := 1
    appliedVersion := 1
    actualPresent := true
    applyStatus := .active
    lastErrorCode := some .ok
    lastErrorMessage := "" }

/-- The Set of a client is served before its first poll. -/
def firstSet : Client Answer × World := ranAlone (setOne (replaceA 0 1 true)) 1 Orch.smallWorld

def firstResult : SetResult where
  request := replaceA 0 1 true
  response := ⟨0, (replaceA 0 1 true).plan.operations, some 1⟩
  state := olderResult.state

end MiniOcs.Cli
