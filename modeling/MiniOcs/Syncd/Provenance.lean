import MiniOcs.Provenance
import MiniOcs.Syncd.Poll

/-!
# Syncd vouches for what it publishes as active

The command handler and the poll publish a connection as active only at the ports and the version
of an upsert of the log. The log and the command stream are those of some later moment.
-/
namespace MiniOcs.Syncd
open Concurrent

section

variable {events : List Gnmi.ConfigEvent} {commands : List CommandEvent} {α : Type}

/-! ## Rules -/

theorem Passes.send {Q : α → Prop} {o : SyncdOp} {k : o.Reply → Service α}
    (ha : SyncdAsks events commands o)
    (hk : ∀ r, SyncdTold events commands o r → Passes events commands Q (k r)) :
    Passes events commands Q (Syncd.send o >>= k) := ⟨ha, hk⟩

theorem Passes.last {o : SyncdOp} {Q : o.Reply → Prop} (ha : SyncdAsks events commands o)
    (hQ : ∀ r, SyncdTold events commands o r → Q r) :
    Passes events commands Q (Syncd.send o) := ⟨ha, hQ⟩

theorem Respects.last {o : SyncdOp} (ha : SyncdAsks events commands o) :
    Respects events commands (Syncd.send o) := ⟨ha, fun _ _ => trivial⟩

theorem Passes.raise {Q : α → Prop} {e : Raised} :
    Passes events commands Q (Syncd.raise e : Service α) := ⟨trivial, fun _ _ => trivial⟩

theorem respects_markedDelta (delta : Option Int) :
    Respects events commands (markedDelta delta) := by
  cases delta with
  | none => exact Passes.raise
  | some delta => trivial

theorem respects_publishedDelta {published : Bool} {delta : Int} {marker : Service (Option Int)}
    (h : Respects events commands marker) :
    Respects events commands (publishedDelta published delta marker) := by
  unfold publishedDelta
  split_ifs
  · trivial
  · exact h.bind fun marked _ => respects_markedDelta marked

theorem respects_readOrRaise (reply : Except String α) :
    Respects events commands (readOrRaise reply) := by
  cases reply with
  | error message => exact Passes.raise
  | ok value => trivial

theorem respects_acknowledge (n : Nat) : Respects events commands (acknowledge n) := by
  refine Passes.send trivial fun acknowledged _ => ?_
  split_ifs
  · trivial
  · exact Passes.raise

/-! ## Applying a command -/

/-- A command of the stream and the batch it is processed with. -/
structure Delivered (events : List Gnmi.ConfigEvent) (commands : List CommandEvent)
    (event : CommandEvent) (batch : DeviceCommandBatch) : Prop where
  issuable : ∀ event ∈ commands, Issuable events event
  nodup : (commands.map (·.id)).Nodup
  mem : event ∈ commands
  decoded : batch.commands = event.payload.commands
  operation : batch.options.operationId = some event.id

variable {event : CommandEvent} {batch : DeviceCommandBatch}

theorem Delivered.sourced (h : Delivered events commands event batch) :
    Sourced events batch.commands := by
  rw [h.decoded]
  exact (h.issuable event h.mem).sourced

theorem Delivered.issued (h : Delivered events commands event batch) :
    Issued commands event.id batch.commands :=
  ⟨event, h.mem, rfl, h.decoded.symm⟩

/-- The answer to a command confirms the batch it is processed with. -/
theorem Delivered.confirms (h : Delivered events commands event batch) {result : ApplyResult}
    (ha : Answers commands event.id result) (hok : result.isOk = true) :
    Confirms batch.commands result := by
  obtain ⟨_, ⟨event', hmem, hid, rfl⟩, hconfirms⟩ := ha hok
  rwa [List.inj_on_of_nodup_map h.nodup hmem h.mem hid, ← h.decoded] at hconfirms

theorem passes_nextCommand : Passes events commands
    (fun message => ∀ n event, message = some (n, event) → event ∈ commands) nextCommand := by
  refine Passes.send trivial fun candidate _ => ?_
  cases candidate with
  | none => exact Passes.last trivial fun _ h => h
  | some n =>
      refine Passes.send trivial fun claimed hclaimed => ?_
      cases claimed with
      | none => exact Passes.last trivial fun _ h => h
      | some event =>
          intro n' event' heq
          cases heq
          exact hclaimed event rfl

/-- A connection was found at the version of an upsert. -/
def FoundFor (batch : List ConnectionCommand) (x : AppliedConnection) : Prop :=
  ∃ c ∈ batch, x.id = c.id ∧ x.appliedVersion = c.desiredVersion

theorem passes_confirmMembers {batch : List ConnectionCommand} (actual : List AppliedConnection)
    {confirmed : List AppliedConnection} (rest : List ConnectionCommand) (hsub : rest ⊆ batch)
    (h : ∀ x ∈ confirmed, FoundFor batch x) : Passes events commands
      (fun r => ∀ l, r = some l → ∀ x ∈ l, FoundFor batch x)
      (confirmMembers actual confirmed rest) := by
  induction rest generalizing confirmed with
  | nil =>
      rintro l ⟨⟩
      exact h
  | cons command rest ih =>
      have hrest : rest ⊆ batch := fun c hc => hsub (List.mem_cons_of_mem _ hc)
      unfold confirmMembers
      dsimp only
      cases hop : command.operation with
      | remove =>
          cases hfind : actual.find? fun connection => connection.id = command.id with
          | some connection => nofun
          | none => exact ih hrest h
      | upsert =>
          cases hfind : actual.find? fun connection => connection.id = command.id with
          | none => nofun
          | some connection =>
              dsimp only
              split_ifs with happlies
              · nofun
              refine Passes.send trivial fun input _ => ?_
              cases input with
              | error message => nofun
              | ok input =>
                  refine Passes.send trivial fun output _ => ?_
                  cases output with
                  | error message => nofun
                  | ok output =>
                      dsimp only
                      split_ifs
                      · nofun
                      refine ih hrest fun x hx => ?_
                      rcases List.mem_append.mp hx with hx | hx
                      · exact h x hx
                      · cases List.mem_singleton.mp hx
                        refine ⟨command, hsub List.mem_cons_self, by simpa using List.find?_some hfind, ?_⟩
                        simp only [applies, Bool.not_eq_true, Bool.not_eq_false', Bool.and_eq_true,
                          decide_eq_true_eq] at happlies
                        exact happlies.2

theorem confirms_of_found {batch : List ConnectionCommand} (hdef : Definite batch)
    {connections : List AppliedConnection} (h : ∀ x ∈ connections, FoundFor batch x)
    (error : Error) : Confirms batch ⟨error, connections⟩ := by
  intro c hc hop applied hfind
  obtain ⟨c', hc', hid, hversion⟩ := h applied (List.mem_of_find?_eq_some hfind)
  have heq : applied.id = c.id := by simpa using List.find?_some hfind
  rw [hversion, hdef c hc hop c' hc' (hid.symm.trans heq)]

theorem passes_confirmAppliedResult (hdef : Definite batch.commands) {result : ApplyResult}
    (h : result.isOk = true → Confirms batch.commands result) : Passes events commands
      (fun result => result.isOk = true → Confirms batch.commands result)
      (confirmAppliedResult batch result) := by
  unfold confirmAppliedResult
  split_ifs
  · exact h
  refine Passes.send trivial fun actual _ => ?_
  cases actual with
  | error message => exact h
  | ok actual =>
      refine (passes_confirmMembers actual batch.commands (List.Subset.refl _) (by simp)).bind
        fun confirmed hconfirmed => ?_
      cases confirmed with
      | none => exact h
      | some connections =>
          exact fun _ => confirms_of_found hdef (hconfirmed connections rfl) _

theorem passes_applyCommand (h : Delivered events commands event batch) : Passes events commands
    (fun result => result.isOk = true → Confirms batch.commands result)
    (applyCommand event batch) := by
  refine Passes.send trivial fun info _ => ?_
  cases info with
  | error message => exact fun hok => absurd hok (by simp [refused, ApplyResult.isOk, Error.isOk])
  | ok info =>
      refine Passes.send trivial fun _ _ => ?_
      split_ifs
      · exact fun hok => absurd hok (by simp [refused, ApplyResult.isOk, Error.isOk])
      refine Passes.send ⟨event.id, h.operation, h.issued⟩ fun reply hreply => ?_
      have hresult : (appliedResult reply).isOk = true →
          Confirms batch.commands (appliedResult reply) := by
        intro hok
        cases reply with
        | error message => exact absurd hok (by simp [appliedResult, refused, ApplyResult.isOk, Error.isOk])
        | ok result => exact hreply result rfl hok
      unfold confirmAttempt
      split_ifs
      · exact hresult
      · exact passes_confirmAppliedResult h.sourced.definite hresult

/-! ## Publishing a command -/

theorem vouched_of_inactive {id : String} {state : ConnectionState}
    (h : state.applyStatus ≠ .active) : Vouched events id state :=
  ⟨fun hactive => absurd hactive h, fun hactive => absurd hactive h⟩

theorem vouched_appliedState {c : ConnectionCommand} (hop : c.operation = .upsert)
    (hlogged : Logged events c) (result : ApplyResult) {applied : AppliedConnection}
    (hversion : applied.appliedVersion = c.desiredVersion) :
    Vouched events c.id (appliedState c result applied) := by
  have hclaim : (appliedState c result applied).claim c.id = c := by
    obtain ⟨operation, id, inputPort, outputPort, version⟩ := c
    cases hop
    simp [appliedState, ConnectionState.claim, hversion]
  refine ⟨fun _ => hversion, fun _ => ?_⟩
  rw [hclaim]
  exact hlogged

theorem respects_replaceMemberState (event : CommandEvent) (c : ConnectionCommand)
    (before after : Bool) (operation : ConnectionOperation) {state : Option ConnectionState}
    (h : ∀ value, state = some value → Vouched events c.id value) :
    Respects events commands (replaceMemberState event c before after operation state) := by
  refine Passes.send ⟨trivial, h⟩ fun published _ => ?_
  split_ifs
  · trivial
  · exact Passes.send trivial fun marker _ => respects_markedDelta _

theorem respects_publishMemberState (h : Delivered events commands event batch) {result : ApplyResult}
    (hresult : result.isOk = true → Confirms batch.commands result) {c : ConnectionCommand}
    (hc : c ∈ batch.commands) (previous : Option ConnectionState) :
    Respects events commands (publishMemberState event result c previous) := by
  unfold publishMemberState
  dsimp only
  split_ifs with hok
  · cases hop : c.operation with
    | remove =>
        exact respects_replaceMemberState event c _ _ _ nofun
    | upsert =>
        dsimp only
        cases hfind : result.connections.find? fun item => item.id = c.id with
        | none => exact Passes.raise
        | some applied =>
            refine respects_replaceMemberState event c _ _ _ ?_
            rintro value ⟨⟩
            exact vouched_appliedState hop (h.sourced.logged c hc) result
              (hresult hok c hc hop applied hfind)
  · refine Passes.send trivial fun state _ => ?_
    refine respects_replaceMemberState event c _ _ _ ?_
    rintro value ⟨⟩
    exact vouched_of_inactive (by simp [failedState])

theorem respects_skipMemberState (event : CommandEvent) (c : ConnectionCommand)
    (marker : StatePublication) :
    Respects events commands (skipMemberState event c marker) := by
  refine Passes.send trivial fun _ _ => ?_
  exact Passes.send trivial fun marker _ => respects_markedDelta _

theorem respects_publishMember (h : Delivered events commands event batch) {result : ApplyResult}
    (hresult : result.isOk = true → Confirms batch.commands result) {c : ConnectionCommand}
    (hc : c ∈ batch.commands) : Respects events commands (publishMember event result c) := by
  refine Passes.send trivial fun published _ => ?_
  cases published with
  | some marker => trivial
  | none =>
      refine Passes.send trivial fun previous _ => ?_
      split_ifs
      · exact respects_skipMemberState event c _
      · split
        · exact Passes.raise
        · exact respects_skipMemberState event c _
        · exact respects_publishMemberState h hresult hc previous

theorem respects_publishState (h : Delivered events commands event batch) {result : ApplyResult}
    (hresult : result.isOk = true → Confirms batch.commands result) (total : Int)
    {rest : List ConnectionCommand} (hsub : rest ⊆ batch.commands) :
    Respects events commands (publishState event result total rest) := by
  induction rest generalizing total with
  | nil => trivial
  | cons c rest ih =>
      refine (respects_publishMember h hresult (hsub List.mem_cons_self)).bind fun delta _ => ?_
      exact ih _ fun c' hc' => hsub (List.mem_cons_of_mem _ hc')

theorem respects_publishMemberResults (event : CommandEvent) (result : ApplyResult)
    (batch : List ConnectionCommand) :
    Respects events commands (publishMemberResults event result batch) := by
  induction batch with
  | nil => trivial
  | cons c rest ih =>
      refine Passes.send trivial fun marker _ => ?_
      exact Passes.send trivial fun _ _ => ih

theorem respects_publishResult (event : CommandEvent) (batch : DeviceCommandBatch)
    (result : ApplyResult) : Respects events commands (publishResult event batch result) := by
  unfold publishResult
  split_ifs
  · exact Passes.send trivial fun _ _ => trivial
  · exact respects_publishMemberResults event result batch.commands

/-- Hashes that anybody may write. -/
abbrev Free (entries : List SyncdEntry) : Prop :=
  ∀ entry ∈ entries, ∀ events commands, SyncdHashOk events commands entry.1 entry.2

theorem free_nil : Free [] := fun _ hmem => absurd hmem List.not_mem_nil

theorem Free.append {entries entries' : List SyncdEntry} (h : Free entries) (h' : Free entries') :
    Free (entries ++ entries') := by
  intro entry hmem
  rcases List.mem_append.mp hmem with hmem | hmem
  · exact h entry hmem
  · exact h' entry hmem

theorem passes_versionEntries (generation : Nat) {entries : List SyncdEntry} (h : Free entries)
    (batch : List ConnectionCommand) :
    Passes events commands Free (versionEntries generation entries batch) := by
  induction batch generalizing entries with
  | nil => exact h
  | cons c rest ih =>
      refine Passes.send trivial fun existing _ => ?_
      split_ifs
      · exact ih h
      · refine ih (h.append fun entry hmem => ?_)
        cases List.mem_singleton.mp hmem
        exact fun _ _ => trivial

theorem respects_loadPortFaults (faults : List ((PortDirection × Nat) × PortFault))
    (keys : List (PortDirection × Nat)) :
    Respects events commands (loadPortFaults faults keys) := by
  induction keys generalizing faults with
  | nil => trivial
  | cons key rest ih =>
      refine Passes.send trivial fun fault _ => ?_
      cases fault with
      | none => exact ih _
      | some fault => exact ih _

theorem respects_portFaults : Respects events commands portFaults :=
  Passes.send trivial fun keys _ => respects_loadPortFaults [] keys

theorem free_portFaults (faults : List ((PortDirection × Nat) × PortFault))
    (update : (PortDirection × Nat) × PortFault → PortFault) :
    Free (faults.map fun fault => portFaultEntry (fault.1, update fault)) := by
  intro entry hmem
  obtain ⟨fault, -, rfl⟩ := List.mem_map.mp hmem
  exact fun _ _ => trivial

theorem free_controlEntry (command : CommandId) (applied : Bool)
    (control : Option ReconciliationControl) : Free (controlEntry command applied control) := by
  unfold controlEntry
  cases control with
  | none => exact free_nil
  | some control =>
      dsimp only
      split
      · intro entry hmem
        cases List.mem_singleton.mp hmem
        exact fun _ _ => trivial
      · exact free_nil

theorem passes_markReconciliation (event : CommandEvent) (applied : Bool) :
    Passes events commands Free (markReconciliation event applied) := by
  unfold markReconciliation
  split_ifs
  · exact free_nil
  · refine Passes.send trivial fun control _ => ?_
    refine Passes.send trivial fun _ _ => ?_
    exact respects_portFaults.bind fun faults _ =>
      (free_controlEntry _ _ control).append (free_portFaults _ _)
  · exact Passes.send trivial fun control _ => free_controlEntry _ _ control

theorem respects_markProcessed (event : CommandEvent) (batch : DeviceCommandBatch)
    (applied : Bool) : Respects events commands (markProcessed event batch applied) := by
  refine Passes.send trivial fun memory _ => ?_
  have hversions : Passes events commands Free
      (appliedVersions memory.2 batch.commands applied) := by
    unfold appliedVersions
    split_ifs
    · exact passes_versionEntries memory.2 free_nil batch.commands
    · exact free_nil
  refine hversions.bind fun versions hfree => ?_
  refine (passes_markReconciliation event applied).bind fun reconciliation hfree' => ?_
  refine Respects.last fun entry hmem => ?_
  rcases List.mem_cons.mp hmem with rfl | hmem
  · trivial
  · exact (Free.append hfree hfree') entry hmem _ _

/-! ## Commands -/

theorem respects_finishCommand (n : Nat) (h : Delivered events commands event batch)
    {stored : StoredResult} (ha : Answers commands event.id stored.result) :
    Respects events commands (finishCommand n event batch stored) := by
  refine (respects_publishState h (h.confirms ha) 0 (List.Subset.refl _)).bind fun delta _ => ?_
  refine Passes.send trivial fun _ _ => ?_
  refine (respects_publishResult event batch stored.result).bind fun _ _ => ?_
  exact (respects_markProcessed event batch _).bind fun _ _ => respects_acknowledge n

theorem respects_attemptCommand (n : Nat) (h : Delivered events commands event batch) :
    Respects events commands (attemptCommand n event batch) := by
  refine Passes.send h.sourced fun _ _ => ?_
  refine (passes_applyCommand h).bind fun result hresult => ?_
  refine Passes.send trivial fun latencyMs _ => ?_
  refine Passes.send (fun hok => ⟨_, h.issued, hresult hok⟩) fun _ _ => ?_
  refine Passes.send trivial fun stored hstored => ?_
  cases stored with
  | none => exact Passes.raise
  | some stored => exact respects_finishCommand n h (hstored stored rfl)

theorem respects_allSuperseded (generation : Nat) (batch : List ConnectionCommand) :
    Respects events commands (allSuperseded generation batch) := by
  induction batch with
  | nil => trivial
  | cons c rest ih =>
      refine Passes.send trivial fun version _ => ?_
      split_ifs
      · exact ih
      · trivial

theorem respects_isStaleVersion (event : CommandEvent) (batch : DeviceCommandBatch) :
    Respects events commands (isStaleVersion event batch) := by
  unfold isStaleVersion
  split_ifs
  · trivial
  · exact Passes.send trivial fun memory _ => respects_allSuperseded memory.2 batch.commands

theorem respects_startCommand (n : Nat) (h : Delivered events commands event batch) :
    Respects events commands (startCommand n event batch) := by
  refine Passes.send trivial fun stored hstored => ?_
  cases stored with
  | some stored => exact respects_finishCommand n h (hstored stored rfl)
  | none =>
      refine Passes.send trivial fun attempt _ => ?_
      cases attempt with
      | some _ => exact respects_attemptCommand n h
      | none =>
          refine (respects_isStaleVersion event batch).bind fun stale _ => ?_
          split_ifs
          · exact (respects_markProcessed event batch false).bind fun _ _ => respects_acknowledge n
          · exact respects_attemptCommand n h

/-- Whatever was issued decodes to itself, so no command is malformed. -/
theorem respects_processOne (hissuable : ∀ event ∈ commands, Issuable events event)
    (hnodup : (commands.map (·.id)).Nodup) : Respects events commands processOne := by
  refine passes_nextCommand.bind fun message hmessage => ?_
  match message with
  | none => trivial
  | some (n, event) =>
      have hmem := hmessage n event rfl
      refine Passes.send trivial fun processed _ => ?_
      cases processed with
      | some _ => exact respects_acknowledge n
      | none =>
          simp only [(hissuable event hmem).decodes]
          exact respects_startCommand n ⟨hissuable, hnodup, hmem, rfl, rfl⟩

/-! ## Ports and the device -/

theorem respects_countAlarm (activation : ActivationId) (clear : Bool)
    (increments : List (CounterField × Int)) :
    Respects events commands (countAlarm activation clear increments) :=
  Passes.send trivial fun _ _ => trivial

theorem respects_publishPortAlarm (port : PortState) (activation : ActivationId) (affected : Nat) :
    Respects events commands (publishPortAlarm port activation affected) := by
  refine Passes.send trivial fun marker _ => ?_
  cases marker with
  | some _ => exact respects_countAlarm _ _ _
  | none =>
      refine Passes.send trivial fun now _ => ?_
      exact Passes.send trivial fun _ _ => respects_countAlarm _ _ _

theorem respects_countClearedPortAlarm (activation : ActivationId) (marker : Option Unit) :
    Respects events commands (countClearedPortAlarm activation marker) := by
  cases marker with
  | some _ => exact respects_countAlarm _ _ _
  | none => trivial

theorem respects_clearPortAlarm (port : PortState) (activation : ActivationId) :
    Respects events commands (clearPortAlarm port activation) := by
  refine Passes.send trivial fun marker _ => ?_
  cases marker with
  | some _ => exact respects_countClearedPortAlarm _ _
  | none =>
      refine Passes.send trivial fun active _ => ?_
      cases active with
      | none => trivial
      | some alarm =>
          refine Passes.send trivial fun now _ => ?_
          refine Passes.send trivial fun _ _ => ?_
          exact Passes.send trivial fun marker _ => respects_countClearedPortAlarm _ marker

theorem respects_publishPortState (port : PortState) (affected : Nat) :
    Respects events commands (publishPortState port affected) := by
  refine Passes.send trivial fun previous _ => ?_
  have hchange : Respects events commands (publishPortChange port previous) := by
    unfold publishPortChange
    split_ifs
    · trivial
    · refine Passes.send trivial fun now _ => ?_
      cases previous with
      | none => exact Respects.last trivial
      | some _ => exact Respects.last trivial
  refine hchange.bind fun _ _ => ?_
  refine Passes.send trivial fun fault _ => ?_
  split_ifs
  · have hopen : Respects events commands (openPortFault port fault) := by
      unfold openPortFault
      split
      · trivial
      · refine Passes.send trivial fun now _ => ?_
        exact Passes.send trivial fun _ _ => trivial
    exact hopen.bind fun activation _ => respects_publishPortAlarm port activation affected
  · unfold closePortFault
    split
    · trivial
    · rename_i fault _
      refine (respects_clearPortAlarm port fault.activationId).bind fun _ _ => ?_
      have hstatus : Respects events commands (clearedStatus fault) := by
        unfold clearedStatus
        split
        · trivial
        · refine Passes.send trivial fun processed _ => ?_
          rcases processed with _ | _ | _ <;> trivial
        · trivial
      exact hstatus.bind fun status _ => Respects.last trivial

theorem respects_pollDirection (direction : PortDirection) (actual : List AppliedConnection)
    (unavailable ids : List Nat) :
    Respects events commands (pollDirection direction actual unavailable ids) := by
  induction ids generalizing unavailable with
  | nil => trivial
  | cons id rest ih =>
      refine Passes.send trivial fun reply _ => ?_
      refine (respects_readOrRaise reply).bind fun port _ => ?_
      exact (respects_publishPortState port _).bind fun _ _ => ih _

theorem respects_pollPortStates (info : DeviceInfo) (actual : List AppliedConnection) :
    Respects events commands (pollPortStates info actual) := by
  refine (respects_pollDirection .input actual [] _).bind fun inputs _ => ?_
  exact (respects_pollDirection .output actual [] _).bind fun outputs _ => trivial

theorem respects_publishDeviceState (generation count : Nat) (status : DeviceOperStatus)
    (error : Error) : Respects events commands (publishDeviceState generation count status error) :=
  Passes.send trivial fun _ _ => Respects.last trivial

/-! ## Generation recovery -/

/-- A batch that may be issued as it is. -/
structure IntendedRepair (events : List Gnmi.ConfigEvent) (batch : List ConnectionCommand) :
    Prop where
  sourced : Sourced events batch
  fixed : ∀ c ∈ batch, validCommand c = true ∧ decodeCommand c = c

theorem IntendedRepair.subset {batch batch' : List ConnectionCommand}
    (h : IntendedRepair events batch) (hsub : batch' ⊆ batch) : IntendedRepair events batch' :=
  ⟨h.sourced.subset hsub, fun c hc => h.fixed c (hsub hc)⟩

theorem IntendedRepair.snoc {batch : List ConnectionCommand} (h : IntendedRepair events batch)
    {c : ConnectionCommand} (hlogged : Logged events c)
    (hfixed : validCommand c = true ∧ decodeCommand c = c) (hne : ∀ c' ∈ batch, c'.id ≠ c.id) :
    IntendedRepair events (batch ++ [c]) := by
  have hcases : ∀ c' ∈ batch ++ [c], c' ∈ batch ∨ c' = c := by simp
  refine ⟨⟨fun c' hc' => ?_, fun a ha hop b hb hid => ?_⟩, fun c' hc' => ?_⟩
  · rcases hcases c' hc' with hc' | rfl
    · exact h.sourced.logged c' hc'
    · exact hlogged
  · rcases hcases a ha with hold | rfl <;> rcases hcases b hb with hold' | rfl
    · exact h.sourced.definite a hold hop b hold' hid
    · exact absurd hid.symm (hne a hold)
    · exact absurd hid (hne b hold')
    · rfl
  · rcases hcases c' hc' with hc' | rfl
    · exact h.fixed c' hc'
    · exact hfixed

theorem IntendedRepair.issuable {event : CommandEvent}
    (h : IntendedRepair events event.payload.commands)
    (htimeout : 0 < event.payload.options.timeoutMs) (hne : event.payload.commands ≠ []) :
    Issuable events event :=
  ⟨h.sourced, decodeDeviceCommand_fixed htimeout hne h.fixed⟩

theorem removal_repairs (events : List Gnmi.ConfigEvent) (x : AppliedConnection) :
    Logged events (removal x) ∧ validCommand (removal x) = true ∧
      decodeCommand (removal x) = removal x :=
  ⟨Logged.of_remove rfl, rfl, rfl⟩

theorem intendedCommand_repairs {id : String} {a : Application} (h : Intended events id a)
    {c : ConnectionCommand} (hc : intendedCommand a = .ok c) :
    c.id = id ∧ Logged events c ∧ validCommand c = true ∧ decodeCommand c = c := by
  unfold intendedCommand at hc
  cases hop : a.operation with
  | remove =>
      simp only [hop, Except.ok.injEq] at hc
      subst hc
      exact ⟨h.keyed, Logged.of_remove rfl, rfl, rfl⟩
  | upsert =>
      simp only [hop] at hc
      split_ifs at hc with hin hout
      cases hc
      have hintent : a.intent = {
          id := a.id
          inputPort := a.inputPort
          outputPort := a.outputPort
          desiredVersion := a.desiredVersion } := by
        unfold Application.intent
        rw [hop]
      have hvalid : validPort a.inputPort = true ∧ validPort a.outputPort = true := by
        simpa using And.intro hin hout
      refine ⟨h.keyed, hintent ▸ h.logged, ?_, rfl⟩
      simp [validCommand, hvalid]

theorem vouched_refreshedState {c : ConnectionCommand} (hlogged : Logged events c)
    (found : Option AppliedConnection) {state : ConnectionState}
    (h : refreshedState c found = some state) : Vouched events c.id state := by
  unfold refreshedState at h
  cases found with
  | none =>
      cases hop : c.operation with
      | remove => simp [hop] at h
      | upsert =>
          simp only [hop, Option.some.injEq] at h
          subst h
          exact vouched_of_inactive (by simp)
  | some x =>
      cases hmatch : intentMatches c (some x) with
      | false =>
          cases hop : c.operation <;>
            · simp only [hop, hmatch, Option.some.injEq] at h
              subst h
              exact vouched_of_inactive (by simp)
      | true =>
          obtain ⟨operation, id, inputPort, outputPort, version⟩ := c
          cases operation with
          | remove => cases hmatch
          | upsert =>
              simp only [hmatch, Option.some.injEq] at h
              subst h
              simp only [intentMatches, applies, Bool.and_eq_true, decide_eq_true_eq] at hmatch
              refine ⟨fun _ => hmatch.2, fun _ => ?_⟩
              simp only [ConnectionState.claim, hmatch.1.1, hmatch.1.2, hmatch.2]
              exact hlogged

theorem respects_replaceGenerationState (generation : Nat) {id : String} (version : Nat)
    (before after : Bool) {state : Option ConnectionState}
    (h : ∀ value, state = some value → Vouched events id value) :
    Respects events commands (replaceGenerationState generation id version before after state) :=
  Passes.send ⟨trivial, h⟩ fun _ _ => respects_publishedDelta (Respects.last trivial)

/-- What the loop over the intents has collected. -/
structure ScanSourced (events : List Gnmi.ConfigEvent) (scan : RecoveryScan) : Prop where
  repair : IntendedRepair events scan.commands
  remaining : ∀ c ∈ scan.commands, ∀ x ∈ scan.remaining, x.id ≠ c.id

theorem passes_refreshIntended (generation : Nat) {scan : RecoveryScan} {keys : List String}
    (hkeys : keys.Nodup) (h : ScanSourced events scan)
    (hfresh : ∀ c ∈ scan.commands, c.id ∉ keys) :
    Passes events commands (ScanSourced events) (refreshIntended generation scan keys) := by
  induction keys generalizing scan with
  | nil => exact h
  | cons key rest ih =>
      obtain ⟨hkey, hrest⟩ := List.nodup_cons.mp hkeys
      have hfreshRest : ∀ c ∈ scan.commands, c.id ∉ rest :=
        fun c hc hmem => hfresh c hc (List.mem_cons_of_mem _ hmem)
      refine Passes.send trivial fun snapshot hsnapshot => ?_
      cases snapshot with
      | none => exact ih hrest h hfreshRest
      | some snapshot =>
          dsimp only
          cases hcommand : intendedCommand snapshot with
          | error message => exact Passes.raise
          | ok command =>
              obtain ⟨hid, hlogged, hfixed⟩ :=
                intendedCommand_repairs (hsnapshot snapshot rfl) hcommand
              have hne : ∀ c ∈ scan.commands, c.id ≠ command.id := by
                intro c hc heq
                exact hfresh c hc (by rw [heq, hid]; exact List.mem_cons_self)
              refine Passes.send trivial fun previous _ => ?_
              refine (respects_replaceGenerationState generation _ _ _ fun value hv =>
                vouched_refreshedState hlogged _ hv).bind fun delta _ => ?_
              refine ih hrest ⟨?_, fun c hc x hx => ?_⟩ fun c hc => ?_
              · dsimp only
                split_ifs
                · exact h.repair
                · exact h.repair.snoc hlogged hfixed hne
              · obtain ⟨hx, hxid⟩ := List.mem_filter.mp hx
                dsimp only at hc
                split_ifs at hc
                · exact h.remaining c hc x hx
                · rcases List.mem_append.mp hc with hc | hc
                  · exact h.remaining c hc x hx
                  · cases List.mem_singleton.mp hc
                    simpa using hxid
              · dsimp only at hc
                split_ifs at hc
                · exact hfreshRest c hc
                · rcases List.mem_append.mp hc with hc | hc
                  · exact hfreshRest c hc
                  · cases List.mem_singleton.mp hc
                    rw [hid]
                    exact hkey

theorem passes_refreshUnexpected (generation : Nat) {scan : RecoveryScan}
    {rest : List AppliedConnection} (h : IntendedRepair events scan.commands)
    (hrest : ∀ c ∈ scan.commands, c.operation = .upsert → ∀ x ∈ rest, x.id ≠ c.id) :
    Passes events commands (fun scan => IntendedRepair events scan.commands)
      (refreshUnexpected generation scan rest) := by
  induction rest generalizing scan with
  | nil => exact h
  | cons x rest ih =>
      refine Passes.send trivial fun previous _ => ?_
      refine (respects_replaceGenerationState generation _ _ _ fun value hv => ?_).bind
        fun delta _ => ?_
      · cases hv
        exact vouched_of_inactive (by simp [unexpectedState])
      have hcases : ∀ c ∈ scan.commands ++ [removal x], c ∈ scan.commands ∨ c = removal x := by simp
      obtain ⟨hlogged, hfixed⟩ := removal_repairs events x
      refine ih ⟨⟨fun c hc => ?_, fun a ha hop b hb hid => ?_⟩, fun c hc => ?_⟩ ?_
      · rcases hcases c hc with hold | rfl
        · exact h.sourced.logged c hold
        · exact hlogged
      · rcases hcases a ha with hold | rfl
        · rcases hcases b hb with hold' | rfl
          · exact h.sourced.definite a hold hop b hold' hid
          · exact absurd hid (hrest a hold hop x List.mem_cons_self)
        · cases hop
      · rcases hcases c hc with hold | rfl
        · exact h.fixed c hold
        · exact hfixed
      · intro c hc hop y hy
        rcases hcases c hc with hold | rfl
        · exact hrest c hold hop y (List.mem_cons_of_mem _ hy)
        · cases hop

theorem respects_publishRecovery (info : DeviceInfo) {batch : List ConnectionCommand}
    (h : IntendedRepair events batch) : Respects events commands (publishRecovery info batch) := by
  unfold publishRecovery
  split_ifs with hempty
  · exact Passes.send trivial fun _ _ => trivial
  · refine Passes.send trivial fun _ _ => ?_
    refine Passes.send ⟨rfl, ?_⟩ fun _ _ => trivial
    exact IntendedRepair.issuable h (show (0 : Int) < 1000 by decide) hempty

theorem respects_scheduleGenerationRecovery (info : DeviceInfo) (actual : List AppliedConnection) :
    Respects events commands (scheduleGenerationRecovery info actual) := by
  refine Passes.send trivial fun scheduled _ => ?_
  cases scheduled with
  | some _ => trivial
  | none =>
      refine Passes.send trivial fun keys hkeys => ?_
      have hstart : ScanSourced events { remaining := actual } :=
        ⟨⟨⟨by simp, by simp [Definite]⟩, by simp⟩, by simp⟩
      refine (passes_refreshIntended info.generation hkeys hstart (by simp)).bind
        fun intended hintended => ?_
      refine (passes_refreshUnexpected info.generation hintended.repair
        fun c hc _ x hx => hintended.remaining c hc x hx).bind fun scan hscan => ?_
      refine Passes.send trivial fun _ _ => ?_
      exact respects_publishRecovery info (hscan.subset fun c hc => mem_sortById.mp hc)

/-! ## Reconciliation -/

/-- What the configuration asks for. -/
def Configured (events : List Gnmi.ConfigEvent) (desired : List ConnectionCommand) : Prop :=
  ∀ c ∈ desired, Logged events c ∧ validCommand c = true ∧ decodeCommand c = c

theorem passes_loadDesired {desired : List ConnectionCommand} (h : Configured events desired)
    (keys : List String) :
    Passes events commands (Configured events) (loadDesired desired keys) := by
  induction keys generalizing desired with
  | nil => exact h
  | cons key rest ih =>
      refine Passes.send trivial fun snapshot hsnapshot => ?_
      cases snapshot with
      | none => exact ih h
      | some config =>
          dsimp only
          split_ifs with _ hin hout
          · exact Passes.raise
          · exact Passes.raise
          · exact Passes.raise
          refine ih fun c hc => ?_
          rcases List.mem_append.mp hc with hc | hc
          · exact h c hc
          · cases List.mem_singleton.mp hc
            have hvalid : validPort config.inputPort = true ∧
                validPort config.outputPort = true := by
              simpa using And.intro hin hout
            exact ⟨hsnapshot config rfl, by simp [validCommand, hvalid], rfl⟩

theorem passes_loadDesiredConnections :
    Passes events commands (Configured events) loadDesiredConnections :=
  Passes.send trivial fun keys _ => passes_loadDesired (by simp [Configured]) keys

theorem respects_settled (desired : List ConnectionCommand) (keys : List String) :
    Respects events commands (settled desired keys) := by
  induction keys generalizing desired with
  | nil => trivial
  | cons key rest ih =>
      refine Passes.send trivial fun snapshot _ => ?_
      cases snapshot with
      | none => trivial
      | some snapshot =>
          dsimp only
          split
          · split_ifs
            · exact ih _
            · trivial
          · split_ifs
            · trivial
            · exact Passes.raise
            · trivial
            · exact Passes.raise
            · trivial
            · exact ih _

/-- A plan that may be issued. -/
structure PlanSourced (events : List Gnmi.ConfigEvent) (desired : List ConnectionCommand)
    (plan : ReconciliationPlan) : Prop where
  options : plan.fullSnapshot.options = {}
  repair : IntendedRepair events plan.fullSnapshot.commands
  wanted : desired ⊆ plan.fullSnapshot.commands
  upserts : ∀ c ∈ plan.fullSnapshot.commands, c.operation = .upsert → c ∈ desired
  planned : ∀ drift ∈ plan.drifts, drift.desired ∈ plan.fullSnapshot.commands

theorem planSourced_of_planOk {desired : List ConnectionCommand} {actual : List AppliedConnection}
    {plan : ReconciliationPlan} (h : PlanOk desired actual plan)
    (hdesired : Configured events desired) : PlanSourced events desired plan := by
  have hcases : ∀ c ∈ plan.fullSnapshot.commands, c ∈ desired ∨
      ∃ x, (∀ c ∈ desired, c.id ≠ x.id) ∧ c = removal x := by
    intro c hc
    rcases List.mem_append.mp (h.commands.mem_iff.mp hc) with hc | hc
    · exact .inl hc
    · obtain ⟨x, hx, rfl⟩ := List.mem_map.mp hc
      exact .inr ⟨x, by simpa using (List.mem_filter.mp hx).2, rfl⟩
  refine ⟨h.options, ⟨⟨fun c hc => ?_, fun a ha hop b hb hid => ?_⟩, fun c hc => ?_⟩,
    fun c hc => h.commands.mem_iff.mpr (List.mem_append_left _ hc), fun c hc hop => ?_, h.planned⟩
  · rcases hcases c hc with hold | ⟨x, -, rfl⟩
    · exact (hdesired c hold).1
    · exact (removal_repairs events x).1
  · rcases hcases a ha with hold | ⟨x, -, rfl⟩
    · rcases hcases b hb with hold' | ⟨x, hne, rfl⟩
      · exact definite_of_nodup h.desiredIds a hold hop b hold' hid
      · exact absurd hid.symm (hne a hold)
    · cases hop
  · rcases hcases c hc with hold | ⟨x, -, rfl⟩
    · exact (hdesired c hold).2
    · exact (removal_repairs events x).2
  · rcases hcases c hc with hold | ⟨x, -, rfl⟩
    · exact hold
    · cases hop

theorem respects_confirmedDrifts (actual : List AppliedConnection)
    {batch : List ConnectionCommand} {drifts : List ConnectionDrift}
    (h : ∀ drift ∈ drifts, drift.desired ∈ batch) {rest : List ConnectionCommand}
    (hsub : rest ⊆ batch) : Passes events commands
      (fun drifts => ∀ drift ∈ drifts, drift.desired ∈ batch)
      (confirmedDrifts actual drifts rest) := by
  induction rest generalizing drifts with
  | nil => exact h
  | cons command rest ih =>
      have hrest : rest ⊆ batch := fun c hc => hsub (List.mem_cons_of_mem _ hc)
      unfold confirmedDrifts
      split
      · exact ih h hrest
      · refine Passes.send trivial fun device _ => ?_
        refine Passes.send trivial fun state _ => ?_
        split_ifs
        · refine ih (fun drift hd => ?_) hrest
          rcases List.mem_append.mp hd with hd | hd
          · exact h drift hd
          · cases List.mem_singleton.mp hd
            exact hsub List.mem_cons_self
        · exact ih h hrest

/-- The removals that a plan is extended by name nothing that is desired. -/
def RemovesOnly (desired removals : List ConnectionCommand) : Prop :=
  ∀ c ∈ removals, c.operation = .remove ∧ c.inputPort = 0 ∧ c.outputPort = 0 ∧
    ∀ c' ∈ desired, c'.id ≠ c.id

theorem passes_failedRemovals {desired : List ConnectionCommand} (actual : List AppliedConnection)
    {removals : List ConnectionCommand} (h : RemovesOnly desired removals) (keys : List String) :
    Passes events commands (RemovesOnly desired)
      (failedRemovals desired actual removals keys) := by
  induction keys generalizing removals with
  | nil => exact h
  | cons key rest ih =>
      refine Passes.send trivial fun snapshot _ => ?_
      cases snapshot with
      | none => exact ih h
      | some snapshot =>
          dsimp only
          split_ifs with hskip
          · exact ih h
          · refine ih fun c hc => ?_
            rcases List.mem_append.mp hc with hc | hc
            · exact h c hc
            · cases List.mem_singleton.mp hc
              have hnone := (not_or.mp hskip).1
              exact ⟨rfl, rfl, rfl, by simpa using hnone⟩

theorem passes_confirmPlan {desired : List ConnectionCommand} (actual : List AppliedConnection)
    {plan : ReconciliationPlan} (h : PlanSourced events desired plan) : Passes events commands
      (fun confirmed => PlanSourced events desired confirmed.1)
      (confirmPlan desired actual plan) := by
  unfold confirmPlan
  split_ifs
  · exact h
  refine (respects_confirmedDrifts actual (by simp) (List.Subset.refl desired)).bind
    fun drifts hdrifts => ?_
  refine Passes.send trivial fun keys _ => ?_
  refine (passes_failedRemovals actual (by simp [RemovesOnly]) keys).bind fun removals hremovals => ?_
  have hcases : ∀ c ∈ sortById (·.id) (plan.fullSnapshot.commands ++ removals),
      c ∈ plan.fullSnapshot.commands ∨ c ∈ removals :=
    fun c hc => List.mem_append.mp (mem_sortById.mp hc)
  have hkept : plan.fullSnapshot.commands ⊆
      sortById (·.id) (plan.fullSnapshot.commands ++ removals) :=
    fun c hc => mem_sortById.mpr (List.mem_append_left _ hc)
  have hremove : ∀ c ∈ removals, c.operation ≠ .upsert := by
    intro c hc hop
    rw [(hremovals c hc).1] at hop
    cases hop
  refine ⟨h.options, ⟨⟨fun c hc => ?_, fun a ha hop b hb hid => ?_⟩, fun c hc => ?_⟩,
    List.Subset.trans h.wanted hkept, fun c hc hop => ?_, fun drift hd => ?_⟩
  · rcases hcases c hc with hc | hc
    · exact h.repair.sourced.logged c hc
    · exact Logged.of_remove (hremovals c hc).1
  · rcases hcases a ha with ha | ha
    · rcases hcases b hb with hb | hb
      · exact h.repair.sourced.definite a ha hop b hb hid
      · exact absurd hid.symm ((hremovals b hb).2.2.2 a (h.upserts a ha hop))
    · exact absurd hop (hremove a ha)
  · rcases hcases c hc with hc | hc
    · exact h.repair.fixed c hc
    · obtain ⟨hop, hin, hout, -⟩ := hremovals c hc
      obtain ⟨operation, id, inputPort, outputPort, version⟩ := c
      cases hop
      cases hin
      cases hout
      exact ⟨rfl, rfl⟩
  · rcases hcases c hc with hc | hc
    · exact h.upserts c hc hop
    · exact absurd hop (hremove c hc)
  · rcases List.mem_append.mp (mem_sortById.mp hd) with hd | hd
    · exact hkept (h.wanted (hdrifts drift hd))
    · obtain ⟨c, hc, rfl⟩ := List.mem_map.mp hd
      exact mem_sortById.mpr (List.mem_append_right _ hc)

theorem passes_portDrifts (actual : List AppliedConnection) {batch : List ConnectionCommand}
    {drifts : List ConnectionDrift} (h : ∀ drift ∈ drifts, drift.desired ∈ batch)
    {rest : List ConnectionCommand} (hsub : rest ⊆ batch) : Passes events commands
      (fun drifts => ∀ drift ∈ drifts, drift.desired ∈ batch) (portDrifts actual drifts rest) := by
  induction rest generalizing drifts with
  | nil => exact h
  | cons command rest ih =>
      have hrest : rest ⊆ batch := fun c hc => hsub (List.mem_cons_of_mem _ hc)
      refine Passes.send trivial fun state _ => ?_
      split_ifs
      · exact ih h hrest
      · split
        · exact ih h hrest
        · refine ih (fun drift hd => ?_) hrest
          rcases List.mem_append.mp hd with hd | hd
          · exact h drift hd
          · cases List.mem_singleton.mp hd
            exact hsub List.mem_cons_self

theorem respects_putFaults (faults : List ((PortDirection × Nat) × PortFault))
    (update : (PortDirection × Nat) × PortFault → PortFault) :
    Respects events commands (send (.putHashesAtomically
      (faults.map fun fault => portFaultEntry (fault.1, update fault)))) :=
  Respects.last fun entry hmem => free_portFaults faults update entry hmem _ _

theorem passes_recoverPlan {desired : List ConnectionCommand} (actual : List AppliedConnection)
    (faults : List ((PortDirection × Nat) × PortFault)) {plan : ReconciliationPlan}
    (h : PlanSourced events desired plan) : Passes events commands (PlanSourced events desired)
      (recoverPlan desired actual faults plan) := by
  unfold recoverPlan
  split_ifs
  · exact h
  refine (passes_portDrifts actual (by simp) (List.Subset.refl desired)).bind
    fun drifts hdrifts => ?_
  split_ifs
  · have hfaults : Respects events commands (recoverFaults faults) := by
      unfold recoverFaults
      dsimp only
      split_ifs
      · trivial
      · exact respects_putFaults _ _
    exact hfaults.bind fun _ _ => h
  · exact ⟨h.options, h.repair, h.wanted, h.upserts,
      fun drift hd => h.wanted (hdrifts drift (mem_sortById.mp hd))⟩

theorem respects_associatePortFaults (command : CommandId) :
    Respects events commands (associatePortFaults command) := by
  refine respects_portFaults.bind fun faults _ => ?_
  dsimp only
  split_ifs
  · trivial
  · exact respects_putFaults _ _

theorem respects_publishDrifts (command : CommandId) (total : Int) (drifts : List ConnectionDrift) :
    Respects events commands (publishDrifts command total drifts) := by
  induction drifts generalizing total with
  | nil => trivial
  | cons drift rest ih =>
      refine Passes.send trivial fun previous _ => ?_
      split_ifs
      · exact ih _
      have hdrift : Respects events commands (publishDrift command drift previous) := by
        refine Passes.send ⟨trivial, ?_⟩ fun published _ => ?_
        · rintro value ⟨⟩
          exact vouched_of_inactive (by simp [driftedState])
        refine Prog.Given.bind (respects_publishedDelta (Respects.last (by trivial))) fun delta _ => ?_
        refine Passes.send ⟨trivial, ?_⟩ fun _ _ => trivial
        rintro value ⟨⟩
        exact vouched_of_inactive (by simp)
      exact hdrift.bind fun delta _ => ih _

theorem respects_countDriftAlarm (marker : Option AlarmMarker) :
    Respects events commands (countDriftAlarm marker) := by
  cases marker with
  | none => exact Passes.raise
  | some marker =>
      unfold countDriftAlarm
      dsimp only
      split_ifs
      · exact respects_countAlarm _ _ _
      · trivial

theorem respects_publishDriftAlarm (command : CommandId) (desiredVersion count : Nat) :
    Respects events commands (publishDriftAlarm command desiredVersion count) := by
  refine Passes.send trivial fun marker _ => ?_
  cases marker with
  | some marker => exact respects_countDriftAlarm _
  | none =>
      refine Passes.send trivial fun active _ => ?_
      refine Passes.send trivial fun now _ => ?_
      refine Passes.send trivial fun _ _ => ?_
      exact Passes.send trivial fun marker _ => respects_countDriftAlarm marker

theorem respects_countClearedDriftAlarm (marker : Option AlarmMarker) :
    Respects events commands (countClearedDriftAlarm marker) := by
  cases marker with
  | none => exact Passes.raise
  | some marker => exact respects_countAlarm _ _ _

theorem respects_clearDriftAlarm (command : CommandId) (desiredVersion : Nat) :
    Respects events commands (clearDriftAlarm command desiredVersion) := by
  refine Passes.send trivial fun marker _ => ?_
  refine Passes.send trivial fun active _ => ?_
  cases marker with
  | some marker => exact respects_countClearedDriftAlarm _
  | none =>
      cases active with
      | none => trivial
      | some alarm =>
          refine Passes.send trivial fun now _ => ?_
          refine Passes.send trivial fun _ _ => ?_
          exact Passes.send trivial fun marker _ => respects_countClearedDriftAlarm marker

theorem respects_convergeControl (control : Option ReconciliationControl) :
    Respects events commands (convergeControl control) := by
  cases control with
  | none => trivial
  | some control =>
      unfold convergeControl
      dsimp only
      split_ifs
      · trivial
      · exact (respects_clearDriftAlarm _ _).bind fun _ _ => Respects.last trivial

theorem respects_publishReconciliation (info : DeviceInfo) {desired : List ConnectionCommand}
    {plan : ReconciliationPlan} (h : PlanSourced events desired plan)
    (hdrifts : plan.converged = false) (control : ReconciliationControl) :
    Respects events commands (publishReconciliation info plan control) := by
  have hne : plan.fullSnapshot.commands ≠ [] := by
    intro hnil
    cases hplan : plan.drifts with
    | nil => simp [ReconciliationPlan.converged, hplan] at hdrifts
    | cons drift rest =>
        have hmem := h.planned drift (by rw [hplan]; exact List.mem_cons_self)
        rw [hnil] at hmem
        cases hmem
  refine (respects_associatePortFaults _).bind fun _ _ => ?_
  have hstate : Respects events commands (publishReconciliationState plan control.command) :=
    (respects_publishDrifts _ 0 plan.drifts).bind fun delta _ => Passes.send trivial fun _ _ => trivial
  refine hstate.bind fun _ _ => ?_
  refine (respects_publishDriftAlarm _ _ _).bind fun _ _ => ?_
  refine Passes.send trivial fun _ _ => ?_
  refine Passes.send ⟨⟨rfl, rfl⟩, ?_⟩ fun _ _ => Respects.last trivial
  refine IntendedRepair.issuable h.repair ?_ hne
  change (0 : Int) < plan.fullSnapshot.options.timeoutMs
  simp [h.options]

theorem respects_openReconciliation (info : DeviceInfo) {desired : List ConnectionCommand}
    {plan : ReconciliationPlan} (h : PlanSourced events desired plan)
    (hdrifts : plan.converged = false) (portRecovery stateRecovery : Bool)
    (control : Option ReconciliationControl) : Respects events commands
      (openReconciliation info plan portRecovery stateRecovery control) := by
  unfold openReconciliation
  split
  · split_ifs
    · trivial
    · exact respects_publishReconciliation info h hdrifts _
  · refine Passes.send trivial fun now _ => ?_
    exact Passes.send trivial fun _ _ => respects_publishReconciliation info h hdrifts _

theorem respects_reconcileDevice (info : DeviceInfo) (actual : List AppliedConnection) :
    Respects events commands (reconcileDevice info actual) := by
  refine passes_loadDesiredConnections.bind fun desired hdesired => ?_
  have hsettled : Respects events commands (orchestrationSettled desired) :=
    Passes.send trivial fun keys _ => respects_settled desired keys
  refine hsettled.bind fun isSettled _ => ?_
  split_ifs
  · trivial
  cases hplan : buildReconciliationPlan desired actual with
  | error message => exact Passes.raise
  | ok plan =>
      have hsourced := planSourced_of_planOk (buildReconciliationPlan_ok hplan) hdesired
      refine (passes_confirmPlan actual hsourced).bind fun confirmed hconfirmed => ?_
      refine respects_portFaults.bind fun faults _ => ?_
      refine (passes_recoverPlan actual faults hconfirmed).bind fun recovered hrecovered => ?_
      refine Passes.send trivial fun control _ => ?_
      split_ifs with hconverged
      · exact respects_convergeControl control
      · exact respects_openReconciliation info hrecovered (by simpa using hconverged) _ _ control

/-! ## Polling -/

theorem respects_reconcileUnlessRecovering (info : DeviceInfo)
    (effective : List AppliedConnection) :
    Respects events commands (reconcileUnlessRecovering info effective) := by
  refine Passes.send trivial fun recovery _ => ?_
  have hpending : Respects events commands (recoveryPending recovery) := by
    unfold recoveryPending
    split
    · exact Passes.send trivial fun _ _ => trivial
    · trivial
  refine hpending.bind fun pending _ => ?_
  split_ifs
  · trivial
  · exact respects_reconcileDevice info effective

theorem respects_refreshDeviceState (info : DeviceInfo) (count : Nat)
    (state : Option DeviceStateHash) :
    Respects events commands (refreshDeviceState info count state) := by
  cases state with
  | none => exact respects_publishDeviceState _ _ _ _
  | some state =>
      unfold refreshDeviceState
      dsimp only
      split_ifs
      · trivial
      · exact respects_publishDeviceState _ _ _ _

theorem respects_pollConnected : Respects events commands pollConnected := by
  refine Passes.send trivial fun reply _ => ?_
  refine (respects_readOrRaise reply).bind fun info _ => ?_
  refine Passes.send trivial fun memory _ => ?_
  split_ifs
  · exact Passes.raise
  refine Passes.send trivial fun reply _ => ?_
  refine (respects_readOrRaise reply).bind fun actual _ => ?_
  refine (respects_pollPortStates info actual).bind fun effective _ => ?_
  refine Passes.send trivial fun state _ => ?_
  refine Passes.send trivial fun _ _ => ?_
  have hrefresh : Respects events commands (refreshConnections info actual effective state) := by
    unfold refreshConnections
    split_ifs
    · exact respects_reconcileUnlessRecovering info effective
    · exact respects_scheduleGenerationRecovery info actual
  refine hrefresh.bind fun _ _ => ?_
  exact (respects_refreshDeviceState info _ state).bind fun _ _ => trivial

theorem respects_pollFailed (error : Raised) : Respects events commands (pollFailed error) := by
  refine Passes.send trivial fun memory _ => ?_
  split_ifs
  · trivial
  refine Passes.send trivial fun state _ => ?_
  have hpublish : Respects events commands
      (publishUnavailable memory.2 (errorText error) state) := by
    unfold publishUnavailable
    split
    · trivial
    · exact respects_publishDeviceState _ _ _ _
    · exact respects_publishDeviceState _ _ _ _
  exact hpublish.bind fun _ _ => trivial

theorem respects_pollDevice : Respects events commands pollDevice :=
  respects_pollConnected.tryCatch respects_pollFailed

theorem respects_initializeService : Respects events commands initializeService := by
  refine Passes.send trivial fun reply _ => ?_
  refine (respects_readOrRaise reply).bind fun info _ => ?_
  refine Passes.send trivial fun reply _ => ?_
  refine (respects_readOrRaise reply).bind fun actual _ => ?_
  refine (respects_pollPortStates info actual).bind fun _ _ => ?_
  refine Passes.send trivial fun state _ => ?_
  have hstate : Respects events commands (initializeDeviceState info actual state) := by
    cases state with
    | none => exact Respects.last trivial
    | some state =>
        unfold initializeDeviceState
        dsimp only
        split_ifs
        · exact (respects_scheduleGenerationRecovery info actual).bind fun _ _ =>
            respects_publishDeviceState _ _ _ _
        · exact respects_publishDeviceState _ _ _ _
        · trivial
  refine hstate.bind fun _ _ => ?_
  exact Passes.send trivial fun _ _ => trivial

end

end MiniOcs.Syncd
