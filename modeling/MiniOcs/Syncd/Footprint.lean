import MiniOcs.Syncd.Poll

/-!
# Which hashes a program of syncd may write

The parts of the service write different hashes. A property of the hashes of one part is kept
by every program of another; the lemmas below say which program belongs to which part.
-/
namespace MiniOcs.Syncd
open Concurrent

/-- The command that a marker of the command stream stands for. -/
def markerCommand : SyncdKey → Option CommandId
  | .generationRecovery generation => some (.recovery generation)
  | .reconciliationCommandPublication command => some command
  | _ => none

/-- The operation writes only hashes among the keys and increments only these fields; a command
carries the id that its marker stands for. Acknowledgements stand apart. -/
def Writes (keys : SyncdKey → Bool) (fields : CounterField → Bool) : Op → Prop
  | .orch _ => False
  | .syncd o => match o with
    | .xack _ => False
    | .putHash k _ => keys k = true
    | .putHashIfAbsent k _ => keys k = true
    | .putHashesAtomically entries => ∀ entry ∈ entries, keys entry.1 = true
    | .replaceHashAndAppendEvent k _ _ => keys k = true
    | .replaceStateOnce marker _ _ _ _ => keys marker = true
    | .replaceAlarmOnce marker _ id _ _ => keys marker = true ∧ keys (.activeAlarm id) = true
    | .appendResultOnce marker _ _ => keys marker = true
    | .appendCommandOnce marker _ event =>
        keys marker = true ∧ markerCommand marker = some event.id
    | .incrementOnce marker _ update =>
        keys marker = true ∧ ∀ increment ∈ update.increments, fields increment.1 = true
    | _ => True

/-- Only the poll of the ports reads what it stored of a port. -/
def Within (keys : SyncdKey → Bool) (fields : CounterField → Bool) : Op → Prop
  | .syncd (.getHash (.portState _ _)) => False
  | o => Writes keys fields o

/-- What the command handler publishes before a command is marked. -/
def isCommandKey : SyncdKey → Bool
  | .applyAttempt _ | .applyResult _ | .statePublication _ _ | .countersPublication _
  | .resultPublication _ _ => true
  | _ => false

def isApplyField : CounterField → Bool
  | .activeConnections | .deviceApplyTotal | .deviceApplySuccessTotal | .deviceApplyFailureTotal
  | .deviceApplyTimeoutTotal => true
  | _ => false

/-- What the recovery of a generation writes. -/
def isRecoveryKey : SyncdKey → Bool
  | .generationRecovery _ | .generationStatePublication _ _ | .generationCountersPublication _
  | .configBatch _ => true
  | _ => false

def isActiveConnections : CounterField → Bool
  | .activeConnections => true
  | _ => false

/-- What the publication of a drift writes, apart from its alarm. -/
def isDriftKey : SyncdKey → Bool
  | .reconciliationStatePublication _ _ _ | .reconciliationCountersPublication _ => true
  | _ => false

def isDriftField : CounterField → Bool
  | .activeConnections | .driftDetectedTotal | .reconciliationTotal => true
  | _ => false

def isDeviceKey : SyncdKey → Bool
  | .deviceState => true
  | _ => false

/-- What the control of reconciliations and their publication write. -/
def isReconciliationKey : SyncdKey → Bool
  | .reconciliation | .reconciliationCommandPublication _ | .reconciliationSuccessPublication _
  | .configBatch _ => true
  | _ => false

def isSuccessKey : SyncdKey → Bool
  | .reconciliationSuccessPublication _ => true
  | _ => false

def isSuccessField : CounterField → Bool
  | .reconciliationSuccessTotal => true
  | _ => false

/-- What the poll of the ports and the alarms write. -/
def isWatchKey : SyncdKey → Bool
  | .portState _ _ | .portFault _ _ | .activeAlarm _ | .portAlarmPublication _
  | .portAlarmClearPublication _ | .driftAlarmPublication _ | .driftAlarmClearPublication _
  | .alarmCounterPublication _ _ => true
  | _ => false

def isAlarmField : CounterField → Bool
  | .activeAlarms | .portDownTotal => true
  | _ => false

/-- What a poll stores of a port. -/
def isPortStateKey : SyncdKey → Bool
  | .portState _ _ => true
  | _ => false

def noKey (_ : SyncdKey) : Bool := false

def noField (_ : CounterField) : Bool := false

section Within

variable {keys keys' : SyncdKey → Bool} {fields fields' : CounterField → Bool} {α β : Type}

theorem Writes.mono {o : Op} (h : Writes keys fields o)
    (hkeys : ∀ k, keys k = true → keys' k = true)
    (hfields : ∀ f, fields f = true → fields' f = true) : Writes keys' fields' o := by
  cases o with
  | orch o => exact h
  | syncd o =>
      cases o with
      | xack n => exact h
      | putHash k v => exact hkeys k h
      | putHashIfAbsent k v => exact hkeys k h
      | putHashesAtomically entries => exact fun entry he => hkeys _ (h entry he)
      | replaceHashAndAppendEvent k v event => exact hkeys k h
      | replaceStateOnce marker v id state event => exact hkeys _ h
      | replaceAlarmOnce marker v id alarm event => exact ⟨hkeys _ h.1, hkeys _ h.2⟩
      | appendResultOnce marker v event => exact hkeys _ h
      | appendCommandOnce marker v event => exact ⟨hkeys _ h.1, h.2⟩
      | incrementOnce marker v update => exact ⟨hkeys _ h.1, fun i hi => hfields _ (h.2 i hi)⟩
      | _ => trivial

/-- A program that stays within a footprint writes nothing else. -/
theorem Within.writes {o : Op} (h : Within keys fields o) : Writes keys fields o := by
  unfold Within at h
  split at h
  · exact h.elim
  · exact h

theorem Within.mono {o : Op} (h : Within keys fields o)
    (hkeys : ∀ k, keys k = true → keys' k = true)
    (hfields : ∀ f, fields f = true → fields' f = true) : Within keys' fields' o := by
  unfold Within at h ⊢
  split at h
  · exact h.elim
  · exact h.mono hkeys hfields

theorem onceSyncd_hash {w : World} {marker k : SyncdKey} {v : SyncdHash marker}
    {write : World → World} (hk : k ≠ marker)
    (hwrite : (write w).syncd.hash k = w.syncd.hash k) :
    (w.onceSyncd marker v write).2.syncd.hash k = w.syncd.hash k := by
  unfold World.onceSyncd
  split_ifs
  · rfl
  · exact (World.markSyncd_hash_of_ne _ _ _ hk).trans hwrite

/-- A hash outside the footprint stands. -/
theorem Writes.hash {o : SyncdOp} (h : Writes keys fields (.syncd o)) {k : SyncdKey}
    (hk : keys k = false) (ch : Nat) (w : World) :
    (o.exec ch w).2.syncd.hash k = w.syncd.hash k := by
  have hne : ∀ k', keys k' = true → k ≠ k' := by
    rintro k' hk' rfl
    rw [hk] at hk'
    cases hk'
  cases o with
  | putHash k' v => exact World.markSyncd_hash_of_ne _ _ _ (hne _ h)
  | putHashIfAbsent k' v => exact onceSyncd_hash (hne _ h) rfl
  | putHashesAtomically entries =>
      exact putEntries_hash_of_notMem fun entry he => (hne _ (h entry he)).symm
  | replaceHashAndAppendEvent k' v event => exact Function.update_of_ne (hne _ h) _ _
  | replaceStateOnce marker v id state event => exact onceSyncd_hash (hne _ h) rfl
  | replaceAlarmOnce marker v id alarm event =>
      exact onceSyncd_hash (hne _ h.1) (Function.update_of_ne (hne _ h.2) _ _)
  | appendResultOnce marker v event => exact onceSyncd_hash (hne _ h) rfl
  | appendCommandOnce marker v event => exact onceSyncd_hash (hne _ h.1) rfl
  | incrementOnce marker v update => exact onceSyncd_hash (hne _ h.1) rfl
  | _ => rfl

theorem onceSyncd_counters {w : World} {marker : SyncdKey} {v : SyncdHash marker}
    {write : World → World} (hwrite : (write w).counters = w.counters) :
    (w.onceSyncd marker v write).2.counters = w.counters := by
  unfold World.onceSyncd
  split_ifs
  · rfl
  · exact hwrite

/-- A field outside the footprint stands. -/
theorem Writes.counter {o : SyncdOp} (h : Writes keys fields (.syncd o)) {field : CounterField}
    (hf : fields field = false) (ch : Nat) (w : World) :
    counterTotal (o.exec ch w).2.counters field = counterTotal w.counters field := by
  cases o with
  | incrementOnce marker v update =>
      have hzero : update.amount field = 0 := by
        apply CounterUpdate.amount_eq_zero
        rintro i hi rfl
        rw [h.2 i hi] at hf
        cases hf
      simp only [SyncdOp.exec, World.onceSyncd]
      split_ifs
      · rfl
      · simp [hzero]
  | putHashIfAbsent k' v => exact congrArg (counterTotal · field) (onceSyncd_counters rfl)
  | replaceStateOnce marker v id state event =>
      exact congrArg (counterTotal · field) (onceSyncd_counters rfl)
  | replaceAlarmOnce marker v id alarm event =>
      exact congrArg (counterTotal · field) (onceSyncd_counters rfl)
  | appendResultOnce marker v event =>
      exact congrArg (counterTotal · field) (onceSyncd_counters rfl)
  | appendCommandOnce marker v event =>
      exact congrArg (counterTotal · field) (onceSyncd_counters rfl)
  | _ => rfl

/-! ## Rules -/

theorem only_send {P : Op → Prop} {o : SyncdOp} {k : o.Reply → Service α} (ho : P (.syncd o))
    (hk : ∀ r, (k r).Only P) : (send o >>= k).Only P := ⟨ho, hk⟩

theorem only_last {P : Op → Prop} {o : SyncdOp} (ho : P (.syncd o)) : (send o).Only P :=
  ⟨ho, fun _ => trivial⟩

theorem only_raise {P : Op → Prop} {e : Raised} (h : P (.syncd (.raise e))) :
    (raise e : Service α).Only P := ⟨h, fun _ => trivial⟩

theorem within_markedDelta (delta : Option Int) :
    (markedDelta delta).Only (Within keys fields) := by
  cases delta with
  | none => exact only_raise trivial
  | some delta => trivial

theorem within_publishedDelta {published : Bool} {delta : Int} {marker : Service (Option Int)}
    (h : marker.Only (Within keys fields)) :
    (publishedDelta published delta marker).Only (Within keys fields) := by
  unfold publishedDelta
  split_ifs
  · trivial
  · exact h.bind fun marked => within_markedDelta marked

theorem within_readOrRaise (reply : Except String α) :
    (readOrRaise reply).Only (Within keys fields) := by
  cases reply with
  | ok value => trivial
  | error message => exact only_raise trivial

end Within

/-! ## Commands -/

theorem within_nextCommand : nextCommand.Only (Within noKey noField) := by
  refine only_send trivial fun candidate => ?_
  cases candidate with
  | none => exact only_last trivial
  | some n =>
      refine only_send trivial fun claimed => ?_
      cases claimed with
      | none => exact only_last trivial
      | some event => trivial

theorem within_recoverPreparedBatch (event : CommandEvent) :
    (recoverPreparedBatch event).Only (Within noKey noField) := by
  refine only_send trivial fun prepared => ?_
  cases prepared with
  | none => trivial
  | some payload =>
      dsimp only
      split <;> trivial

theorem within_allSuperseded (generation : Nat) (commands : List ConnectionCommand) :
    (allSuperseded generation commands).Only (Within noKey noField) := by
  induction commands with
  | nil => trivial
  | cons command rest ih =>
      refine only_send trivial fun version => ?_
      split_ifs
      · exact ih
      · trivial

theorem within_isStaleVersion (event : CommandEvent) (batch : DeviceCommandBatch) :
    (isStaleVersion event batch).Only (Within noKey noField) := by
  unfold isStaleVersion
  split_ifs
  · trivial
  · exact only_send trivial fun memory => within_allSuperseded _ _

theorem within_confirmMembers (actual confirmed : List AppliedConnection)
    (commands : List ConnectionCommand) :
    (confirmMembers actual confirmed commands).Only (Within noKey noField) := by
  induction commands generalizing confirmed with
  | nil => trivial
  | cons command rest ih =>
      unfold confirmMembers
      dsimp only
      split
      · trivial
      · exact ih _
      · trivial
      · split_ifs
        · trivial
        · refine only_send trivial fun input => ?_
          cases input with
          | error message => trivial
          | ok input =>
              refine only_send trivial fun output => ?_
              cases output with
              | error message => trivial
              | ok output =>
                  dsimp only
                  split_ifs
                  · trivial
                  · exact ih _

theorem within_confirmAppliedResult (batch : DeviceCommandBatch) (result : ApplyResult) :
    (confirmAppliedResult batch result).Only (Within noKey noField) := by
  unfold confirmAppliedResult
  split_ifs
  · trivial
  · refine only_send trivial fun actual => ?_
    cases actual with
    | error message => trivial
    | ok actual =>
        refine (within_confirmMembers actual [] _).bind fun confirmed => ?_
        cases confirmed <;> trivial

theorem within_applyCommand (event : CommandEvent) (batch : DeviceCommandBatch) :
    (applyCommand event batch).Only (Within noKey noField) := by
  refine only_send trivial fun info => ?_
  cases info with
  | error message => trivial
  | ok info =>
      refine only_send trivial fun _ => ?_
      split_ifs
      · trivial
      · refine only_send trivial fun reply => ?_
        unfold confirmAttempt
        split_ifs
        · trivial
        · exact within_confirmAppliedResult _ _

theorem within_replaceMemberState (event : CommandEvent) (command : ConnectionCommand)
    (before after : Bool) (operation : ConnectionOperation) (state : Option ConnectionState) :
    (replaceMemberState event command before after operation state).Only
      (Within isCommandKey isApplyField) := by
  refine only_send rfl fun published => ?_
  split_ifs
  · trivial
  · exact only_send trivial fun marker => within_markedDelta _

theorem within_publishMemberState (event : CommandEvent) (result : ApplyResult)
    (command : ConnectionCommand) (previous : Option ConnectionState) :
    (publishMemberState event result command previous).Only (Within isCommandKey isApplyField) := by
  unfold publishMemberState
  dsimp only
  split_ifs
  · split
    · exact within_replaceMemberState _ _ _ _ _ _
    · split
      · exact only_raise trivial
      · exact within_replaceMemberState _ _ _ _ _ _
  · exact only_send trivial fun state => within_replaceMemberState _ _ _ _ _ _

theorem within_skipMemberState (event : CommandEvent) (command : ConnectionCommand)
    (marker : StatePublication) :
    (skipMemberState event command marker).Only (Within isCommandKey isApplyField) :=
  only_send rfl fun _ => only_send trivial fun _ => within_markedDelta _

theorem within_publishMember (event : CommandEvent) (result : ApplyResult)
    (command : ConnectionCommand) :
    (publishMember event result command).Only (Within isCommandKey isApplyField) := by
  refine only_send trivial fun published => ?_
  cases published with
  | some marker => trivial
  | none =>
      refine only_send trivial fun previous => ?_
      split_ifs
      · exact within_skipMemberState _ _ _
      · split
        · exact only_raise trivial
        · exact within_skipMemberState _ _ _
        · exact within_publishMemberState _ _ _ _

theorem within_publishState (event : CommandEvent) (result : ApplyResult) (total : Int)
    (commands : List ConnectionCommand) :
    (publishState event result total commands).Only (Within isCommandKey isApplyField) := by
  induction commands generalizing total with
  | nil => trivial
  | cons command rest ih => exact (within_publishMember _ _ _).bind fun delta => ih _

theorem applyIncrements_fields (result : ApplyResult) (delta : Int) :
    ∀ increment ∈ applyIncrements result delta, isApplyField increment.1 = true := by
  intro increment hmem
  simp only [applyIncrements, List.mem_append, List.mem_cons, List.not_mem_nil, or_false] at hmem
  rcases hmem with (rfl | rfl | rfl) | hmem
  · rfl
  · dsimp only
    split_ifs <;> rfl
  · rfl
  · split_ifs at hmem
    · rw [List.mem_singleton.mp hmem]
      rfl
    · cases hmem

theorem within_publishMemberResults (event : CommandEvent) (result : ApplyResult)
    (commands : List ConnectionCommand) :
    (publishMemberResults event result commands).Only (Within isCommandKey isApplyField) := by
  induction commands with
  | nil => trivial
  | cons command rest ih => exact only_send trivial fun marker => only_send rfl fun _ => ih

theorem within_publishResult (event : CommandEvent) (batch : DeviceCommandBatch)
    (result : ApplyResult) :
    (publishResult event batch result).Only (Within isCommandKey isApplyField) := by
  unfold publishResult
  split_ifs
  · exact only_send rfl fun _ => trivial
  · exact within_publishMemberResults _ _ _

theorem within_versionEntries (generation : Nat) (entries : List SyncdEntry)
    (commands : List ConnectionCommand) :
    (versionEntries generation entries commands).Only (Within noKey noField) := by
  induction commands generalizing entries with
  | nil => trivial
  | cons command rest ih =>
      refine only_send trivial fun existing => ?_
      split_ifs
      · exact ih _
      · exact ih _

theorem within_appliedVersions (generation : Nat) (commands : List ConnectionCommand)
    (applied : Bool) :
    (appliedVersions generation commands applied).Only (Within noKey noField) := by
  unfold appliedVersions
  split_ifs
  · exact within_versionEntries _ _ _
  · trivial

theorem within_loadPortFaults (faults : List ((PortDirection × Nat) × PortFault))
    (keys : List (PortDirection × Nat)) :
    (loadPortFaults faults keys).Only (Within noKey noField) := by
  induction keys generalizing faults with
  | nil => trivial
  | cons key rest ih =>
      refine only_send trivial fun fault => ?_
      cases fault with
      | none => exact ih _
      | some fault => exact ih _

theorem within_portFaults : portFaults.Only (Within noKey noField) :=
  only_send trivial fun keys => within_loadPortFaults [] keys

theorem within_countSuccess (event : CommandEvent) :
    (send (.incrementOnce (.reconciliationSuccessPublication event.id) ()
      { increments := [(.reconciliationSuccessTotal, 1)] })).Only
        (Within isSuccessKey isSuccessField) :=
  only_last ⟨rfl, by simp [isSuccessField]⟩

/-! ## The poll -/

theorem within_publishDeviceState (generation count : Nat) (status : DeviceOperStatus)
    (error : Error) :
    (publishDeviceState generation count status error).Only (Within isDeviceKey noField) :=
  only_send trivial fun _ => only_last rfl

theorem within_replaceGenerationState (generation : Nat) (id : String) (version : Nat)
    (before after : Bool) (state : Option ConnectionState) :
    (replaceGenerationState generation id version before after state).Only
      (Within isRecoveryKey isActiveConnections) :=
  only_send rfl fun _ => within_publishedDelta (only_last trivial)

theorem within_refreshIntended (generation : Nat) (scan : RecoveryScan) (keys : List String) :
    (refreshIntended generation scan keys).Only (Within isRecoveryKey isActiveConnections) := by
  induction keys generalizing scan with
  | nil => trivial
  | cons key rest ih =>
      refine only_send trivial fun snapshot => ?_
      cases snapshot with
      | none => exact ih _
      | some snapshot =>
          dsimp only
          split
          · exact only_raise trivial
          · exact only_send trivial fun previous =>
              (within_replaceGenerationState _ _ _ _ _ _).bind fun delta => ih _

theorem within_refreshUnexpected (generation : Nat) (scan : RecoveryScan)
    (remaining : List AppliedConnection) :
    (refreshUnexpected generation scan remaining).Only
      (Within isRecoveryKey isActiveConnections) := by
  induction remaining generalizing scan with
  | nil => trivial
  | cons connection rest ih =>
      exact only_send trivial fun previous =>
        (within_replaceGenerationState _ _ _ _ _ _).bind fun delta => ih _

theorem within_publishRecovery (info : DeviceInfo) (commands : List ConnectionCommand) :
    (publishRecovery info commands).Only (Within isRecoveryKey isActiveConnections) := by
  unfold publishRecovery
  split_ifs
  · exact only_send rfl fun _ => trivial
  · exact only_send rfl fun _ => only_send ⟨rfl, rfl⟩ fun _ => trivial

theorem within_scheduleGenerationRecovery (info : DeviceInfo) (actual : List AppliedConnection) :
    (scheduleGenerationRecovery info actual).Only (Within isRecoveryKey isActiveConnections) := by
  refine only_send trivial fun scheduled => ?_
  cases scheduled with
  | some recovery => trivial
  | none =>
      refine only_send trivial fun keys => ?_
      refine (within_refreshIntended _ _ _).bind fun intended => ?_
      refine (within_refreshUnexpected _ _ _).bind fun scan => ?_
      refine only_send ⟨rfl, fun increment hmem => ?_⟩ fun _ => within_publishRecovery _ _
      rw [List.mem_singleton.mp hmem]
      rfl

theorem within_loadDesired (desired : List ConnectionCommand) (keys : List String) :
    (loadDesired desired keys).Only (Within noKey noField) := by
  induction keys generalizing desired with
  | nil => trivial
  | cons key rest ih =>
      refine only_send trivial fun snapshot => ?_
      cases snapshot with
      | none => exact ih _
      | some config =>
          dsimp only
          split_ifs
          · exact only_raise trivial
          · exact only_raise trivial
          · exact only_raise trivial
          · exact ih _

theorem within_settled (desired : List ConnectionCommand) (keys : List String) :
    (settled desired keys).Only (Within noKey noField) := by
  induction keys generalizing desired with
  | nil => trivial
  | cons key rest ih =>
      refine only_send trivial fun snapshot => ?_
      cases snapshot with
      | none => trivial
      | some snapshot =>
          dsimp only
          split
          · split_ifs
            · exact ih _
            · trivial
          · split_ifs
            · trivial
            · exact only_raise trivial
            · trivial
            · exact only_raise trivial
            · trivial
            · exact ih _

theorem within_confirmedDrifts (actual : List AppliedConnection) (drifts : List ConnectionDrift)
    (desired : List ConnectionCommand) :
    (confirmedDrifts actual drifts desired).Only (Within noKey noField) := by
  induction desired generalizing drifts with
  | nil => trivial
  | cons command rest ih =>
      unfold confirmedDrifts
      split
      · exact ih _
      · refine only_send trivial fun device => only_send trivial fun state => ?_
        split_ifs
        · exact ih _
        · exact ih _

theorem within_failedRemovals (desired : List ConnectionCommand) (actual : List AppliedConnection)
    (removals : List ConnectionCommand) (keys : List String) :
    (failedRemovals desired actual removals keys).Only (Within noKey noField) := by
  induction keys generalizing removals with
  | nil => trivial
  | cons key rest ih =>
      refine only_send trivial fun snapshot => ?_
      cases snapshot with
      | none => exact ih _
      | some snapshot =>
          dsimp only
          split_ifs
          · exact ih _
          · exact ih _

theorem within_confirmPlan (desired : List ConnectionCommand) (actual : List AppliedConnection)
    (plan : ReconciliationPlan) :
    (confirmPlan desired actual plan).Only (Within noKey noField) := by
  unfold confirmPlan
  split_ifs
  · trivial
  · exact (within_confirmedDrifts _ _ _).bind fun drifts => only_send trivial fun keys =>
      (within_failedRemovals _ _ _ _).bind fun removals => trivial

theorem within_portDrifts (actual : List AppliedConnection) (drifts : List ConnectionDrift)
    (desired : List ConnectionCommand) :
    (portDrifts actual drifts desired).Only (Within noKey noField) := by
  induction desired generalizing drifts with
  | nil => trivial
  | cons command rest ih =>
      refine only_send trivial fun state => ?_
      split_ifs
      · exact ih _
      · split
        · exact ih _
        · exact ih _

theorem within_publishDrift (command : CommandId) (drift : ConnectionDrift)
    (previous : Option ConnectionState) :
    (publishDrift command drift previous).Only (Within isDriftKey isDriftField) := by
  refine only_send rfl fun published => ?_
  refine Prog.Only.bind (within_publishedDelta (only_last trivial)) fun delta => ?_
  exact only_send rfl fun _ => trivial

theorem within_publishDrifts (command : CommandId) (total : Int) (drifts : List ConnectionDrift) :
    (publishDrifts command total drifts).Only (Within isDriftKey isDriftField) := by
  induction drifts generalizing total with
  | nil => trivial
  | cons drift rest ih =>
      refine only_send trivial fun previous => ?_
      split_ifs
      · exact ih _
      · exact (within_publishDrift _ _ _).bind fun delta => ih _

theorem within_publishReconciliationState (plan : ReconciliationPlan) (command : CommandId) :
    (publishReconciliationState plan command).Only (Within isDriftKey isDriftField) := by
  refine (within_publishDrifts _ _ _).bind fun delta =>
    only_send ⟨rfl, fun increment hmem => ?_⟩ fun _ => trivial
  simp only [List.mem_cons, List.not_mem_nil, or_false] at hmem
  rcases hmem with rfl | rfl | rfl <;> rfl

theorem within_recoveryPending (recovery : Option GenerationRecovery) :
    (recoveryPending recovery).Only (Within noKey noField) := by
  unfold recoveryPending
  split
  · exact only_send trivial fun processed => trivial
  · trivial

theorem within_refreshDeviceState (info : DeviceInfo) (count : Nat)
    (state : Option DeviceStateHash) :
    (refreshDeviceState info count state).Only (Within isDeviceKey noField) := by
  unfold refreshDeviceState
  split
  · split_ifs
    · trivial
    · exact within_publishDeviceState _ _ _ _
  · exact within_publishDeviceState _ _ _ _

theorem within_pollFailed (error : Raised) :
    (pollFailed error).Only (Within isDeviceKey noField) := by
  refine only_send trivial fun memory => ?_
  split_ifs
  · trivial
  · refine only_send trivial fun state => Prog.Only.bind ?_ fun _ => trivial
    unfold publishUnavailable
    split
    · trivial
    · exact within_publishDeviceState _ _ _ _
    · exact within_publishDeviceState _ _ _ _

/-! ## Ports and alarms -/

section Watch

theorem only_writes {α : Type} {keys : SyncdKey → Bool} {fields : CounterField → Bool}
    {p : Service α} (h : p.Only (Within keys fields)) : p.Only (Writes keys fields) :=
  h.mono fun _ => Within.writes

theorem writes_idle {α : Type} {keys : SyncdKey → Bool} {fields : CounterField → Bool}
    {p : Service α} (h : p.Only (Within noKey noField)) : p.Only (Writes keys fields) :=
  (only_writes h).mono fun _ ho => ho.mono (fun _ hk => by cases hk) fun _ hf => by cases hf

theorem writes_countAlarm (activation : ActivationId) (clear : Bool)
    {increments : List (CounterField × Int)}
    (h : ∀ increment ∈ increments, isAlarmField increment.1 = true) :
    (countAlarm activation clear increments).Only (Writes isWatchKey isAlarmField) :=
  only_send ⟨rfl, h⟩ fun _ => trivial

theorem writes_countPortAlarm (activation : ActivationId) :
    (countAlarm activation false [(.activeAlarms, 1), (.portDownTotal, 1)]).Only
      (Writes isWatchKey isAlarmField) :=
  writes_countAlarm _ _ (by simp [isAlarmField])

theorem writes_publishPortAlarm (port : PortState) (activation : ActivationId) (affected : Nat) :
    (publishPortAlarm port activation affected).Only (Writes isWatchKey isAlarmField) := by
  refine only_send trivial fun marker => ?_
  cases marker with
  | some _ => exact writes_countPortAlarm _
  | none =>
      exact only_send trivial fun now => only_send ⟨rfl, rfl⟩ fun _ => writes_countPortAlarm _

theorem writes_countClearedPortAlarm (activation : ActivationId) (marker : Option Unit) :
    (countClearedPortAlarm activation marker).Only (Writes isWatchKey isAlarmField) := by
  cases marker with
  | none => trivial
  | some _ => exact writes_countAlarm _ _ (by simp [isAlarmField])

theorem writes_clearPortAlarm (port : PortState) (activation : ActivationId) :
    (clearPortAlarm port activation).Only (Writes isWatchKey isAlarmField) := by
  refine only_send trivial fun marker => ?_
  cases marker with
  | some _ => exact writes_countClearedPortAlarm _ _
  | none =>
      refine only_send trivial fun active => ?_
      cases active with
      | none => trivial
      | some alarm =>
          exact only_send trivial fun now => only_send ⟨rfl, rfl⟩ fun _ =>
            only_send trivial fun marker => writes_countClearedPortAlarm _ _

theorem writes_publishPortChange (port : PortState) (previous : Option PortState) :
    (publishPortChange port previous).Only (Writes isWatchKey isAlarmField) := by
  unfold publishPortChange
  split_ifs
  · trivial
  · refine only_send trivial fun now => ?_
    cases previous with
    | none => exact only_last rfl
    | some previous => exact only_last rfl

theorem writes_openPortFault (port : PortState) (fault : Option PortFault) :
    (openPortFault port fault).Only (Writes isWatchKey isAlarmField) := by
  unfold openPortFault
  split
  · trivial
  · exact only_send trivial fun now => only_send rfl fun _ => trivial

theorem writes_clearedStatus (fault : PortFault) :
    (clearedStatus fault).Only (Writes isWatchKey isAlarmField) := by
  unfold clearedStatus
  split
  · trivial
  · refine only_send trivial fun processed => ?_
    rcases processed with _ | _ | _ <;> trivial
  · trivial

theorem writes_closePortFault (port : PortState) (fault : Option PortFault) :
    (closePortFault port fault).Only (Writes isWatchKey isAlarmField) := by
  unfold closePortFault
  split
  · trivial
  · exact (writes_clearPortAlarm _ _).bind fun _ => (writes_clearedStatus _).bind fun status =>
      only_last rfl

theorem writes_publishPortState (port : PortState) (affected : Nat) :
    (publishPortState port affected).Only (Writes isWatchKey isAlarmField) := by
  refine only_send trivial fun previous => ?_
  refine (writes_publishPortChange _ _).bind fun _ => only_send trivial fun fault => ?_
  split_ifs
  · exact (writes_openPortFault _ _).bind fun activation => writes_publishPortAlarm _ _ _
  · exact writes_closePortFault _ _

theorem writes_pollDirection (direction : PortDirection) (actual : List AppliedConnection)
    (unavailable ids : List Nat) :
    (pollDirection direction actual unavailable ids).Only (Writes isWatchKey isAlarmField) := by
  induction ids generalizing unavailable with
  | nil => trivial
  | cons id rest ih =>
      refine only_send trivial fun reply => ?_
      refine Prog.Only.bind (only_writes (within_readOrRaise reply)) fun port => ?_
      exact (writes_publishPortState _ _).bind fun _ => ih _

theorem writes_pollPortStates (info : DeviceInfo) (actual : List AppliedConnection) :
    (pollPortStates info actual).Only (Writes isWatchKey isAlarmField) :=
  (writes_pollDirection _ _ _ _).bind fun _ => (writes_pollDirection _ _ _ _).bind
    fun _ => trivial

theorem writes_countDriftAlarm (marker : Option AlarmMarker) :
    (countDriftAlarm marker).Only (Writes isWatchKey isAlarmField) := by
  unfold countDriftAlarm
  split
  · exact only_raise trivial
  · split_ifs
    · exact writes_countAlarm _ _ (by simp [isAlarmField])
    · trivial

theorem writes_publishDriftAlarm (command : CommandId) (desiredVersion count : Nat) :
    (publishDriftAlarm command desiredVersion count).Only (Writes isWatchKey isAlarmField) := by
  refine only_send trivial fun marker => ?_
  cases marker with
  | some marker => exact writes_countDriftAlarm _
  | none =>
      exact only_send trivial fun active => only_send trivial fun now =>
        only_send ⟨rfl, rfl⟩ fun _ => only_send trivial fun marker => writes_countDriftAlarm _

theorem writes_countClearedDriftAlarm (marker : Option AlarmMarker) :
    (countClearedDriftAlarm marker).Only (Writes isWatchKey isAlarmField) := by
  unfold countClearedDriftAlarm
  split
  · exact only_raise trivial
  · exact writes_countAlarm _ _ (by simp [isAlarmField])

theorem writes_clearDriftAlarm (command : CommandId) (desiredVersion : Nat) :
    (clearDriftAlarm command desiredVersion).Only (Writes isWatchKey isAlarmField) := by
  refine only_send trivial fun marker => only_send trivial fun active => ?_
  cases marker with
  | some marker => exact writes_countClearedDriftAlarm _
  | none =>
      cases active with
      | none => trivial
      | some alarm =>
          exact only_send trivial fun now => only_send ⟨rfl, rfl⟩ fun _ =>
            only_send trivial fun marker => writes_countClearedDriftAlarm _

theorem writes_associatePortFaults (command : CommandId) :
    (associatePortFaults command).Only (Writes isWatchKey isAlarmField) := by
  refine Prog.Only.bind (writes_idle within_portFaults) fun faults => ?_
  dsimp only
  split_ifs
  · trivial
  · refine only_last fun entry hentry => ?_
    obtain ⟨fault, -, rfl⟩ := List.mem_map.mp hentry
    rfl

theorem writes_recoverFaults (faults : List ((PortDirection × Nat) × PortFault)) :
    (recoverFaults faults).Only (Writes isWatchKey isAlarmField) := by
  unfold recoverFaults
  dsimp only
  split_ifs
  · trivial
  · refine only_last fun entry hentry => ?_
    obtain ⟨fault, -, rfl⟩ := List.mem_map.mp hentry
    rfl

theorem writes_recoverPlan (desired : List ConnectionCommand) (actual : List AppliedConnection)
    (faults : List ((PortDirection × Nat) × PortFault)) (plan : ReconciliationPlan) :
    (recoverPlan desired actual faults plan).Only (Writes isWatchKey isAlarmField) := by
  unfold recoverPlan
  split_ifs
  · trivial
  · refine Prog.Only.bind (writes_idle (within_portDrifts _ _ _)) fun drifts => ?_
    split_ifs
    · exact (writes_recoverFaults _).bind fun _ => trivial
    · trivial

end Watch

/-- What the start of the process writes besides port states and alarms. -/
def isStartKey (k : SyncdKey) : Bool := isRecoveryKey k || isDeviceKey k

theorem within_initializeDeviceState (info : DeviceInfo) (actual : List AppliedConnection)
    (state : Option DeviceStateHash) :
    (initializeDeviceState info actual state).Only (Within isStartKey isActiveConnections) := by
  have hpublish : ∀ generation count status error,
      (publishDeviceState generation count status error).Only
        (Within isStartKey isActiveConnections) := fun generation count status error =>
    (within_publishDeviceState generation count status error).mono fun o ho => ho.mono
      (fun k hk => by simp [isStartKey, hk]) (fun f hf => by cases hf)
  unfold initializeDeviceState
  split
  · exact only_last rfl
  · split_ifs
    · refine Prog.Only.bind ?_ fun _ => hpublish _ _ _ _
      exact (within_scheduleGenerationRecovery info actual).mono fun o ho => ho.mono
        (fun k hk => by simp [isStartKey, hk]) (fun f hf => hf)
    · exact hpublish _ _ _ _
    · trivial

end MiniOcs.Syncd
