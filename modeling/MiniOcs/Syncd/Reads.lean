import MiniOcs.Concurrent.Provenance
import MiniOcs.Syncd.Actions

/-!
# Programs that only read, and programs that only publish

Long stretches of the command handler write nothing, or only the effects of one command behind
their markers. What they write is said once here; what follows for an invariant is a matter of
the single operation.
-/
namespace MiniOcs.Syncd
open Concurrent

section Rules

variable {α : Type} {P : Op → Prop} {Q : α → Prop}

theorem given_send {o : SyncdOp} {k : o.Reply → Service α} (ho : P (.syncd o))
    (hk : ∀ r, (k r).Given P (fun _ _ => True) Q) :
    (Syncd.send o >>= k).Given P (fun _ _ => True) Q := ⟨ho, fun r _ => hk r⟩

theorem given_last {o : SyncdOp} (ho : P (.syncd o)) :
    (Syncd.send o).Given P (fun _ _ => True) fun _ => True := ⟨ho, fun _ _ => trivial⟩

theorem given_raise {e : Raised} (ho : P (.syncd (.raise e))) :
    (Syncd.raise e : Service α).Given P (fun _ _ => True) Q := ⟨ho, fun _ _ => trivial⟩

end Rules

/-! ## ReadOp -/

def isRead : SyncdOp → Bool
  | .getConfigBatch _ | .getState _ | .getHash _ | .scanPortFaults | .now | .readMemory
  | .getDeviceInfo | .getConnections | .getPortState _ _ => true
  | _ => false

def ReadOp : Op → Prop
  | .syncd o => isRead o = true
  | .orch _ => False

abbrev ReadsTo {α : Type} (Q : α → Prop) (p : Service α) : Prop :=
  p.Given ReadOp (fun _ _ => True) Q

theorem reads_recoverPreparedBatch (event : CommandEvent) :
    ReadsTo (fun _ => True) (recoverPreparedBatch event) := by
  refine given_send rfl fun prepared => ?_
  cases prepared with
  | none => trivial
  | some payload =>
      dsimp only
      split <;> trivial

theorem reads_isStaleVersion (event : CommandEvent) (batch : DeviceCommandBatch) :
    ReadsTo (fun _ => True) (isStaleVersion event batch) := by
  unfold isStaleVersion
  split_ifs
  · trivial
  · refine given_send rfl fun memory => ?_
    induction batch.commands with
    | nil => trivial
    | cons c rest ih =>
        refine given_send rfl fun version => ?_
        split_ifs
        · exact ih
        · trivial

/-- The version hashes are the members' own, with one generation. -/
theorem reads_versionEntries (generation : Nat) (entries : List SyncdEntry)
    (commands : List ConnectionCommand) :
    ReadsTo (fun written => ∀ entry ∈ written, entry ∈ entries ∨ ∃ c ∈ commands,
        entry = ⟨.connectionVersion c.id, ⟨c.desiredVersion, generation⟩⟩)
      (versionEntries generation entries commands) := by
  induction commands generalizing entries with
  | nil => exact fun entry hmem => .inl hmem
  | cons c rest ih =>
      have hrest : ∀ entry : SyncdEntry, (∃ a ∈ rest,
          entry = ⟨.connectionVersion a.id, ⟨a.desiredVersion, generation⟩⟩) → ∃ a ∈ c :: rest,
            entry = ⟨.connectionVersion a.id, ⟨a.desiredVersion, generation⟩⟩ := by
        rintro entry ⟨a, ha, heq⟩
        exact ⟨a, List.mem_cons_of_mem _ ha, heq⟩
      refine given_send rfl fun existing => ?_
      split_ifs
      · exact (ih entries).mono fun written h entry hmem => (h entry hmem).imp_right (hrest entry)
      · refine (ih _).mono fun written h entry hmem => ?_
        rcases h entry hmem with hold | hnew
        · rcases List.mem_append.mp hold with hold | hown
          · exact .inl hold
          · exact .inr ⟨c, List.mem_cons_self, List.mem_singleton.mp hown⟩
        · exact .inr (hrest entry hnew)

theorem reads_appliedVersions (generation : Nat) (commands : List ConnectionCommand)
    (applied : Bool) :
    ReadsTo (fun written => ∀ entry ∈ written, ∃ c ∈ commands,
        entry = ⟨.connectionVersion c.id, ⟨c.desiredVersion, generation⟩⟩)
      (appliedVersions generation commands applied) := by
  unfold appliedVersions
  split_ifs
  · refine (reads_versionEntries generation [] commands).mono fun written h entry hmem => ?_
    exact (h entry hmem).resolve_left List.not_mem_nil
  · exact fun entry hmem => absurd hmem List.not_mem_nil

theorem reads_portFaults : ReadsTo (fun _ => True) portFaults := by
  refine given_send rfl fun keys => ?_
  generalize ([] : List ((PortDirection × Nat) × PortFault)) = faults
  induction keys generalizing faults with
  | nil => trivial
  | cons key rest ih =>
      refine given_send rfl fun fault => ?_
      cases fault with
      | none => exact ih _
      | some fault => exact ih _

/-! ## The end of a command -/

abbrev RepairsOnly (entries : List SyncdEntry) : Prop :=
  ∀ entry ∈ entries, isRepairKey entry.1 = true

theorem repair_controlEntry (command : CommandId) (applied : Bool)
    (control : Option ReconciliationControl) : RepairsOnly (controlEntry command applied control) := by
  unfold RepairsOnly controlEntry
  split
  · split_ifs <;> simp [isRepairKey]
  · simp

theorem repair_recoveredFaults (command : CommandId)
    (faults : List ((PortDirection × Nat) × PortFault)) :
    RepairsOnly (recoveredFaults command faults) := by
  intro entry hentry
  obtain ⟨fault, -, rfl⟩ := List.mem_map.mp hentry
  rfl

/-- Reading, and counting a success of the reconciliation. -/
def Tallies (command : CommandId) (o : Op) : Prop :=
  ReadOp o ∨ o = .syncd (.incrementOnce (.reconciliationSuccessPublication command) ()
    { increments := [(.reconciliationSuccessTotal, 1)] })

theorem tallies_markReconciliation (event : CommandEvent) (applied : Bool) :
    (markReconciliation event applied).Given (Tallies event.id) (fun _ _ => True) RepairsOnly := by
  unfold markReconciliation
  split_ifs
  · exact fun entry hmem => absurd hmem List.not_mem_nil
  · refine given_send (.inl rfl) fun control => ?_
    refine given_send (.inr rfl) fun _ => ?_
    refine (reads_portFaults.permit fun _ => Or.inl).bind fun faults _ => ?_
    intro entry hmem
    rcases List.mem_append.mp hmem with hmem | hmem
    · exact repair_controlEntry _ _ control entry hmem
    · exact repair_recoveredFaults _ faults entry hmem
  · exact given_send (.inl rfl) fun control => repair_controlEntry _ _ control

theorem given_markProcessed {P : Op → Prop} {event : CommandEvent} {batch : DeviceCommandBatch}
    {applied : Bool} (htally : ∀ o, Tallies event.id o → P o)
    (hput : ∀ generation versions repairs, (∀ entry ∈ versions, ∃ c ∈ batch.commands,
        entry = ⟨.connectionVersion c.id, ⟨c.desiredVersion, generation⟩⟩) → RepairsOnly repairs →
      P (.syncd (.putHashesAtomically
        (⟨.processedCommand event.id, applied⟩ :: versions ++ repairs)))) :
    (markProcessed event batch applied).Given P (fun _ _ => True) fun _ => True := by
  refine given_send (htally _ (.inl rfl)) fun memory => ?_
  have hversions := (reads_appliedVersions memory.2 batch.commands applied).permit
    fun o ho => htally o (.inl ho)
  refine hversions.bind fun versions hversions => ?_
  refine ((tallies_markReconciliation event applied).permit htally).bind fun repairs hrepairs => ?_
  exact given_last (hput memory.2 versions repairs hversions hrepairs)

/-! ## Publishing -/

/-- The markers of the effects of a command. -/
def isEffectOf (command : CommandId) : SyncdKey → Bool
  | .statePublication owner _ | .countersPublication owner | .resultPublication owner _ =>
      owner = command
  | _ => false

/-- Reading, and publishing states and results of the command. -/
def Serves (command : CommandId) : Op → Prop
  | .syncd (.putHashIfAbsent k _) => isEffectOf command k = true
  | .syncd (.replaceStateOnce marker _ _ _ event) => isEffectOf command marker = true ∧
      ∃ member, event.id = .command command member
  | .syncd (.appendResultOnce marker _ event) => isEffectOf command marker = true ∧
      event.id.command = command
  | .syncd (.raise _) => True
  | o => ReadOp o

abbrev ServesOnly {α : Type} (command : CommandId) (p : Service α) : Prop :=
  p.Given (Serves command) (fun _ _ => True) fun _ => True

section Publishing

variable {event : CommandEvent} {c : ConnectionCommand}

theorem serves_markedDelta {command : CommandId} (delta : Option Int) :
    ServesOnly command (markedDelta delta) := by
  cases delta with
  | none => exact given_raise trivial
  | some delta => trivial

theorem serves_replaceMemberState (before after : Bool) (operation : ConnectionOperation)
    (state : Option ConnectionState) :
    ServesOnly event.id (replaceMemberState event c before after operation state) := by
  refine given_send ⟨decide_eq_true rfl, c.id, rfl⟩ fun published => ?_
  split_ifs
  · trivial
  · exact given_send rfl fun marker => serves_markedDelta _

theorem serves_skipMemberState (marker : StatePublication) :
    ServesOnly event.id (skipMemberState event c marker) :=
  given_send (decide_eq_true rfl) fun _ => given_send rfl fun _ => serves_markedDelta _

theorem serves_publishMemberState (result : ApplyResult) (previous : Option ConnectionState) :
    ServesOnly event.id (publishMemberState event result c previous) := by
  unfold publishMemberState
  dsimp only
  split_ifs
  · split
    · exact serves_replaceMemberState _ _ _ _
    · split
      · exact given_raise trivial
      · exact serves_replaceMemberState _ _ _ _
  · exact given_send rfl fun state => serves_replaceMemberState _ _ _ _

theorem serves_publishMember (result : ApplyResult) :
    ServesOnly event.id (publishMember event result c) := by
  refine given_send rfl fun published => ?_
  cases published with
  | some marker => trivial
  | none =>
      refine given_send rfl fun previous => ?_
      split_ifs
      · exact serves_skipMemberState _
      · split
        · exact given_raise trivial
        · exact serves_skipMemberState _
        · exact serves_publishMemberState result previous

theorem serves_publishState (result : ApplyResult) (total : Int)
    (commands : List ConnectionCommand) :
    ServesOnly event.id (publishState event result total commands) := by
  induction commands generalizing total with
  | nil => trivial
  | cons c rest ih => exact (serves_publishMember result).bind fun delta _ => ih _

theorem serves_publishMemberResults (result : ApplyResult) (commands : List ConnectionCommand) :
    ServesOnly event.id (publishMemberResults event result commands) := by
  induction commands with
  | nil => trivial
  | cons c rest ih =>
      exact given_send rfl fun _ => given_send ⟨decide_eq_true rfl, rfl⟩ fun _ => ih

theorem serves_publishResult (batch : DeviceCommandBatch) (result : ApplyResult) :
    ServesOnly event.id (publishResult event batch result) := by
  unfold publishResult
  split_ifs
  · exact given_send ⟨decide_eq_true rfl, rfl⟩ fun _ => trivial
  · exact serves_publishMemberResults result batch.commands

end Publishing

end MiniOcs.Syncd
