import MiniOcs.Concurrent.System
import MiniOcs.Concurrent.Triple
import MiniOcs.Orch.Agreement
import MiniOcs.Syncd.Footprint

/-!
# Reconciliations

One syncd that may be lost anywhere, among Sets, orchestrators and a device that do what they
like. The control record of reconciliations, the command stream and the processed commands are
kept consistent by every operation; a poll is observed, so that what it compared can be named.
-/
namespace MiniOcs.Syncd
open Std Concurrent

/-! ## An observed poll -/

/-- What a poll that came to compare the two sides compared. -/
structure Sighting where
  desired : List ConnectionCommand
  effective : List AppliedConnection
  deriving DecidableEq, Repr

def reconcileObserved (info : DeviceInfo) (effective : List AppliedConnection) :
    Service (Option Sighting) := do
  let desired ← loadDesiredConnections
  let isSettled ← orchestrationSettled desired
  if !isSettled then .pure none
  else match buildReconciliationPlan desired effective with
    | .error message => raise (.invalidArgument message)
    | .ok plan => do
        reconcilePlan info desired effective plan
        .pure (some ⟨desired, effective⟩)

def reconcileObservedUnlessRecovering (info : DeviceInfo) (effective : List AppliedConnection) :
    Service (Option Sighting) := do
  let recovery : Option GenerationRecovery ← send (.getHash (.generationRecovery info.generation))
  let pending ← recoveryPending recovery
  if pending then .pure none else reconcileObserved info effective

def refreshObserved (info : DeviceInfo) (actual effective : List AppliedConnection)
    (state : Option DeviceStateHash) : Service (Option Sighting) :=
  if sameGeneration info state then reconcileObservedUnlessRecovering info effective
  else do
    scheduleGenerationRecovery info actual
    .pure none

def pollObservedConnected : Service (Bool × Option Sighting) := do
  let reply ← send .getDeviceInfo
  let info ← readOrRaise reply
  let memory ← send .readMemory
  if memory.1 ≠ "" ∧ info.name ≠ memory.1 then
    raise (.runtimeError "connected device identity changed after handshake")
  else
    let reply ← send .getConnections
    let actual ← readOrRaise reply
    let effective ← pollPortStates info actual
    let state : Option DeviceStateHash ← send (.getHash .deviceState)
    let _ ← send (.remember info.name info.generation)
    let seen ← refreshObserved info actual effective state
    refreshDeviceState info actual.length state
    .pure (true, seen)

/-- A program that observes nothing. -/
def unobserved (p : Service Bool) : Service (Bool × Option Sighting) :=
  p >>= fun ok => .pure (ok, none)

def pollObserved : Service (Bool × Option Sighting) :=
  pollObservedConnected.tryCatch fun error => unobserved (pollFailed error)

theorem reconcileObserved_erased (info : DeviceInfo) (effective : List AppliedConnection) :
    (reconcileObserved info effective >>= fun _ => .pure ()) = reconcileDevice info effective := by
  unfold reconcileObserved reconcileDevice
  simp only [Prog.bind_assoc']
  congr 1; funext desired
  congr 1; funext isSettled
  split_ifs
  · rfl
  · cases buildReconciliationPlan desired effective with
    | error message => rfl
    | ok plan =>
        dsimp only
        rw [Prog.bind_assoc']
        exact Prog.bind_pure' _

theorem refreshObserved_erased (info : DeviceInfo) (actual effective : List AppliedConnection)
    (state : Option DeviceStateHash) :
    (refreshObserved info actual effective state >>= fun _ => .pure ()) =
      refreshConnections info actual effective state := by
  unfold refreshObserved refreshConnections
  split_ifs
  · unfold reconcileObservedUnlessRecovering reconcileUnlessRecovering
    simp only [Prog.bind_assoc']
    congr 1; funext recovery
    congr 1; funext pending
    split_ifs
    · rfl
    · exact reconcileObserved_erased info effective
  · rw [Prog.bind_assoc']
    exact Prog.bind_pure' _

/-- An observed poll does what a poll does. -/
theorem pollObserved_erased : (pollObserved >>= fun r => .pure r.1) = pollDevice := by
  unfold pollObserved pollDevice
  rw [Prog.tryCatch_bind_pure]
  congr 1
  · unfold pollObservedConnected pollConnected
    simp only [Prog.bind_assoc']
    congr 1; funext reply
    congr 1; funext info
    congr 1; funext memory
    split_ifs
    · rfl
    · simp only [Prog.bind_assoc']
      congr 1; funext reply
      congr 1; funext actual
      congr 1; funext effective
      congr 1; funext state
      congr 1; funext _
      rw [← refreshObserved_erased, Prog.bind_assoc']
      rfl
  · funext error
    unfold unobserved
    rw [Prog.bind_assoc']
    exact Prog.bind_pure' _

/-! ## The system -/

/-- What the others do: nobody else writes the state of syncd, and nobody else publishes
reconciliations. -/
structure Around (s t : World) : Prop where
  syncd : t.syncd = s.syncd
  commands : ∃ extra, t.commands = s.commands ++ extra ∧
    ∀ event ∈ extra, event.id.isReconciliation = false

/-- The clock does not give a new reconciliation the time of a published one. -/
def freshly : Op → Nat → World → Bool
  | .syncd (.putHash .reconciliation control), _, w => decide (control.status ≠ .publishing) ||
      (w.syncd.hash (.reconciliationCommandPublication control.command)).isNone
  | _, _, _ => true

/-- One syncd. It is initialized, and then handles commands and polls. -/
def reconcileSystem (allow : Op → Nat → World → Prop) :
    System Op Op.Reply Raised (Bool × Option Sighting) World Unit where
  exec := exec
  init w := ∃ inventory hwsim, w = { inventory := inventory, hwsim := hwsim }
  starts _ w p := (w.syncd.deviceName = "" ∧ p = unobserved initializeService) ∨
    (w.syncd.deviceName ≠ "" ∧ (p = unobserved processOne ∨ p = pollObserved))
  crash _ := forget
  env := Around
  allow _ := allow

/-- The batch that a reconciliation publishes. -/
def snapshotBatch (signature : DeviceCommandBatch) (command : CommandId) : DeviceCommandBatch :=
  { signature with options := { signature.options with operationId := some command } }

/-- A reconciliation of the snapshot waits in the command stream. -/
def Attended (w : World) (snapshot : DeviceCommandBatch) : Prop :=
  ∃ n event, w.commands[n]? = some event ∧ event.operation = .reconcile ∧
    event.payload = snapshotBatch snapshot event.id ∧ ¬w.syncd.group.Acked n

/-- The last reconciliation was one of the snapshot and has failed. -/
def LastFailed (w : World) (snapshot : DeviceCommandBatch) : Prop :=
  ∃ control, w.syncd.hash .reconciliation = some control ∧ control.signature = snapshot ∧
    w.syncd.hash (.processedCommand control.command) = some false

/-- The last reconciliation was one of the snapshot and has succeeded, and no poll found the
two sides equal since. -/
def Repaired (w : World) (snapshot : DeviceCommandBatch) : Prop :=
  ∃ control, w.syncd.hash .reconciliation = some control ∧ control.signature = snapshot ∧
    control.status = .applied

/-! ## The ledger -/

/-- The control record, the processed commands and the published reconciliations. -/
def isLedgerKey : SyncdKey → Bool
  | .reconciliation | .processedCommand _ | .reconciliationCommandPublication _ => true
  | _ => false

structure Ledger (w : World) : Prop where
  unprocessed : ∀ control, w.syncd.hash .reconciliation = some control →
    control.status = .publishing ∨ control.status = .published →
      w.syncd.hash (.processedCommand control.command) = none
  published : ∀ control, w.syncd.hash .reconciliation = some control →
    control.status = .published →
      (w.syncd.hash (.reconciliationCommandPublication control.command)).isSome
  failed : ∀ control, w.syncd.hash .reconciliation = some control → control.status = .failed →
    w.syncd.hash (.processedCommand control.command) = some false
  carried : ∀ control, w.syncd.hash .reconciliation = some control →
    (w.syncd.hash (.reconciliationCommandPublication control.command)).isSome →
      ∃ event ∈ w.commands, event.id = control.command ∧ event.operation = .reconcile ∧
        event.payload = snapshotBatch control.signature control.command
  marked : ∀ event ∈ w.commands, event.id.isReconciliation = true →
    (w.syncd.hash (.reconciliationCommandPublication event.id)).isSome
  processed : ∀ k, k.isReconciliation = true → (w.syncd.hash (.processedCommand k)).isSome →
    (w.syncd.hash (.reconciliationCommandPublication k)).isSome
  acknowledged : ∀ n, w.syncd.group.Acked n →
    ∃ event : CommandEvent, w.commands[n]? = some event ∧ (w.syncd.hash (.processedCommand event.id)).isSome

theorem ledger_init (inventory : Gnmi.Inventory) (hwsim : SimulatedOcsDevice CommandId) :
    Ledger { inventory := inventory, hwsim := hwsim } := by
  refine ⟨?_, ?_, ?_, ?_, ?_, ?_, ?_⟩ <;> intros <;> simp_all [Group.Acked]

/-- A published reconciliation that is not processed waits in the stream. -/
theorem Ledger.attended {w : World} (h : Ledger w) {control : ReconciliationControl}
    (hcontrol : w.syncd.hash .reconciliation = some control)
    (hpublished : control.status = .published) : Attended w control.signature := by
  obtain ⟨event, hmem, hid, hop, hpayload⟩ :=
    h.carried control hcontrol (h.published control hcontrol hpublished)
  obtain ⟨n, hget⟩ := List.getElem?_of_mem hmem
  refine ⟨n, event, hget, hop, by rw [hid]; exact hpayload, fun hacked => ?_⟩
  obtain ⟨event', hget', hprocessed⟩ := h.acknowledged n hacked
  rw [hget] at hget'
  cases hget'
  rw [hid, h.unprocessed control hcontrol (.inr hpublished)] at hprocessed
  cases hprocessed

section Ledger

variable {w w' : World}

/-- New commands that are no reconciliations, and fewer entries to acknowledge. -/
theorem Ledger.grow (h : Ledger w)
    (hhash : ∀ k, isLedgerKey k = true → w'.syncd.hash k = w.syncd.hash k)
    (hcommands : ∃ extra, w'.commands = w.commands ++ extra ∧
      ∀ event ∈ extra, event.id.isReconciliation = false)
    (hacked : ∀ n, w'.syncd.group.Acked n → w.syncd.group.Acked n ∨
      ∃ event : CommandEvent, w.commands[n]? = some event ∧
        (w.syncd.hash (.processedCommand event.id)).isSome) : Ledger w' := by
  obtain ⟨extra, hextra, hforeign⟩ := hcommands
  have hprefix : w.commands <+: w'.commands := by rw [hextra]; exact List.prefix_append _ _
  constructor
  · intro control hcontrol hstatus
    rw [hhash _ rfl] at hcontrol ⊢
    exact h.unprocessed control hcontrol hstatus
  · intro control hcontrol hstatus
    rw [hhash _ rfl] at hcontrol ⊢
    exact h.published control hcontrol hstatus
  · intro control hcontrol hstatus
    rw [hhash _ rfl] at hcontrol ⊢
    exact h.failed control hcontrol hstatus
  · intro control hcontrol hmarker
    rw [hhash _ rfl] at hcontrol hmarker
    obtain ⟨event, hmem, hrest⟩ := h.carried control hcontrol hmarker
    exact ⟨event, hprefix.subset hmem, hrest⟩
  · intro event hmem hid
    rw [hhash _ rfl]
    rw [hextra] at hmem
    rcases List.mem_append.mp hmem with hmem | hmem
    · exact h.marked event hmem hid
    · rw [hforeign event hmem] at hid
      cases hid
  · intro k hk hprocessed
    rw [hhash _ rfl] at hprocessed ⊢
    exact h.processed k hk hprocessed
  · intro n hn
    obtain ⟨event, hget, hprocessed⟩ := (hacked n hn).elim (h.acknowledged n) id
    refine ⟨event, Gnmi.getElem?_of_prefix hprefix hget, ?_⟩
    rw [hhash _ rfl]
    exact hprocessed

theorem Ledger.around (h : Ledger w) (ht : Around w w') : Ledger w' :=
  h.grow (fun _ _ => by rw [ht.syncd]) ht.commands fun n hn => .inl (by rw [← ht.syncd]; exact hn)

/-- Only the control record differs. -/
theorem Ledger.setControl (h : Ledger w) {control : ReconciliationControl}
    (hunprocessed : control.status = .publishing ∨ control.status = .published →
      w.syncd.hash (.processedCommand control.command) = none)
    (hpublished : control.status = .published →
      (w.syncd.hash (.reconciliationCommandPublication control.command)).isSome)
    (hfailed : control.status ≠ .failed)
    (hcarried : (w.syncd.hash (.reconciliationCommandPublication control.command)).isSome →
      ∃ event ∈ w.commands, event.id = control.command ∧ event.operation = .reconcile ∧
        event.payload = snapshotBatch control.signature control.command) :
    Ledger (w.markSyncd .reconciliation control) := by
  have hself : ∀ c, (w.markSyncd .reconciliation control).syncd.hash .reconciliation = some c →
      c = control := by
    intro c hc
    rw [World.markSyncd_hash_self] at hc
    exact (Option.some.inj hc).symm
  have hne : ∀ k, k ≠ .reconciliation →
      (w.markSyncd .reconciliation control).syncd.hash k = w.syncd.hash k :=
    fun k hk => World.markSyncd_hash_of_ne _ _ _ hk
  constructor
  · intro c hc hstatus
    cases hself c hc
    rw [hne _ (by simp)]
    exact hunprocessed hstatus
  · intro c hc hstatus
    cases hself c hc
    rw [hne _ (by simp)]
    exact hpublished hstatus
  · intro c hc hstatus
    cases hself c hc
    exact absurd hstatus hfailed
  · intro c hc hmarker
    cases hself c hc
    rw [hne _ (by simp)] at hmarker
    exact hcarried hmarker
  · intro event hmem hid
    rw [hne _ (by simp)]
    exact h.marked event hmem hid
  · intro k hk hprocessed
    rw [hne _ (by simp)] at hprocessed ⊢
    exact h.processed k hk hprocessed
  · intro n hn
    obtain ⟨event, hget, hprocessed⟩ := h.acknowledged n hn
    exact ⟨event, hget, by rw [hne _ (by simp)]; exact hprocessed⟩

/-- The hash that the last entry of a key leaves. -/
theorem putEntries_hash_append (entries : List SyncdEntry) {rest : List SyncdEntry}
    {k : SyncdKey} {v : SyncdHash k} (hrest : ∀ entry ∈ rest, entry.1 ≠ k) :
    (w.putEntries (entries ++ ⟨k, v⟩ :: rest)).syncd.hash k = some v := by
  have hsplit : w.putEntries (entries ++ ⟨k, v⟩ :: rest) =
      ((w.putEntries entries).markSyncd k v).putEntries rest := by
    simp [World.putEntries, World.markSyncd, World.setSyncd]
  rw [hsplit, putEntries_hash_of_notMem hrest, World.markSyncd_hash_self]

/-- The entries that mark a command as processed. -/
def processedEntries (event : CommandEvent) (applied : Bool)
    (control : Option ReconciliationControl) (versions faults : List SyncdEntry) :
    List SyncdEntry :=
  ⟨.processedCommand event.id, applied⟩ :: versions ++
    (controlEntry event.id applied control ++ faults)

theorem controlEntry_key {command : CommandId} {applied : Bool}
    {control : Option ReconciliationControl} :
    ∀ entry ∈ controlEntry command applied control, entry.1 = .reconciliation := by
  intro entry hmem
  cases control with
  | none => cases hmem
  | some control =>
      by_cases hcommand : control.command = command
      · simp only [controlEntry, hcommand, if_true] at hmem
        rw [List.mem_singleton.mp hmem]
      · simp only [controlEntry, hcommand, if_false] at hmem
        cases hmem

section Processed

variable {event : CommandEvent} {applied : Bool} {control : Option ReconciliationControl}
  {versions faults : List SyncdEntry}

theorem processedEntries_hash (w : World) (event : CommandEvent) (applied : Bool)
    (control : Option ReconciliationControl)
    (hversions : ∀ entry ∈ versions, isLedgerKey entry.1 = false)
    (hfaults : ∀ entry ∈ faults, isLedgerKey entry.1 = false) :
    (w.putEntries (processedEntries event applied control versions faults)).syncd.hash
      (.processedCommand event.id) = some applied := by
  refine putEntries_hash_append [] fun entry hmem hk => ?_
  rcases List.mem_append.mp hmem with hmem | hmem
  · have := hversions entry hmem
    rw [hk] at this
    cases this
  · rcases List.mem_append.mp hmem with hmem | hmem
    · rw [controlEntry_key entry hmem] at hk
      cases hk
    · have := hfaults entry hmem
      rw [hk] at this
      cases this

theorem processedEntries_hash_of_ne (hversions : ∀ entry ∈ versions, isLedgerKey entry.1 = false)
    (hfaults : ∀ entry ∈ faults, isLedgerKey entry.1 = false) {k : SyncdKey}
    (hk : isLedgerKey k = true) (hself : k ≠ .processedCommand event.id)
    (hcontrol : k ≠ .reconciliation) :
    (w.putEntries (processedEntries event applied control versions faults)).syncd.hash k =
      w.syncd.hash k := by
  refine putEntries_hash_of_notMem fun entry hmem heq => ?_
  subst heq
  rcases List.mem_append.mp hmem with hmem | hmem
  · rcases List.mem_cons.mp hmem with rfl | hmem
    · exact hself rfl
    · rw [hversions entry hmem] at hk
      cases hk
  · rcases List.mem_append.mp hmem with hmem | hmem
    · exact hcontrol (controlEntry_key entry hmem)
    · rw [hfaults entry hmem] at hk
      cases hk

/-- The control record of the command gets its outcome; any other one stands. -/
theorem processedEntries_control (hversions : ∀ entry ∈ versions, isLedgerKey entry.1 = false)
    (hfaults : ∀ entry ∈ faults, isLedgerKey entry.1 = false) {c : ReconciliationControl}
    (hc : (w.putEntries (processedEntries event applied (w.syncd.hash .reconciliation) versions
      faults)).syncd.hash .reconciliation = some c) :
    (∃ old, w.syncd.hash .reconciliation = some old ∧ old.command = event.id ∧
      c = { old with status := if applied then .applied else .failed }) ∨
    (w.syncd.hash .reconciliation = some c ∧ c.command ≠ event.id) := by
  have hnone : ∀ (entries : List SyncdEntry),
      (∀ entry ∈ entries, isLedgerKey entry.1 = false) → ∀ entry ∈ entries,
        entry.1 ≠ .reconciliation := by
    intro entries hentries entry hmem heq
    have := hentries entry hmem
    rw [heq] at this
    cases this
  unfold processedEntries at hc
  cases hold : w.syncd.hash .reconciliation with
  | none =>
      rw [hold] at hc
      rw [putEntries_hash_of_notMem, hold] at hc
      · cases hc
      · simp only [controlEntry, List.nil_append, List.cons_append, List.mem_cons, List.mem_append]
        rintro entry (rfl | hmem | hmem)
        · simp
        · exact hnone _ hversions entry hmem
        · exact hnone _ hfaults entry hmem
  | some old =>
      rw [hold] at hc
      by_cases hcommand : old.command = event.id
      · simp only [controlEntry, hcommand, if_true, List.singleton_append] at hc
        rw [putEntries_hash_append _ (hnone _ hfaults)] at hc
        exact .inl ⟨old, rfl, hcommand, (Option.some.inj hc).symm⟩
      · simp only [controlEntry, hcommand, if_false, List.nil_append] at hc
        rw [putEntries_hash_of_notMem, hold] at hc
        · cases hc
          exact .inr ⟨rfl, hcommand⟩
        · simp only [List.cons_append, List.mem_cons, List.mem_append]
          rintro entry (rfl | hmem | hmem)
          · simp
          · exact hnone _ hversions entry hmem
          · exact hnone _ hfaults entry hmem

theorem putEntries_group (w : World) (entries : List SyncdEntry) :
    (w.putEntries entries).syncd.group = w.syncd.group := by
  induction entries generalizing w with
  | nil => rfl
  | cons entry rest ih =>
      rw [putEntries_cons, ih]
      rfl

theorem Ledger.process (h : Ledger w) (hqueued : event ∈ w.commands)
    (hversions : ∀ entry ∈ versions, isLedgerKey entry.1 = false)
    (hfaults : ∀ entry ∈ faults, isLedgerKey entry.1 = false) :
    Ledger (w.putEntries
      (processedEntries event applied (w.syncd.hash .reconciliation) versions faults)) := by
  have hself := processedEntries_hash w event applied (w.syncd.hash .reconciliation) hversions
    hfaults
  have hmarker : ∀ k, (w.putEntries (processedEntries event applied
      (w.syncd.hash .reconciliation) versions faults)).syncd.hash
        (.reconciliationCommandPublication k) =
      w.syncd.hash (.reconciliationCommandPublication k) := fun k =>
    processedEntries_hash_of_ne hversions hfaults rfl (by simp) (by simp)
  have hother : ∀ k, k ≠ event.id → (w.putEntries (processedEntries event applied
      (w.syncd.hash .reconciliation) versions faults)).syncd.hash (.processedCommand k) =
      w.syncd.hash (.processedCommand k) := fun k hk =>
    processedEntries_hash_of_ne hversions hfaults rfl (by simpa using hk) (by simp)
  have hset : ∀ k, (w.syncd.hash (.processedCommand k)).isSome →
      ((w.putEntries (processedEntries event applied
        (w.syncd.hash .reconciliation) versions faults)).syncd.hash
          (.processedCommand k)).isSome := by
    intro k hk
    by_cases heq : k = event.id
    · rw [heq, hself]; rfl
    · rw [hother k heq]; exact hk
  constructor
  · intro c hc hstatus
    rcases processedEntries_control hversions hfaults hc with ⟨old, -, -, rfl⟩ | ⟨hold, hne⟩
    · cases applied <;> rcases hstatus with hs | hs <;> cases hs
    · rw [hother _ hne]
      exact h.unprocessed c hold hstatus
  · intro c hc hstatus
    rcases processedEntries_control hversions hfaults hc with ⟨old, -, -, rfl⟩ | ⟨hold, hne⟩
    · cases applied <;> cases hstatus
    · rw [hmarker]
      exact h.published c hold hstatus
  · intro c hc hstatus
    rcases processedEntries_control hversions hfaults hc with ⟨old, -, hcommand, rfl⟩ | ⟨hold, hne⟩
    · change (w.putEntries _).syncd.hash (.processedCommand old.command) = _
      rw [hcommand, hself]
      cases applied
      · rfl
      · cases hstatus
    · rw [hother _ hne]
      exact h.failed c hold hstatus
  · intro c hc hm
    rw [hmarker] at hm
    rcases processedEntries_control hversions hfaults hc with ⟨old, hold, -, rfl⟩ | ⟨hold, -⟩
    · exact h.carried old hold hm
    · exact h.carried c hold hm
  · intro e hmem hid
    rw [hmarker]
    exact h.marked e hmem hid
  · intro k hk hprocessed
    rw [hmarker]
    by_cases heq : k = event.id
    · rw [heq] at hk ⊢
      exact h.marked event hqueued hk
    · rw [hother k heq] at hprocessed
      exact h.processed k hk hprocessed
  · intro n hn
    rw [putEntries_group] at hn
    obtain ⟨e, hget, hprocessed⟩ := h.acknowledged n hn
    exact ⟨e, hget, hset _ hprocessed⟩

end Processed

/-- A reconciliation is published under the control record that opened it. -/
theorem Ledger.publish (h : Ledger w) {control : ReconciliationControl} {event : CommandEvent}
    (hcontrol : w.syncd.hash .reconciliation = some control) (hid : event.id = control.command)
    (hop : event.operation = .reconcile)
    (hpayload : event.payload = snapshotBatch control.signature control.command) :
    Ledger ({ w with commands := w.commands ++ [event] }.markSyncd
      (.reconciliationCommandPublication control.command) ()) := by
  have hself : ({ w with commands := w.commands ++ [event] }.markSyncd
      (.reconciliationCommandPublication control.command) ()).syncd.hash
        (.reconciliationCommandPublication control.command) = some () :=
    World.markSyncd_hash_self _ _ _
  have hne : ∀ k, k ≠ .reconciliationCommandPublication control.command →
      ({ w with commands := w.commands ++ [event] }.markSyncd
        (.reconciliationCommandPublication control.command) ()).syncd.hash k =
        w.syncd.hash k := fun k hk => World.markSyncd_hash_of_ne _ _ _ hk
  have hset : ∀ k, (w.syncd.hash (.reconciliationCommandPublication k)).isSome →
      (({ w with commands := w.commands ++ [event] }.markSyncd
        (.reconciliationCommandPublication control.command) ()).syncd.hash
          (.reconciliationCommandPublication k)).isSome := by
    intro k hk
    by_cases heq : k = control.command
    · rw [heq, hself]; rfl
    · rw [hne _ (by simpa using heq)]; exact hk
  have hthis : ∀ c, ({ w with commands := w.commands ++ [event] }.markSyncd
      (.reconciliationCommandPublication control.command) ()).syncd.hash .reconciliation =
        some c → c = control := by
    intro c hc
    rw [hne _ (by simp), hcontrol] at hc
    exact (Option.some.inj hc).symm
  constructor
  · intro c hc hstatus
    cases hthis c hc
    rw [hne _ (by simp)]
    exact h.unprocessed control hcontrol hstatus
  · intro c hc _
    cases hthis c hc
    rw [hself]; rfl
  · intro c hc hstatus
    cases hthis c hc
    rw [hne _ (by simp)]
    exact h.failed control hcontrol hstatus
  · intro c hc _
    cases hthis c hc
    exact ⟨event, List.mem_append_right _ (List.mem_singleton.mpr rfl), hid, hop, hpayload⟩
  · intro e hmem he
    rcases List.mem_append.mp hmem with hmem | hmem
    · exact hset _ (h.marked e hmem he)
    · rw [List.mem_singleton.mp hmem, hid, hself]; rfl
  · intro k hk hprocessed
    rw [hne _ (by simp)] at hprocessed
    exact hset _ (h.processed k hk hprocessed)
  · intro n hn
    obtain ⟨e, hget, hprocessed⟩ := h.acknowledged n hn
    refine ⟨e, Gnmi.getElem?_of_prefix (List.prefix_append _ _) hget, ?_⟩
    rw [hne _ (by simp)]
    exact hprocessed

end Ledger

/-! ## What an operation may file -/

/-- A control record is opened, or the one that is there moves on. -/
def FilesControl (w : World) (control : ReconciliationControl) : Prop :=
  control.status = .publishing ∨ ∃ old, w.syncd.hash .reconciliation = some old ∧
    control = { old with status := control.status } ∧
    (control.status = .converged ∨ (control.status = .published ∧ old.status = .publishing ∧
      (w.syncd.hash (.reconciliationCommandPublication old.command)).isSome))

def FilesEntries (w : World) (entries : List SyncdEntry) : Prop :=
  (∀ entry ∈ entries, isLedgerKey entry.1 = false) ∨
    ∃ event applied versions faults, event ∈ w.commands ∧
      (∀ entry ∈ versions, isLedgerKey entry.1 = false) ∧
      (∀ entry ∈ faults, isLedgerKey entry.1 = false) ∧
      entries = processedEntries event applied (w.syncd.hash .reconciliation) versions faults

/-- A command is published as a reconciliation under its control record, or as none. -/
def FilesCommand (w : World) (marker : SyncdKey) (event : CommandEvent) : Prop :=
  (isLedgerKey marker = false ∧ event.id.isReconciliation = false) ∨
    ∃ control, w.syncd.hash .reconciliation = some control ∧
      marker = .reconciliationCommandPublication control.command ∧ event.id = control.command ∧
      event.operation = .reconcile ∧
      event.payload = snapshotBatch control.signature control.command

def Files (w : World) : SyncdOp → Prop
  | .xack n => ∃ event, w.commands[n]? = some event ∧
      (w.syncd.hash (.processedCommand event.id)).isSome
  | .putHash .reconciliation control => FilesControl w control
  | .putHash k _ => isLedgerKey k = false
  | .putHashIfAbsent k _ => isLedgerKey k = false
  | .putHashesAtomically entries => FilesEntries w entries
  | .replaceHashAndAppendEvent k _ _ => isLedgerKey k = false
  | .replaceStateOnce marker _ _ _ _ => isLedgerKey marker = false
  | .replaceAlarmOnce marker _ _ _ _ => isLedgerKey marker = false
  | .appendResultOnce marker _ _ => isLedgerKey marker = false
  | .appendCommandOnce marker _ event => FilesCommand w marker event
  | .incrementOnce marker _ _ => isLedgerKey marker = false
  | _ => True

section Exec

variable {w : World}

/-- The ledger and the stream look the same. -/
structure Kept (s t : World) : Prop where
  hash : ∀ k, isLedgerKey k = true → t.syncd.hash k = s.syncd.hash k
  commands : s.commands <+: t.commands

theorem Around.kept {s t : World} (h : Around s t) : Kept s t := by
  obtain ⟨extra, hextra, -⟩ := h.commands
  exact ⟨fun _ _ => by rw [h.syncd], by rw [hextra]; exact List.prefix_append _ _⟩

theorem isLedgerKey_ne {k k' : SyncdKey} (hk : isLedgerKey k = true) (hk' : isLedgerKey k' = false) :
    k ≠ k' := by
  rintro rfl
  rw [hk] at hk'
  cases hk'

theorem Ledger.same {w' : World} (h : Ledger w)
    (hhash : ∀ k, isLedgerKey k = true → w'.syncd.hash k = w.syncd.hash k)
    (hcommands : w'.commands = w.commands) (hgroup : w'.syncd.group = w.syncd.group) :
    Ledger w' :=
  h.grow hhash ⟨[], by rw [hcommands, List.append_nil], by simp⟩ fun n hn =>
    .inl (by rw [← hgroup]; exact hn)

theorem Ledger.once (h : Ledger w) {marker : SyncdKey} {v : SyncdHash marker}
    {write : World → World} (hmarker : isLedgerKey marker = false)
    (hhash : ∀ k, isLedgerKey k = true → (write w).syncd.hash k = w.syncd.hash k)
    (hcommands : (write w).commands = w.commands)
    (hgroup : (write w).syncd.group = w.syncd.group) :
    Ledger (w.onceSyncd marker v write).2 := by
  unfold World.onceSyncd
  split_ifs
  · exact h
  · refine h.same (fun k hk => ?_) hcommands hgroup
    exact (World.markSyncd_hash_of_ne _ _ _ (isLedgerKey_ne hk hmarker)).trans (hhash k hk)

theorem Ledger.control (h : Ledger w) {control : ReconciliationControl}
    (hfiles : FilesControl w control)
    (hfresh : control.status = .publishing →
      w.syncd.hash (.reconciliationCommandPublication control.command) = none) :
    Ledger (w.markSyncd .reconciliation control) := by
  rcases hfiles with hopen | ⟨old, hold, heq, hmove⟩
  · have hnone := hfresh hopen
    refine h.setControl (fun _ => ?_) (fun hs => ?_) (fun hs => ?_) fun hm => ?_
    · by_contra hset
      have := h.processed control.command rfl (Option.isSome_iff_ne_none.mpr hset)
      rw [hnone] at this
      cases this
    · rw [hopen] at hs; cases hs
    · rw [hopen] at hs; cases hs
    · rw [hnone] at hm; cases hm
  · have hcommand : control.command = old.command := by rw [heq]; rfl
    have hsignature : control.signature = old.signature := by rw [heq]
    refine h.setControl (fun hs => ?_) (fun hs => ?_) (fun hs => ?_) fun hm => ?_
    · rw [hcommand]
      rcases hmove with hc | ⟨-, hpublishing, -⟩
      · rcases hs with hs | hs <;> rw [hc] at hs <;> cases hs
      · exact h.unprocessed old hold (.inl hpublishing)
    · rw [hcommand]
      rcases hmove with hc | ⟨-, -, hmarker⟩
      · rw [hc] at hs; cases hs
      · exact hmarker
    · rcases hmove with hc | ⟨hc, -⟩ <;> rw [hc] at hs <;> cases hs
    · rw [hcommand] at hm ⊢
      rw [hsignature]
      exact h.carried old hold hm

theorem Ledger.command (h : Ledger w) {marker : SyncdKey} {v : SyncdHash marker}
    {event : CommandEvent} (hfiles : FilesCommand w marker event) :
    Ledger (w.onceSyncd marker v fun w => { w with commands := w.commands ++ [event] }).2 := by
  unfold World.onceSyncd
  split_ifs with hset
  · exact h
  · rcases hfiles with ⟨hmarker, hforeign⟩ | ⟨control, hcontrol, rfl, hid, hop, hpayload⟩
    · refine h.grow (fun k hk => ?_) ⟨[event], rfl, fun e he => ?_⟩ fun n hn => .inl hn
      · exact World.markSyncd_hash_of_ne _ _ _ (isLedgerKey_ne hk hmarker)
      · rw [List.mem_singleton.mp he]
        exact hforeign
    · exact h.publish hcontrol hid hop hpayload

/-- Every operation that files properly keeps the ledger. -/
theorem Ledger.exec (h : Ledger w) {o : SyncdOp} (hfiles : Files w o) {ch : Nat}
    (hfresh : freshly (.syncd o) ch w = true) : Ledger (o.exec ch w).2 := by
  cases o with
  | readGroup =>
      refine h.grow (fun _ _ => rfl) ⟨[], by simp [SyncdOp.exec, World.setSyncd], by simp⟩
        fun n hn => .inl ?_
      exact Group.acked_read.mp hn
  | xack n =>
      obtain ⟨event, hget, hprocessed⟩ := hfiles
      refine h.grow (fun _ _ => rfl) ⟨[], by simp [SyncdOp.exec, World.setSyncd], by simp⟩
        fun m hm => ?_
      rcases Group.acked_ack.mp hm with hm | ⟨rfl, -⟩
      · exact .inl hm
      · exact .inr ⟨event, hget, hprocessed⟩
  | putHash k v =>
      by_cases hk : k = .reconciliation
      · subst hk
        refine h.control hfiles fun hstatus => ?_
        simp only [freshly, Bool.or_eq_true, decide_eq_true_eq] at hfresh
        exact Option.isNone_iff_eq_none.mp (hfresh.resolve_left fun hne => hne hstatus)
      · have hkey : isLedgerKey k = false := by
          cases k <;> first | exact hfiles | exact absurd rfl hk
        exact h.same (fun k' hk' => World.markSyncd_hash_of_ne _ _ _ (isLedgerKey_ne hk' hkey))
          rfl rfl
  | putHashIfAbsent k v => exact h.once hfiles (fun _ _ => rfl) rfl rfl
  | putHashesAtomically entries =>
      rcases hfiles with hnone | ⟨event, applied, versions, faults, hmem, hversions, hfaults, rfl⟩
      · refine h.same (fun k hk => ?_) rfl (putEntries_group _ _)
        exact putEntries_hash_of_notMem fun entry he =>
          (isLedgerKey_ne hk (hnone entry he)).symm
      · exact h.process hmem hversions hfaults
  | replaceHashAndAppendEvent k v event =>
      exact h.same (fun k' hk' => Function.update_of_ne (isLedgerKey_ne hk' hfiles) _ _) rfl rfl
  | replaceStateOnce marker v id state event => exact h.once hfiles (fun _ _ => rfl) rfl rfl
  | replaceAlarmOnce marker v id alarm event =>
      refine h.once hfiles (fun k hk => Function.update_of_ne ?_ _ _) rfl rfl
      rintro rfl
      cases hk
  | appendResultOnce marker v event => exact h.once hfiles (fun _ _ => rfl) rfl rfl
  | appendCommandOnce marker v event => exact h.command hfiles
  | incrementOnce marker v update => exact h.once hfiles (fun _ _ => rfl) rfl rfl
  | _ => exact h.same (fun _ _ => rfl) rfl rfl

end Exec

end MiniOcs.Syncd
