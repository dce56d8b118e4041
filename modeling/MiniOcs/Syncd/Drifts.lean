import MiniOcs.Syncd.Reconciliations

/-!
# Drifts are attended to

Every program of syncd files properly, and a poll that saw a drift leaves a control record for
the snapshot it wanted. The ledger says what such a record stands for.
-/
namespace MiniOcs.Syncd
open Std Concurrent

theorem Around.refl (s : World) : Around s s := ⟨rfl, [], by simp, by simp⟩

theorem Around.trans {a b c : World} (h₁ : Around a b) (h₂ : Around b c) : Around a c := by
  obtain ⟨extra, hextra, hforeign⟩ := h₁.commands
  obtain ⟨extra', hextra', hforeign'⟩ := h₂.commands
  refine ⟨h₂.syncd.trans h₁.syncd, extra ++ extra', ?_, fun event hmem => ?_⟩
  · rw [hextra', hextra, List.append_assoc]
  · rcases List.mem_append.mp hmem with hmem | hmem
    · exact hforeign event hmem
    · exact hforeign' event hmem

def reconcileContract : Contract Op World where
  inv _ := True
  rely := Around
  guard o w := match o with
    | .syncd o => Files w o
    | .orch _ => False
  allow o ch w := freshly o ch w = true
  refl := Around.refl
  trans := Around.trans

/-! ## Rules -/

/-- The assertion is about the ledger and a stream that grows. -/
def OnLedger (K : World → Prop) : Prop := ∀ s t, Kept s t → K s → K t

theorem OnLedger.stable {K : World → Prop} (h : OnLedger K) : Stable reconcileContract K :=
  fun s t hs hst => h s t hst.kept hs

theorem OnLedger.and {K M : World → Prop} (hK : OnLedger K) (hM : OnLedger M) :
    OnLedger fun s => K s ∧ M s :=
  fun s t hst hs => ⟨hK s t hst hs.1, hM s t hst hs.2⟩

theorem onLedger_hash (key : SyncdKey) (hkey : isLedgerKey key = true)
    (v : Option (SyncdHash key)) : OnLedger fun s => s.syncd.hash key = v := by
  intro s t hst hs
  rw [hst.hash key hkey]
  exact hs

theorem onLedger_queued (n : Nat) (event : CommandEvent) :
    OnLedger fun s => s.commands[n]? = some event :=
  fun _ _ hst hs => Gnmi.getElem?_of_prefix hst.commands hs

theorem onLedger_true : OnLedger fun _ => True := fun _ _ _ _ => trivial

abbrev Attends {α : Type} (K : World → Prop) (p : Service α) (Q : α → World → Prop) : Prop :=
  Triple exec reconcileContract K p Q fun _ _ => True

section Rules

variable {α β : Type} {K : World → Prop} {Q : α → World → Prop}

theorem Attends.send {o : SyncdOp} {k : o.Reply → Service α} (M : o.Reply → World → Prop)
    (hK : OnLedger K) (hguard : ∀ s, K s → Files s o)
    (hstep : ∀ s ch, K s → M (o.exec ch s).1 (o.exec ch s).2)
    (hk : ∀ r, Attends (M r) (k r) Q) : Attends K (Syncd.send o >>= k) Q :=
  Triple.call (o := Op.syncd o) M hK.stable (fun s _ => hguard s) (fun s ch _ hs _ => hstep s ch hs) hk

theorem Attends.last {o : SyncdOp} {Q : o.Reply → World → Prop} (hK : OnLedger K)
    (hQ : ∀ r, OnLedger (Q r)) (hguard : ∀ s, K s → Files s o)
    (hstep : ∀ s ch, K s → Q (o.exec ch s).1 (o.exec ch s).2) : Attends K (Syncd.send o) Q :=
  Triple.call (o := Op.syncd o) Q hK.stable (fun s _ => hguard s) (fun s ch _ hs _ => hstep s ch hs)
    fun r => Triple.pure (hQ r).stable fun _ h => h

theorem Attends.raise {e : Raised} (hK : OnLedger K) : Attends K (Syncd.raise e : Service α) Q :=
  Triple.call (o := Op.syncd (.raise e)) (fun _ => K) hK.stable (fun _ _ _ => trivial)
    (fun _ _ _ hs _ => hs) fun _ => Triple.throw (fun _ _ _ _ => trivial) fun _ _ => trivial

theorem Attends.pure {a : α} (hQ : OnLedger (Q a)) (h : ∀ s, K s → Q a s) :
    Attends K (.pure a) Q :=
  Triple.pure hQ.stable h

theorem Attends.getHash {key : SyncdKey} {k : Option (SyncdHash key) → Service α}
    (hK : OnLedger K)
    (hk : ∀ v, Attends (fun s => K s ∧ s.syncd.hash key = v) (k v) Q) :
    Attends K (Syncd.send (.getHash key) >>= k) Q :=
  Attends.send (o := .getHash key) (fun v s => K s ∧ s.syncd.hash key = v) hK
    (fun _ _ => trivial) (fun _ _ hs => ⟨hs, rfl⟩) hk

theorem Writes.files {keys : SyncdKey → Bool} {fields : CounterField → Bool} {o : SyncdOp}
    (h : Writes keys fields (.syncd o)) (hkeys : ∀ k, isLedgerKey k = true → keys k = false)
    (w : World) : Files w o := by
  have haside : ∀ k, keys k = true → isLedgerKey k = false := by
    intro k hk
    by_contra hledger
    rw [hkeys k (by simpa using hledger)] at hk
    cases hk
  cases o with
  | xack n => exact h.elim
  | putHash k v =>
      have hk := haside k h
      cases k <;> first | exact hk | cases hk
  | putHashIfAbsent k v => exact haside k h
  | putHashesAtomically entries => exact .inl fun entry he => haside _ (h entry he)
  | replaceHashAndAppendEvent k v event => exact haside k h
  | replaceStateOnce marker v id state event => exact haside _ h
  | replaceAlarmOnce marker v id alarm event => exact haside _ h.1
  | appendResultOnce marker v event => exact haside _ h
  | appendCommandOnce marker v event =>
      have hmarker := haside _ h.1
      have hcommand := h.2
      refine .inl ⟨hmarker, ?_⟩
      cases marker with
      | generationRecovery generation =>
          rw [← Option.some.inj hcommand]
          rfl
      | reconciliationCommandPublication command => cases hmarker
      | _ => cases hcommand
  | incrementOnce marker v update => exact haside _ h.1
  | _ => trivial

theorem onceSyncd_commands {w : World} {marker : SyncdKey} {v : SyncdHash marker}
    {write : World → World} (hwrite : w.commands <+: (write w).commands) :
    w.commands <+: (w.onceSyncd marker v write).2.commands := by
  unfold World.onceSyncd
  split_ifs
  · exact List.prefix_rfl
  · exact hwrite

/-- The command stream only grows. -/
theorem commands_exec (o : SyncdOp) (ch : Nat) (w : World) :
    w.commands <+: (o.exec ch w).2.commands := by
  cases o with
  | putHashIfAbsent k v => exact onceSyncd_commands List.prefix_rfl
  | replaceStateOnce marker v id state event => exact onceSyncd_commands List.prefix_rfl
  | replaceAlarmOnce marker v id alarm event => exact onceSyncd_commands List.prefix_rfl
  | appendResultOnce marker v event => exact onceSyncd_commands List.prefix_rfl
  | appendCommandOnce marker v event => exact onceSyncd_commands (List.prefix_append _ _)
  | incrementOnce marker v update => exact onceSyncd_commands List.prefix_rfl
  | _ => exact List.prefix_rfl

theorem Writes.kept {keys : SyncdKey → Bool} {fields : CounterField → Bool} {o : SyncdOp}
    (h : Writes keys fields (.syncd o)) (hkeys : ∀ k, isLedgerKey k = true → keys k = false)
    (ch : Nat) (w : World) : Kept w (o.exec ch w).2 :=
  ⟨fun k hk => h.hash (hkeys k hk) ch w, commands_exec o ch w⟩

/-- A program that leaves the ledger alone. -/
theorem Attends.quiet {keys : SyncdKey → Bool} {fields : CounterField → Bool} {p : Service α}
    (hp : p.Only (Writes keys fields)) (hkeys : ∀ k, isLedgerKey k = true → keys k = false)
    (hK : OnLedger K) : Attends K p fun _ => K := by
  refine (Triple.of_only hp hK.stable (fun o s ho _ _ => ?_) fun o ch s ho _ hs _ => ?_).conseq
    (fun _ hs => hs) (fun _ _ hs => hs) fun _ _ _ => trivial
  · cases o with
    | orch o => exact ho.elim
    | syncd o => exact ho.files hkeys s
  · cases o with
    | orch o => exact ho.elim
    | syncd o => exact hK s _ (ho.kept hkeys ch s) hs

theorem Attends.idle {p : Service α} (hp : p.Only (Within noKey noField)) (hK : OnLedger K) :
    Attends K p fun _ => K :=
  Attends.quiet (only_writes hp) (fun _ _ => rfl) hK

end Rules

theorem command_off_ledger (k : SyncdKey) (h : isLedgerKey k = true) : isCommandKey k = false := by
  cases k <;> first | rfl | cases h

theorem recovery_off_ledger (k : SyncdKey) (h : isLedgerKey k = true) :
    isRecoveryKey k = false := by
  cases k <;> first | rfl | cases h

theorem drift_off_ledger (k : SyncdKey) (h : isLedgerKey k = true) : isDriftKey k = false := by
  cases k <;> first | rfl | cases h

theorem watch_off_ledger (k : SyncdKey) (h : isLedgerKey k = true) : isWatchKey k = false := by
  cases k <;> first | rfl | cases h

theorem device_off_ledger (k : SyncdKey) (h : isLedgerKey k = true) : isDeviceKey k = false := by
  cases k <;> first | rfl | cases h

theorem success_off_ledger (k : SyncdKey) (h : isLedgerKey k = true) :
    isSuccessKey k = false := by
  cases k <;> first | rfl | cases h

theorem start_off_ledger (k : SyncdKey) (h : isLedgerKey k = true) : isStartKey k = false := by
  cases k <;> first | rfl | cases h

section Quiet

variable {α : Type} {K : World → Prop} {p : Service α}

theorem Attends.command (hp : p.Only (Writes isCommandKey isApplyField)) (hK : OnLedger K) :
    Attends K p fun _ => K :=
  Attends.quiet hp command_off_ledger hK

theorem Attends.recovery (hp : p.Only (Writes isRecoveryKey isActiveConnections))
    (hK : OnLedger K) : Attends K p fun _ => K :=
  Attends.quiet hp recovery_off_ledger hK

theorem Attends.watch (hp : p.Only (Writes isWatchKey isAlarmField)) (hK : OnLedger K) :
    Attends K p fun _ => K :=
  Attends.quiet hp watch_off_ledger hK

theorem Attends.device (hp : p.Only (Within isDeviceKey noField)) (hK : OnLedger K) :
    Attends K p fun _ => K :=
  Attends.quiet (only_writes hp) device_off_ledger hK

end Quiet

/-! ## Commands -/

section Commands

variable {K : World → Prop} {n : Nat} {event : CommandEvent} {batch : DeviceCommandBatch}

theorem attends_nextCommand : Attends (fun _ => True) nextCommand fun message s =>
    ∀ n event, message = some (n, event) → s.commands[n]? = some event := by
  have hQ : ∀ message : Option (Nat × CommandEvent), OnLedger fun s =>
      ∀ n event, message = some (n, event) → s.commands[n]? = some event :=
    fun message s t hst hs n event hm => Gnmi.getElem?_of_prefix hst.commands (hs n event hm)
  have hread : Attends (fun _ => True) (Syncd.send .readGroup)
      fun (message : Option (Nat × CommandEvent)) s =>
        ∀ n event, message = some (n, event) → s.commands[n]? = some event := by
    refine Attends.last (o := .readGroup) onLedger_true hQ (fun _ _ => trivial)
      fun s ch _ n event hm => ?_
    simp only [SyncdOp.exec] at hm
    obtain ⟨m, -, hm⟩ := Option.bind_eq_some_iff.mp hm
    obtain ⟨e, he, heq⟩ := Option.map_eq_some_iff.mp hm
    cases heq
    exact he
  unfold nextCommand
  refine Attends.send (o := .xpending) (fun _ _ => True) onLedger_true (fun _ _ => trivial)
    (fun _ _ _ => trivial) fun candidate => ?_
  cases candidate with
  | none => exact hread
  | some m =>
      refine Attends.send (o := .xclaim m) (fun claimed s => ∀ event, claimed = some event →
        s.commands[m]? = some event) onLedger_true (fun _ _ => trivial) (fun s ch _ e he => ?_)
        fun claimed => ?_
      · simp only [SyncdOp.exec] at he
        split_ifs at he
        exact he
      · cases claimed with
        | none => exact hread.pre fun _ _ => trivial
        | some e =>
            refine Attends.pure (hQ _) fun s hs n event hm => ?_
            cases hm
            exact hs _ rfl

theorem attends_acknowledge :
    Attends (fun s => s.commands[n]? = some event ∧
      (s.syncd.hash (.processedCommand event.id)).isSome) (acknowledge n) fun _ _ => True := by
  refine Attends.send (o := .xack n) (fun _ _ => True) ?_ (fun s hs => ⟨event, hs.1, hs.2⟩)
    (fun _ _ _ => trivial) fun acknowledged => ?_
  · refine (onLedger_queued n event).and fun s t hst hs => ?_
    rw [hst.hash _ rfl]
    exact hs
  · split_ifs
    · exact Attends.pure onLedger_true fun _ _ => trivial
    · exact Attends.raise onLedger_true

theorem returns_versionEntries (generation : Nat) (entries : List SyncdEntry)
    (commands : List ConnectionCommand)
    (hentries : ∀ entry ∈ entries, isLedgerKey entry.1 = false) :
    (versionEntries generation entries commands).Returns fun entries =>
      ∀ entry ∈ entries, isLedgerKey entry.1 = false := by
  induction commands generalizing entries with
  | nil => exact hentries
  | cons command rest ih =>
      intro existing
      change Prog.Returns _ (ite _ _ _)
      split_ifs
      · exact ih entries hentries
      · refine ih _ fun entry hmem => ?_
        rcases List.mem_append.mp hmem with hmem | hmem
        · exact hentries entry hmem
        · rw [List.mem_singleton.mp hmem]
          rfl

theorem attends_appliedVersions (hK : OnLedger K) (generation : Nat)
    (commands : List ConnectionCommand) (applied : Bool) :
    Attends K (appliedVersions generation commands applied) fun versions s =>
      K s ∧ ∀ entry ∈ versions, isLedgerKey entry.1 = false := by
  refine Triple.returns (Attends.idle (within_appliedVersions _ _ _) hK) ?_
  unfold appliedVersions
  split_ifs
  · exact returns_versionEntries _ _ _ (by simp)
  · intro entry hmem
    cases hmem

/-- What the control record and the faults get with the outcome of a command. -/
theorem attends_markReconciliation (hK : OnLedger K) (event : CommandEvent) (applied : Bool) :
    Attends K (markReconciliation event applied) fun entries s => K s ∧
      ∃ faults, entries = controlEntry event.id applied (s.syncd.hash .reconciliation) ++ faults ∧
        ∀ entry ∈ faults, isLedgerKey entry.1 = false := by
  have hQ : ∀ entries : List SyncdEntry, OnLedger fun s => K s ∧
      ∃ faults, entries = controlEntry event.id applied (s.syncd.hash .reconciliation) ++ faults ∧
        ∀ entry ∈ faults, isLedgerKey entry.1 = false := by
    rintro entries s t hst ⟨hs, faults, heq, hfaults⟩
    exact ⟨hK s t hst hs, faults, by rw [hst.hash _ rfl]; exact heq, hfaults⟩
  unfold markReconciliation
  split_ifs with hreconcile happlied
  · refine Attends.pure (hQ _) fun s hs => ⟨hs, [], ?_, by simp⟩
    cases hcontrol : s.syncd.hash .reconciliation with
    | none => rfl
    | some control =>
        have hne : control.command ≠ event.id := by
          intro heq
          rw [← heq] at hreconcile
          cases hreconcile
        simp [controlEntry, hne]
  · refine Attends.getHash hK fun control => ?_
    have hKc := hK.and (onLedger_hash .reconciliation rfl control)
    refine Triple.bind (Attends.quiet (only_writes
      (within_countSuccess event)) success_off_ledger hKc) fun _ => ?_
    refine Triple.bind (Attends.idle within_portFaults hKc) fun faults => ?_
    refine Attends.pure (hQ _) fun s hs => ⟨hs.1, recoveredFaults event.id faults, ?_, ?_⟩
    · rw [hs.2]
    · intro entry hmem
      obtain ⟨fault, -, rfl⟩ := List.mem_map.mp hmem
      rfl
  · refine Attends.getHash hK fun control => ?_
    refine Attends.pure (hQ _) fun s hs => ⟨hs.1, [], ?_, by simp⟩
    rw [hs.2, List.append_nil]

theorem attends_markProcessed (applied : Bool) :
    Attends (fun s => s.commands[n]? = some event) (markProcessed event batch applied)
      fun _ s => s.commands[n]? = some event ∧
        (s.syncd.hash (.processedCommand event.id)).isSome := by
  have hK := onLedger_queued n event
  unfold markProcessed
  refine Triple.bind (Attends.idle (only_last trivial) hK) fun memory => ?_
  refine Triple.bind (attends_appliedVersions hK _ _ _) fun versions => ?_
  refine Triple.lift fun hversions => ?_
  refine Triple.bind (attends_markReconciliation hK _ _) fun entries => ?_
  refine Attends.last (o := .putHashesAtomically _) ?_ (fun _ => ?_) (fun s hs => ?_)
    fun s ch hs => ?_
  · rintro s t hst ⟨hs, faults, heq, hfaults⟩
    exact ⟨hK s t hst hs, faults, by rw [hst.hash _ rfl]; exact heq, hfaults⟩
  · refine hK.and fun s t hst hs => ?_
    rw [hst.hash _ rfl]
    exact hs
  · obtain ⟨hget, faults, rfl, hfaults⟩ := hs
    exact .inr ⟨event, applied, versions, faults, List.mem_of_getElem? hget, hversions, hfaults, rfl⟩
  · obtain ⟨hget, faults, rfl, hfaults⟩ := hs
    exact ⟨hget, Option.isSome_of_eq_some (processedEntries_hash s event applied
      (s.syncd.hash .reconciliation) hversions hfaults)⟩

theorem attends_finishCommand (stored : StoredResult) :
    Attends (fun s => s.commands[n]? = some event) (finishCommand n event batch stored)
      fun _ _ => True := by
  have hK := onLedger_queued n event
  unfold finishCommand
  refine Triple.bind (Attends.command (only_writes (within_publishState _ _ _ _)) hK)
    fun delta => ?_
  refine Triple.bind (Attends.command (only_last ⟨rfl, applyIncrements_fields _ _⟩) hK)
    fun _ => ?_
  refine Triple.bind (Attends.command (only_writes (within_publishResult _ _ _)) hK) fun _ => ?_
  exact Triple.bind (attends_markProcessed _) fun _ => attends_acknowledge

theorem attends_attemptCommand :
    Attends (fun s => s.commands[n]? = some event) (attemptCommand n event batch)
      fun _ _ => True := by
  have hK := onLedger_queued n event
  refine Triple.bind (Attends.command (only_last rfl) hK) fun _ => ?_
  refine Triple.bind (Attends.idle (within_applyCommand _ _) hK) fun result => ?_
  refine Triple.bind (Attends.idle (only_last trivial) hK) fun latencyMs => ?_
  refine Triple.bind (Attends.command (only_last rfl) hK) fun _ => ?_
  refine Triple.bind (Attends.idle (only_last trivial) hK) fun stored => ?_
  cases stored with
  | none => exact Attends.raise hK
  | some stored => exact attends_finishCommand stored

theorem attends_startCommand :
    Attends (fun s => s.commands[n]? = some event) (startCommand n event batch)
      fun _ _ => True := by
  have hK := onLedger_queued n event
  refine Triple.bind (Attends.idle (only_last trivial) hK) fun stored => ?_
  cases stored with
  | some stored => exact attends_finishCommand stored
  | none =>
      refine Triple.bind (Attends.idle (only_last trivial) hK) fun attempt => ?_
      cases attempt with
      | some attempt => exact attends_attemptCommand
      | none =>
          refine Triple.bind (Attends.idle (within_isStaleVersion _ _) hK) fun stale => ?_
          split_ifs
          · exact Triple.bind (attends_markProcessed _) fun _ => attends_acknowledge
          · exact attends_attemptCommand

theorem attends_handleCommand :
    Attends (fun s => s.commands[n]? = some event) (handleCommand n event) fun _ _ => True := by
  have hK := onLedger_queued n event
  refine Attends.getHash hK fun processed => ?_
  cases processed with
  | some applied =>
      exact attends_acknowledge.pre fun s hs => ⟨hs.1, Option.isSome_of_eq_some hs.2⟩
  | none =>
      refine Triple.pre (K := fun s => s.commands[n]? = some event) ?_ fun s hs => hs.1
      dsimp only
      split
      · refine Triple.bind (Attends.idle (within_recoverPreparedBatch _) hK) fun batch => ?_
        exact Triple.bind (Attends.command (only_last rfl) hK) fun _ => attends_startCommand
      · exact attends_startCommand

theorem attends_processOne : Attends (fun _ => True) processOne fun _ _ => True := by
  refine Triple.bind attends_nextCommand fun message => ?_
  cases message with
  | none => exact Attends.pure onLedger_true fun _ _ => trivial
  | some message =>
      obtain ⟨n, event⟩ := message
      exact attends_handleCommand.pre fun s hs => hs n event rfl

end Commands

/-! ## Reconciliation -/

/-- The control record that a poll leaves for the snapshot it wanted: published or failed, or one
that the poll found as it is and whose command succeeded. -/
def Handled (found : Option ReconciliationControl) (snapshot : DeviceCommandBatch) (w : World) :
    Prop :=
  ∃ control, w.syncd.hash .reconciliation = some control ∧ control.signature = snapshot ∧
    (control.status = .published ∨ control.status = .failed ∨
      (control.status = .applied ∧ found = some control))

theorem onLedger_handled (found : Option ReconciliationControl) (snapshot : DeviceCommandBatch) :
    OnLedger (Handled found snapshot) := by
  rintro s t hst ⟨control, hcontrol, hrest⟩
  exact ⟨control, by rw [hst.hash _ rfl]; exact hcontrol, hrest⟩

section Reconciliation

variable {found : Option ReconciliationControl}

theorem attends_publishReconciliation (info : DeviceInfo) (plan : ReconciliationPlan)
    {control : ReconciliationControl} (hstatus : control.status = .publishing)
    (hsignature : control.signature = plan.fullSnapshot) :
    Attends (fun s => s.syncd.hash .reconciliation = some control)
      (publishReconciliation info plan control) fun _ => Handled found plan.fullSnapshot := by
  have hK := onLedger_hash .reconciliation rfl (some control)
  unfold publishReconciliation
  refine Triple.bind (Attends.watch (writes_associatePortFaults _) hK) fun _ => ?_
  refine Triple.bind (Attends.quiet (only_writes (within_publishReconciliationState _ _))
    drift_off_ledger hK) fun _ => ?_
  refine Triple.bind (Attends.watch (writes_publishDriftAlarm _ _ _) hK) fun _ => ?_
  dsimp only
  refine Triple.bind (Attends.recovery (only_last rfl) hK) fun _ => ?_
  have hmarked : OnLedger fun s : World => s.syncd.hash .reconciliation = some control ∧
      (s.syncd.hash (.reconciliationCommandPublication control.command)).isSome := by
    refine hK.and fun s t hst hs => ?_
    rw [hst.hash _ rfl]
    exact hs
  refine Attends.send (o := .appendCommandOnce _ _ _) (fun _ s =>
    s.syncd.hash .reconciliation = some control ∧
      (s.syncd.hash (.reconciliationCommandPublication control.command)).isSome) hK
    (fun s hs => ?_) (fun s ch hs => ?_) fun _ => ?_
  · refine .inr ⟨control, hs, rfl, rfl, rfl, ?_⟩
    rw [hsignature]
    rfl
  · simp only [SyncdOp.exec, World.onceSyncd]
    split_ifs with hset
    · exact ⟨hs, hset⟩
    · refine ⟨(World.markSyncd_hash_of_ne _ _ _ (by simp)).trans hs, ?_⟩
      rw [World.markSyncd_hash_self]
      rfl
  · refine Attends.last (o := .putHash .reconciliation _) hmarked
      (fun _ => onLedger_handled _ _) (fun s hs => ?_) fun s ch hs => ?_
    · exact .inr ⟨control, hs.1, rfl, .inr ⟨rfl, hstatus, hs.2⟩⟩
    · exact ⟨_, World.markSyncd_hash_self _ _ _, hsignature, .inl rfl⟩

theorem attends_openReconciliation (info : DeviceInfo) (plan : ReconciliationPlan)
    (portRecovery stateRecovery : Bool) :
    Attends (fun s => s.syncd.hash .reconciliation = found)
      (openReconciliation info plan portRecovery stateRecovery found)
      fun _ => Handled found plan.fullSnapshot := by
  have hK := onLedger_hash .reconciliation rfl found
  unfold openReconciliation
  split
  · rename_i control hopen
    obtain ⟨hfound, hcond⟩ := Option.filter_eq_some_iff.mp hopen
    simp only [Bool.and_eq_true, decide_eq_true_eq] at hcond
    obtain ⟨⟨-, hsignature⟩, hconverged⟩ := hcond
    split_ifs with hpublishing
    · refine Attends.pure (onLedger_handled _ _) fun s hs => ?_
      refine ⟨control, hs.trans hfound, hsignature, ?_⟩
      cases hstatus : control.status with
      | publishing => exact absurd hstatus hpublishing
      | published => exact .inl rfl
      | applied => exact .inr (.inr ⟨rfl, hfound⟩)
      | failed => exact .inr (.inl rfl)
      | converged => exact absurd hstatus hconverged
    · refine (attends_publishReconciliation info plan (not_not.mp hpublishing) hsignature).pre
        fun s hs => hs.trans hfound
  · refine Triple.bind (Attends.idle (only_last trivial) hK) fun now => ?_
    dsimp only
    refine Attends.send (o := .putHash .reconciliation _)
      (fun _ s => s.syncd.hash .reconciliation = some _) hK (fun s hs => .inl rfl)
      (fun s ch hs => World.markSyncd_hash_self _ _ _) fun _ => ?_
    exact attends_publishReconciliation info plan rfl rfl

theorem attends_convergeControl :
    Attends (fun s => s.syncd.hash .reconciliation = found) (convergeControl found)
      fun _ _ => True := by
  cases found with
  | none => exact Attends.pure onLedger_true fun _ _ => trivial
  | some control =>
      have hK := onLedger_hash .reconciliation rfl (some control)
      unfold convergeControl
      dsimp only
      split_ifs
      · exact Attends.pure onLedger_true fun _ _ => trivial
      · refine Triple.bind (Attends.watch (writes_clearDriftAlarm _ _) hK) fun _ => ?_
        refine Attends.last (o := .putHash .reconciliation _) hK (fun _ => onLedger_true)
          (fun s hs => .inr ⟨control, hs, rfl, .inl rfl⟩) fun _ _ _ => trivial

/-- The control record is read once more. -/
theorem attends_readControl {α : Type} {k : Option ReconciliationControl → Service α}
    {Q : α → World → Prop}
    (hk : Attends (fun s => s.syncd.hash .reconciliation = found) (k found) Q) :
    Attends (fun s => s.syncd.hash .reconciliation = found)
      (Syncd.send (.getHash .reconciliation) >>= k) Q := by
  have hK := onLedger_hash .reconciliation rfl found
  refine Attends.getHash hK fun control s hs => ?_
  obtain rfl : control = found := hs.2.symm.trans hs.1
  exact hk s hs.1

/-- A drift is handled; a converged plan may still open a reconciliation. -/
theorem attends_reconcilePlan (info : DeviceInfo) (desired : List ConnectionCommand)
    (effective : List AppliedConnection) (plan : ReconciliationPlan) :
    Attends (fun s => s.syncd.hash .reconciliation = found)
      (reconcilePlan info desired effective plan)
      fun _ s => plan.converged = false → Handled found plan.fullSnapshot s := by
  have hK := onLedger_hash .reconciliation rfl found
  unfold reconcilePlan
  cases hconverged : plan.converged with
  | false =>
      have hconfirm : confirmPlan desired effective plan = .pure (plan, false) := by
        simp [confirmPlan, hconverged]
      rw [hconfirm]
      change Attends _ (portFaults >>= _) _
      refine Triple.bind (Attends.idle within_portFaults hK) fun faults => ?_
      have hrecover : recoverPlan desired effective faults plan = .pure plan := by
        simp [recoverPlan, hconverged]
      rw [hrecover]
      change Attends _ (Syncd.send (.getHash .reconciliation) >>= _) _
      refine attends_readControl ?_
      rw [if_neg (by simp [hconverged])]
      exact (attends_openReconciliation info plan _ _).conseq (fun _ hs => hs)
        (fun _ _ hs _ => hs) fun _ _ _ => trivial
  | true =>
      refine Triple.conseq (Q := fun _ _ => True) (E := fun _ _ => True) ?_ (fun _ hs => hs)
        (fun _ _ _ hfalse => by cases hfalse) fun _ _ _ => trivial
      refine Triple.bind (Attends.idle (within_confirmPlan _ _ _) hK) fun confirmed => ?_
      refine Triple.bind (Attends.idle within_portFaults hK) fun faults => ?_
      refine Triple.bind (Attends.watch (writes_recoverPlan _ _ _ _) hK) fun recovered => ?_
      refine attends_readControl ?_
      split_ifs
      · exact attends_convergeControl
      · exact (attends_openReconciliation info recovered _ _).conseq (fun _ hs => hs)
          (fun _ _ _ => trivial) fun _ _ _ => trivial

end Reconciliation

/-! ## The poll -/

/-- Every drift that the poll saw is handled. -/
def Observed (found : Option ReconciliationControl) (seen : Option Sighting) (w : World) : Prop :=
  ∀ sighting plan, seen = some sighting →
    buildReconciliationPlan sighting.desired sighting.effective = .ok plan →
    plan.converged = false → Handled found plan.fullSnapshot w

section Poll

variable {found : Option ReconciliationControl}

theorem onLedger_observed (seen : Option Sighting) : OnLedger (Observed found seen) :=
  fun s t hst hs sighting plan hseen hplan hdrift =>
    onLedger_handled _ _ s t hst (hs sighting plan hseen hplan hdrift)

theorem observed_none (w : World) : Observed found none w := by
  rintro sighting plan ⟨⟩

theorem attends_unseen :
    Attends (fun s => s.syncd.hash .reconciliation = found) (.pure none)
      (Observed found) :=
  Attends.pure (onLedger_observed none) fun s _ => observed_none s

theorem attends_reconcileObserved (info : DeviceInfo) (effective : List AppliedConnection) :
    Attends (fun s => s.syncd.hash .reconciliation = found) (reconcileObserved info effective)
      (Observed found) := by
  have hK := onLedger_hash .reconciliation rfl found
  refine Triple.bind (Attends.idle (only_send trivial fun keys => within_loadDesired _ _) hK)
    fun desired => ?_
  refine Triple.bind (Attends.idle (only_send trivial fun keys => within_settled _ _) hK)
    fun isSettled => ?_
  split_ifs
  · exact attends_unseen
  · cases hplan : buildReconciliationPlan desired effective with
    | error message => exact Attends.raise hK
    | ok plan =>
        refine Triple.bind (attends_reconcilePlan info desired effective plan) fun _ => ?_
        refine Attends.pure (onLedger_observed _) fun s hs sighting plan' hseen hplan' hdrift => ?_
        cases hseen
        rw [hplan] at hplan'
        cases hplan'
        exact hs hdrift

theorem attends_refreshObserved (info : DeviceInfo) (actual effective : List AppliedConnection)
    (state : Option DeviceStateHash) :
    Attends (fun s => s.syncd.hash .reconciliation = found)
      (refreshObserved info actual effective state) (Observed found) := by
  have hK := onLedger_hash .reconciliation rfl found
  unfold refreshObserved
  split_ifs
  · refine Triple.bind (Attends.idle (only_last trivial) hK) fun recovery => ?_
    refine Triple.bind (Attends.idle (within_recoveryPending _) hK) fun pending => ?_
    split_ifs
    · exact attends_unseen
    · exact attends_reconcileObserved info effective
  · refine Triple.bind (Attends.recovery (only_writes (within_scheduleGenerationRecovery _ _)) hK)
      fun _ => attends_unseen

theorem attends_pollObserved :
    Attends (fun s => s.syncd.hash .reconciliation = found) pollObserved
      fun r => Observed found r.2 := by
  have hK := onLedger_hash .reconciliation rfl found
  refine Triple.tryCatch (M := fun _ _ => True) ?_ fun error => ?_
  · refine Triple.bind (Attends.idle (only_last trivial) hK) fun reply => ?_
    refine Triple.bind (Attends.idle (within_readOrRaise reply) hK) fun info => ?_
    refine Triple.bind (Attends.idle (only_last trivial) hK) fun memory => ?_
    split_ifs
    · exact Attends.raise hK
    · refine Triple.bind (Attends.idle (only_last trivial) hK) fun reply => ?_
      refine Triple.bind (Attends.idle (within_readOrRaise reply) hK) fun actual => ?_
      refine Triple.bind (Attends.watch (writes_pollPortStates _ _) hK) fun effective => ?_
      refine Triple.bind (Attends.idle (only_last trivial) hK) fun state => ?_
      refine Triple.bind (Attends.idle (only_last trivial) hK) fun _ => ?_
      refine Triple.bind (attends_refreshObserved _ _ _ _) fun seen => ?_
      refine Triple.bind (Attends.device (within_refreshDeviceState _ _ _)
        (onLedger_observed seen)) fun _ => ?_
      exact Attends.pure (onLedger_observed seen) fun _ hs => hs
  · refine Triple.bind (Attends.device (within_pollFailed error) onLedger_true) fun ok => ?_
    exact Attends.pure (onLedger_observed none) fun s _ => observed_none s

theorem attends_initializeService :
    Attends (fun _ => True) initializeService fun _ _ => True := by
  refine Triple.bind (Attends.idle (only_last trivial) onLedger_true) fun reply => ?_
  refine Triple.bind (Attends.idle (within_readOrRaise reply) onLedger_true) fun info => ?_
  refine Triple.bind (Attends.idle (only_last trivial) onLedger_true) fun reply => ?_
  refine Triple.bind (Attends.idle (within_readOrRaise reply) onLedger_true) fun actual => ?_
  refine Triple.bind (Attends.watch (writes_pollPortStates _ _) onLedger_true) fun _ => ?_
  refine Triple.bind (Attends.idle (only_last trivial) onLedger_true) fun state => ?_
  refine Triple.bind (Attends.quiet (only_writes (within_initializeDeviceState _ _ _))
    start_off_ledger onLedger_true) fun _ => ?_
  refine Triple.bind (Attends.idle (only_last trivial) onLedger_true) fun _ => ?_
  exact Attends.pure onLedger_true fun _ _ => trivial

theorem attends_unobserved {p : Service Bool} (h : Attends (fun _ => True) p fun _ _ => True) :
    Attends (fun s => s.syncd.hash .reconciliation = found) (unobserved p)
      fun r => Observed found r.2 := by
  refine Triple.bind (h.pre fun _ _ => trivial) fun ok => ?_
  exact Attends.pure (onLedger_observed none) fun s _ => observed_none s

end Poll

/-! ## Every run -/

theorem reconcileSystem_verified :
    Verified (reconcileSystem fun o ch w => freshly o ch w = true) Ledger
      (fun _ => reconcileContract) (fun _ s r t => ∀ a, r = .ok a →
        Observed (s.syncd.hash .reconciliation) a.2 t) where
  inv _ _ _ := trivial
  allow _ _ _ _ h := h
  init := by
    rintro _ ⟨inventory, hwsim, rfl⟩
    exact ledger_init inventory hwsim
  starts := by
    intro i s p _ hp
    have hattends : Attends (fun t => t.syncd.hash .reconciliation =
        s.syncd.hash .reconciliation) p fun r => Observed (s.syncd.hash .reconciliation) r.2 := by
      rcases hp with ⟨-, rfl⟩ | ⟨-, rfl | rfl⟩
      · exact attends_unobserved attends_initializeService
      · exact attends_unobserved attends_processOne
      · exact attends_pollObserved
    refine (hattends s rfl).weaken fun r t _ hr a ha => ?_
    rw [ha] at hr
    exact hr
  call := by
    intro i o ch s hs hguard hallow
    cases o with
    | orch o => exact hguard.elim
    | syncd o => exact ⟨hs.exec hguard hallow, fun j hj => absurd rfl hj⟩
  crash i s hs _ := ⟨hs.same (fun _ _ => rfl) rfl rfl, fun j hj => absurd rfl hj⟩
  env s t hs ht := ⟨hs.around ht, fun _ => ht⟩

/-- A poll that ends having seen a drift leaves a reconciliation of the whole snapshot waiting,
or the last one failed, unless it found the snapshot reconciled with success and not yet seen
converged. -/
theorem drift_attended {c : Config Op Op.Reply Raised (Bool × Option Sighting) World Unit}
    (h : Reachable (reconcileSystem fun o ch w => freshly o ch w = true) c) {since : World}
    {seen : Sighting} {ok : Bool} (hdone : c.procs () = some ⟨since, .pure (ok, some seen)⟩)
    {plan : ReconciliationPlan}
    (hplan : buildReconciliationPlan seen.desired seen.effective = .ok plan)
    (hdrift : plan.converged = false) (hcond : ¬Repaired since plan.fullSnapshot) :
    Attended c.world plan.fullSnapshot ∨ LastFailed c.world plan.fullSnapshot := by
  have hledger := reconcileSystem_verified.invariant h
  have hseen := reconcileSystem_verified.outcome h hdone rfl
  obtain ⟨control, hcontrol, hsignature, hstatus⟩ := hseen _ rfl seen plan rfl hplan hdrift
  rcases hstatus with hpublished | hfailed | ⟨happlied, hfound⟩
  · rw [← hsignature]
    exact .inl (hledger.attended hcontrol hpublished)
  · exact .inr ⟨control, hcontrol, hsignature, hledger.failed control hcontrol hfailed⟩
  · exact absurd ⟨control, hfound, hsignature, happlied⟩ hcond

/-! ## A drift after a repair -/

/-- The world after calls of the orchestrator, which leave the rest alone. -/
def orchestrated (p : Service Bool) (w : World) : World :=
  { w with orch := (Orch.afterCalls 60 p w).orch, commands := (Orch.afterCalls 60 p w).commands }

/-- The device loses its connections behind the back of syncd. -/
def disconnected (w : World) : World :=
  { w with hwsim := { w.hwsim with
      connections := ∅
      inputToOutput := List.replicate 4 none
      outputToInput := List.replicate 4 none } }

def clock (time : Nat) : Op → Nat
  | .syncd .now => time
  | _ => 0

/-- Some calls of a program, all at one time, over a link that does not fail. -/
def ranAt {α : Type} (time : Nat) (p : Service α) (w : World) : Service α × World :=
  p.run exec (p.schedule exec (clock time) 150 w) w

/-- A connection is committed, and its command published. -/
def driftConfigured : World :=
  orchestrated Orch.processConfigOne
    (Orch.afterSet 0 [Gnmi.connect Gnmi.idA 1 1] Orch.smallWorld)

def driftStarted : World := (ranAt 1 (unobserved initializeService) driftConfigured).2

def driftApplied : World := (ranAt 2 (unobserved processOne) driftStarted).2

/-- The connection is active on both sides, and is then lost. -/
def driftLost : World := disconnected (orchestrated (Orch.processResultOne {}) driftApplied)

/-- A poll sees the drift and publishes a reconciliation. -/
def driftSeen : Service (Bool × Option Sighting) × World := ranAt 3 pollObserved driftLost

/-- The reconciliation succeeds. -/
def driftRepaired : World := (ranAt 4 (unobserved processOne) driftSeen.2).2

/-- The connection is lost again before the next poll. -/
def driftAgain : World := disconnected driftRepaired

def driftIgnored : Service (Bool × Option Sighting) × World := ranAt 5 pollObserved driftAgain

def driftSighting : Sighting where
  desired := [{ id := "a", inputPort := 1, outputPort := 1, desiredVersion := 1 }]
  effective := []

def driftPlan : ReconciliationPlan where
  fullSnapshot := { commands := driftSighting.desired }
  drifts := driftSighting.desired.map missing

/-- The runs with a clock that does not repeat a time. -/
abbrev freshSystem : System Op Op.Reply Raised (Bool × Option Sighting) World Unit :=
  reconcileSystem fun o ch w => freshly o ch w = true

def idling (w : World) : Config Op Op.Reply Raised (Bool × Option Sighting) World Unit :=
  ⟨w, fun _ => none⟩

/-- A program that has ended but is still there. -/
def ended (since : World) (r : Bool × Option Sighting) (w : World) :
    Config Op Op.Reply Raised (Bool × Option Sighting) World Unit :=
  ⟨w, fun _ => some ⟨since, .pure r⟩⟩

section Idling

variable {w : World}

theorem idling_env {t : World} (h : Reachable freshSystem (idling w)) (ht : Around w t) :
    Reachable freshSystem (idling t) :=
  h.step (.env t ht)

theorem idling_ended (h : Reachable freshSystem (idling w))
    {p : Service (Bool × Option Sighting)} (hp : freshSystem.starts () w p) (time : Nat)
    (hallow : p.along exec (fun o ch w => freshly o ch w = true)
      (p.schedule exec (clock time) 150 w) w) {r : Bool × Option Sighting}
    (hend : (ranAt time p w).1.outcome? = some (.ok r)) :
    Reachable freshSystem (ended w r (ranAt time p w).2) := by
  have hrun := h.startRun (i := ()) rfl hp _ hallow
  have hpure : (p.run freshSystem.exec (p.schedule exec (clock time) 150 w)
      (idling w).world).1 = .pure r := Prog.eq_pure_of_outcome hend
  have hprocs : ∀ x, Function.update (idling w).procs () (some x) = fun _ => some x := by
    intro x
    funext u
    simp
  rw [hpure, hprocs] at hrun
  exact hrun

theorem idling_ran (h : Reachable freshSystem (idling w))
    {p : Service (Bool × Option Sighting)} (hp : freshSystem.starts () w p) (time : Nat)
    (hallow : p.along exec (fun o ch w => freshly o ch w = true)
      (p.schedule exec (clock time) 150 w) w) {r : Bool × Option Sighting}
    (hend : (ranAt time p w).1.outcome? = some (.ok r)) :
    Reachable freshSystem (idling (ranAt time p w).2) :=
  h.complete rfl hp _ hallow hend

theorem around_orchestrated {p : Service Bool}
    (hgrow : (Orch.afterCalls 60 p w).commands =
      w.commands ++ (Orch.afterCalls 60 p w).commands.drop w.commands.length)
    (hforeign : ∀ event ∈ (Orch.afterCalls 60 p w).commands.drop w.commands.length,
      event.id.isReconciliation = false) : Around w (orchestrated p w) :=
  ⟨rfl, _, hgrow, hforeign⟩

theorem around_disconnected : Around w (disconnected w) := ⟨rfl, [], by simp [disconnected], by simp⟩

end Idling

theorem driftLost_reachable : Reachable freshSystem (idling driftLost) := by
  have hinit : Reachable freshSystem (idling Orch.smallWorld) := .init ⟨_, _, rfl⟩
  have hset : Reachable freshSystem
      (idling (Orch.afterSet 0 [Gnmi.connect Gnmi.idA 1 1] Orch.smallWorld)) := by
    refine idling_env hinit ?_
    unfold Orch.afterSet
    split
    · exact ⟨rfl, [], by simp, by simp⟩
    · exact Around.refl _
  have hconfigured : Reachable freshSystem (idling driftConfigured) :=
    idling_env hset (around_orchestrated (by decide +kernel) (by decide +kernel))
  have hstarted : Reachable freshSystem (idling driftStarted) :=
    idling_ran hconfigured (.inl ⟨by decide +kernel, rfl⟩) 1 (by decide +kernel)
      (r := (true, none)) (by decide +kernel)
  have happlied : Reachable freshSystem (idling driftApplied) :=
    idling_ran hstarted (.inr ⟨by decide +kernel, .inl rfl⟩) 2 (by decide +kernel)
      (r := (true, none)) (by decide +kernel)
  have hactive := idling_env happlied (around_orchestrated (p := Orch.processResultOne {})
    (by decide +kernel) (by decide +kernel))
  exact idling_env hactive around_disconnected

/-- The second drift of the snapshot is left alone: its reconciliation has succeeded, and no poll
saw the two sides equal since. -/
theorem drift_ignored_after_repair :
    Reachable freshSystem (ended driftAgain (true, some driftSighting) driftIgnored.2) ∧
      buildReconciliationPlan driftSighting.desired driftSighting.effective = .ok driftPlan ∧
      driftPlan.converged = false ∧
      ¬(Attended driftIgnored.2 driftPlan.fullSnapshot ∨
        LastFailed driftIgnored.2 driftPlan.fullSnapshot) := by
  have hseen : Reachable freshSystem (idling driftSeen.2) :=
    idling_ran driftLost_reachable (.inr ⟨by decide +kernel, .inr rfl⟩) 3 (by decide +kernel)
      (r := (true, some driftSighting)) (by decide +kernel)
  have hrepaired : Reachable freshSystem (idling driftRepaired) :=
    idling_ran hseen (.inr ⟨by decide +kernel, .inl rfl⟩) 4 (by decide +kernel)
      (r := (true, none)) (by decide +kernel)
  have hagain := idling_env hrepaired around_disconnected
  have hdone := idling_ended hagain (.inr ⟨by decide +kernel, .inr rfl⟩) 5 (by decide +kernel)
    (r := (true, some driftSighting)) (by decide +kernel)
  refine ⟨hdone, by decide +kernel, by decide +kernel, ?_⟩
  rintro (⟨n, event, hget, -, -, hacked⟩ | ⟨control, hcontrol, -, hfailed⟩)
  · have hall : ∀ n < driftIgnored.2.commands.length, driftIgnored.2.syncd.group.Acked n := by
      decide +kernel
    exact hacked (hall n (List.getElem?_eq_some_iff.mp hget).1)
  · have happlied : (driftIgnored.2.syncd.hash .reconciliation).map (fun control =>
        driftIgnored.2.syncd.hash (.processedCommand control.command)) = some (some true) := by
      decide +kernel
    rw [hcontrol, Option.map_some, hfailed] at happlied
    cases happlied

/-- The first drift is attended to. -/
theorem drift_attended_driftSeen :
    Reachable freshSystem (ended driftLost (true, some driftSighting) driftSeen.2) ∧
      driftPlan.converged = false ∧ ¬Repaired driftLost driftPlan.fullSnapshot ∧
      (Attended driftSeen.2 driftPlan.fullSnapshot ∨
        LastFailed driftSeen.2 driftPlan.fullSnapshot) := by
  have hdone : Reachable freshSystem (ended driftLost (true, some driftSighting) driftSeen.2) :=
    idling_ended driftLost_reachable (.inr ⟨by decide +kernel, .inr rfl⟩) 3 (by decide +kernel)
      (r := (true, some driftSighting)) (by decide +kernel)
  have hplan : buildReconciliationPlan driftSighting.desired driftSighting.effective =
      .ok driftPlan := by decide +kernel
  have hcond : ¬Repaired driftLost driftPlan.fullSnapshot := by
    rintro ⟨control, hcontrol, -⟩
    have hnone : (driftLost.syncd.hash .reconciliation).isNone = true := by decide +kernel
    rw [hcontrol] at hnone
    cases hnone
  exact ⟨hdone, by decide +kernel, hcond,
    drift_attended hdone rfl hplan (by decide +kernel) hcond⟩

end MiniOcs.Syncd
