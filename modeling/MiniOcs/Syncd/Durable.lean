import MiniOcs.Concurrent.Triple
import MiniOcs.Syncd.Footprint
import MiniOcs.Syncd.Reads
import MiniOcs.Syncd.Reconciliations
import MiniOcs.Syncd.TrueSuccess

/-!
# What the durable records of a command stand for

The processed marker, the stored result and the version hashes outlive a crash at any point. One
syncd runs, beside whatever leaves its databases alone: every acknowledged command is marked, a
marker agrees with the stored result, a command is passed over only when each member was overtaken
by a success, and a version hash is the version of a member of a command that succeeded.
-/
namespace MiniOcs.Syncd
open Concurrent

/-! ## The poll leaves the records alone -/

/-- The records that the end of a command rests on. -/
def isRecordKey : SyncdKey → Bool
  | .applyResult _ | .processedCommand _ | .connectionVersion _ => true
  | _ => false

def isOtherKey (k : SyncdKey) : Bool := !isRecordKey k

def anyField (_ : CounterField) : Bool := true

/-- The operation writes no record. -/
abbrev Aside : Op → Prop := Writes isOtherKey anyField

section Aside

variable {α : Type} {keys : SyncdKey → Bool} {fields : CounterField → Bool} {p : Service α}

theorem aside_of_writes (h : p.Only (Writes keys fields))
    (hkeys : ∀ k, isRecordKey k = true → keys k = false) : p.Only Aside := by
  refine h.mono fun o ho => ho.mono (fun k hk => ?_) fun _ _ => rfl
  cases hrecord : isRecordKey k with
  | false => simp [isOtherKey, hrecord]
  | true =>
      rw [hkeys k hrecord] at hk
      cases hk

theorem aside_of_within (h : p.Only (Within keys fields))
    (hkeys : ∀ k, isRecordKey k = true → keys k = false) : p.Only Aside :=
  aside_of_writes (only_writes h) hkeys

theorem aside_idle (h : p.Only (Within noKey noField)) : p.Only Aside :=
  aside_of_within h fun _ _ => rfl

theorem aside_watch (h : p.Only (Writes isWatchKey isAlarmField)) : p.Only Aside :=
  aside_of_writes h fun k hk => by cases k <;> first | rfl | cases hk

end Aside

theorem aside_readOrRaise {α : Type} (reply : Except String α) : (readOrRaise reply).Only Aside :=
  aside_idle (within_readOrRaise reply)

theorem aside_convergeControl (control : Option ReconciliationControl) :
    (convergeControl control).Only Aside := by
  unfold convergeControl
  split
  · trivial
  · split_ifs
    · trivial
    · exact (aside_watch (writes_clearDriftAlarm _ _)).bind fun _ => only_last rfl

theorem aside_publishReconciliation (info : DeviceInfo) (plan : ReconciliationPlan)
    (control : ReconciliationControl) : (publishReconciliation info plan control).Only Aside := by
  refine (aside_watch (writes_associatePortFaults _)).bind fun _ => ?_
  refine Prog.Only.bind (aside_of_within (within_publishReconciliationState plan _) fun k hk => ?_)
    fun _ => (aside_watch (writes_publishDriftAlarm _ _ _)).bind fun _ => ?_
  · cases k <;> first | rfl | cases hk
  · exact only_send rfl fun _ => only_send ⟨rfl, rfl⟩ fun _ => only_last rfl

theorem aside_openReconciliation (info : DeviceInfo) (plan : ReconciliationPlan)
    (portRecovery stateRecovery : Bool) (control : Option ReconciliationControl) :
    (openReconciliation info plan portRecovery stateRecovery control).Only Aside := by
  unfold openReconciliation
  split
  · split_ifs
    · trivial
    · exact aside_publishReconciliation info plan _
  · exact only_send trivial fun now => only_send rfl fun _ => aside_publishReconciliation info plan _

theorem aside_reconcileDevice (info : DeviceInfo) (actual : List AppliedConnection) :
    (reconcileDevice info actual).Only Aside := by
  have hdesired : loadDesiredConnections.Only Aside :=
    only_send trivial fun keys => aside_idle (within_loadDesired [] keys)
  have hsettled : ∀ desired, (orchestrationSettled desired).Only Aside :=
    fun desired => only_send trivial fun keys => aside_idle (within_settled desired keys)
  refine hdesired.bind fun desired => (hsettled desired).bind fun isSettled => ?_
  split_ifs
  · trivial
  · cases buildReconciliationPlan desired actual with
    | error message => exact only_raise trivial
    | ok plan =>
        refine (aside_idle (within_confirmPlan desired actual plan)).bind fun confirmed => ?_
        refine (aside_idle within_portFaults).bind fun faults => ?_
        refine (aside_watch (writes_recoverPlan desired actual faults _)).bind fun recovered => ?_
        refine only_send trivial fun control => ?_
        split_ifs
        · exact aside_convergeControl control
        · exact aside_openReconciliation info recovered _ _ control

theorem aside_scheduleGenerationRecovery (info : DeviceInfo) (actual : List AppliedConnection) :
    (scheduleGenerationRecovery info actual).Only Aside :=
  aside_of_within (within_scheduleGenerationRecovery info actual)
    fun k hk => by cases k <;> first | rfl | cases hk

theorem aside_pollConnected : pollConnected.Only Aside := by
  refine only_send trivial fun reply => (aside_readOrRaise reply).bind fun info => ?_
  refine only_send trivial fun memory => ?_
  split_ifs
  · exact only_raise trivial
  · refine only_send trivial fun reply => (aside_readOrRaise reply).bind fun actual => ?_
    refine (aside_watch (writes_pollPortStates info actual)).bind fun effective => ?_
    refine only_send trivial fun state => only_send trivial fun _ => ?_
    refine Prog.Only.bind ?_ fun _ => Prog.Only.bind (aside_of_within
      (within_refreshDeviceState info _ state) fun k hk => ?_) fun _ => trivial
    · unfold refreshConnections
      split_ifs
      · refine only_send trivial fun recovery => ?_
        refine (aside_idle (within_recoveryPending recovery)).bind fun pending => ?_
        split_ifs
        · trivial
        · exact aside_reconcileDevice info effective
      · exact aside_scheduleGenerationRecovery info actual
    · cases k <;> first | rfl | cases hk

theorem aside_pollDevice : pollDevice.Only Aside :=
  aside_pollConnected.tryCatch fun error => aside_of_within (within_pollFailed error)
    fun k hk => by cases k <;> first | rfl | cases hk

theorem aside_initializeService : initializeService.Only Aside := by
  refine only_send trivial fun reply => (aside_readOrRaise reply).bind fun info => ?_
  refine only_send trivial fun reply => (aside_readOrRaise reply).bind fun actual => ?_
  refine (aside_watch (writes_pollPortStates info actual)).bind fun _ => ?_
  refine only_send trivial fun state => ?_
  refine Prog.Only.bind (aside_of_within (within_initializeDeviceState info actual state)
    fun k hk => ?_) fun _ => only_send trivial fun _ => trivial
  cases k <;> first | rfl | cases hk

/-! ## The records -/

/-- The command is marked as applied, and a success is stored for it. -/
def Succeeded (w : World) (id : CommandId) : Prop :=
  w.syncd.hash (.processedCommand id) = some true ∧
    ∃ stored, w.syncd.hash (.applyResult id) = some stored ∧ stored.result.isOk = true

/-- A command that succeeded has the connection at the version. -/
def Achieved (w : World) (connection : String) (version : Nat) : Prop :=
  ∃ event ∈ w.commands, Succeeded w event.id ∧
    ∃ c ∈ event.payload.commands, c.id = connection ∧ c.desiredVersion = version

/-- Every member was overtaken by a success at its version or a newer one. -/
def Overtaken (w : World) (event : CommandEvent) : Prop :=
  ∀ c ∈ event.payload.commands, ∃ version, c.desiredVersion ≤ version ∧ Achieved w c.id version

/-- What stands behind the marker of a command. -/
def Settles (w : World) (event : CommandEvent) (applied : Bool) : Prop :=
  (∃ stored, w.syncd.hash (.applyResult event.id) = some stored ∧ stored.result.isOk = applied) ∨
    applied = false ∧ Overtaken w event

structure Durable (w : World) : Prop where
  delivered : w.syncd.group.delivered ≤ w.commands.length
  acknowledged : ∀ n event, w.commands[n]? = some event → w.syncd.group.Acked n →
    (w.syncd.hash (.processedCommand event.id)).isSome = true
  processed : ∀ id applied, w.syncd.hash (.processedCommand id) = some applied →
    ∃ event ∈ w.commands, event.id = id ∧ Settles w event applied
  versions : ∀ connection version, w.syncd.hash (.connectionVersion connection) = some version →
    Achieved w connection version.lastSuccessfulVersion

/-- What one moment keeps of the records of another. -/
structure Keeping (s t : World) : Prop where
  commands : s.commands <+: t.commands
  processed : ∀ id applied, s.syncd.hash (.processedCommand id) = some applied →
    t.syncd.hash (.processedCommand id) = some applied
  results : ∀ id, (s.syncd.hash (.processedCommand id)).isSome = true →
    t.syncd.hash (.applyResult id) = s.syncd.hash (.applyResult id)

section Keeping

variable {s t : World}

theorem Keeping.of_hash (hcommands : s.commands <+: t.commands)
    (hhash : ∀ k, isRecordKey k = true → t.syncd.hash k = s.syncd.hash k) : Keeping s t :=
  ⟨hcommands, fun _ _ h => (hhash _ rfl).trans h, fun _ _ => hhash _ rfl⟩

theorem Succeeded.mono {id : CommandId} (h : Succeeded s id) (hst : Keeping s t) :
    Succeeded t id := by
  obtain ⟨hprocessed, stored, hstored, hok⟩ := h
  refine ⟨hst.processed id true hprocessed, stored, ?_, hok⟩
  rw [hst.results id (by rw [hprocessed]; rfl)]
  exact hstored

theorem Achieved.mono {connection : String} {version : Nat} (h : Achieved s connection version)
    (hst : Keeping s t) : Achieved t connection version := by
  obtain ⟨event, hmem, hsucceeded, hmember⟩ := h
  exact ⟨event, hst.commands.subset hmem, hsucceeded.mono hst, hmember⟩

theorem Overtaken.mono {event : CommandEvent} (h : Overtaken s event) (hst : Keeping s t) :
    Overtaken t event := by
  intro c hc
  obtain ⟨version, hle, hachieved⟩ := h c hc
  exact ⟨version, hle, hachieved.mono hst⟩

theorem Settles.mono {event : CommandEvent} {applied : Bool} (h : Settles s event applied)
    (hst : Keeping s t)
    (hresult : t.syncd.hash (.applyResult event.id) = s.syncd.hash (.applyResult event.id)) :
    Settles t event applied := by
  rcases h with ⟨stored, hstored, hok⟩ | ⟨happlied, hovertaken⟩
  · exact .inl ⟨stored, hresult.trans hstored, hok⟩
  · exact .inr ⟨happlied, hovertaken.mono hst⟩

/-- A step that writes no record. -/
theorem Durable.frame (h : Durable s) (hcommands : s.commands <+: t.commands)
    (hgroup : ∀ n, t.syncd.group.Acked n → s.syncd.group.Acked n)
    (hdelivered : t.syncd.group.delivered ≤ t.commands.length)
    (hhash : ∀ k, isRecordKey k = true → t.syncd.hash k = s.syncd.hash k) : Durable t := by
  have hst : Keeping s t := .of_hash hcommands hhash
  refine ⟨hdelivered, fun n event hget hacked => ?_, fun id applied hid => ?_,
    fun connection version hversion => ?_⟩
  · have hold := hgroup n hacked
    have hlt : n < s.commands.length := Nat.lt_of_lt_of_le hold.1 h.delivered
    rw [hhash _ rfl]
    obtain ⟨extra, hextra⟩ := hcommands
    rw [← hextra, List.getElem?_append_left hlt] at hget
    exact h.acknowledged n event hget hold
  · rw [hhash _ rfl] at hid
    obtain ⟨event, hmem, heq, hsettles⟩ := h.processed id applied hid
    exact ⟨event, hcommands.subset hmem, heq, hsettles.mono hst (hhash _ rfl)⟩
  · rw [hhash _ rfl] at hversion
    exact (h.versions connection version hversion).mono hst

end Keeping

/-! ## What one syncd may write -/

/-- The end of a command: its marker, the versions of a success, and repairs. -/
inductive Concludes (w : World) : List SyncdEntry → Prop
  | intro {event : CommandEvent} {applied : Bool} {generation : Nat}
      {versions repairs : List SyncdEntry} (hmem : event ∈ w.commands)
      (hopen : w.syncd.hash (.processedCommand event.id) = none) (hsettles : Settles w event applied)
      (hversions : ∀ entry ∈ versions, applied = true ∧ ∃ c ∈ event.payload.commands,
        entry = ⟨.connectionVersion c.id, ⟨c.desiredVersion, generation⟩⟩)
      (hrepairs : RepairsOnly repairs) :
      Concludes w (⟨.processedCommand event.id, applied⟩ :: versions ++ repairs)

def Permits (w : World) : Op → Prop
  | .syncd (.xack n) => ∃ event, w.commands[n]? = some event ∧
      (w.syncd.hash (.processedCommand event.id)).isSome = true
  | .syncd (.putHash (.applyResult id) _) => w.syncd.hash (.processedCommand id) = none
  | .syncd (.putHashesAtomically entries) =>
      (∀ entry ∈ entries, isRecordKey entry.1 = false) ∨ Concludes w entries
  | o => Aside o

theorem Aside.permits {w : World} {o : Op} (h : Aside o) : Permits w o := by
  unfold Permits
  split
  · exact h.elim
  · cases h
  · refine .inl fun entry hmem => ?_
    have hkey := h entry hmem
    simpa [isOtherKey] using hkey
  · exact h

theorem commands_syncdExec (o : SyncdOp) (choice : Nat) (w : World) :
    w.commands <+: (o.exec choice w).2.commands := by
  have honce : ∀ {marker : SyncdKey} {fields : SyncdHash marker} {write : World → World},
      w.commands <+: (write w).commands →
        w.commands <+: (w.onceSyncd marker fields write).2.commands := by
    intro marker fields write hwrite
    unfold World.onceSyncd
    split_ifs
    · exact List.prefix_rfl
    · exact hwrite
  cases o with
  | putHashIfAbsent k v => exact honce List.prefix_rfl
  | replaceStateOnce marker v id state event => exact honce List.prefix_rfl
  | replaceAlarmOnce marker v id alarm event => exact honce List.prefix_rfl
  | appendResultOnce marker v event => exact honce List.prefix_rfl
  | appendCommandOnce marker v event => exact honce (List.prefix_append _ _)
  | incrementOnce marker v update => exact honce List.prefix_rfl
  | _ => exact List.prefix_rfl

theorem group_syncdExec {o : SyncdOp} (hread : o ≠ .readGroup) (hack : ∀ n, o ≠ .xack n)
    (choice : Nat) (w : World) : (o.exec choice w).2.syncd.group = w.syncd.group := by
  have honce : ∀ {marker : SyncdKey} {fields : SyncdHash marker} {write : World → World},
      (write w).syncd.group = w.syncd.group →
        (w.onceSyncd marker fields write).2.syncd.group = w.syncd.group := by
    intro marker fields write hwrite
    unfold World.onceSyncd
    split_ifs
    · rfl
    · exact hwrite
  cases o with
  | readGroup => exact absurd rfl hread
  | xack n => exact absurd rfl (hack n)
  | putHashesAtomically entries => exact putEntries_group w entries
  | putHashIfAbsent k v => exact honce rfl
  | replaceStateOnce marker v id state event => exact honce rfl
  | replaceAlarmOnce marker v id alarm event => exact honce rfl
  | appendResultOnce marker v event => exact honce rfl
  | appendCommandOnce marker v event => exact honce rfl
  | incrementOnce marker v update => exact honce rfl
  | _ => rfl

section Exec

variable {w : World}

theorem Durable.aside (h : Durable w) {o : SyncdOp} (ho : Aside (.syncd o)) (choice : Nat) :
    Durable (o.exec choice w).2 := by
  have hcommands := commands_syncdExec o choice w
  have hhash : ∀ k, isRecordKey k = true → (o.exec choice w).2.syncd.hash k = w.syncd.hash k :=
    fun k hk => ho.hash (by simp [isOtherKey, hk]) choice w
  by_cases hread : o = .readGroup
  · subst hread
    refine h.frame hcommands (fun n hacked => Group.acked_read.mp hacked) ?_ hhash
    change (w.syncd.group.read w.commands.length).2.delivered ≤ w.commands.length
    unfold Group.read
    split_ifs with hdeliver
    · exact hdeliver.2
    · exact h.delivered
  · have hgroup := group_syncdExec hread (fun n hn => by subst hn; exact ho) choice w
    refine h.frame hcommands (fun n hacked => hgroup ▸ hacked) ?_ hhash
    rw [hgroup]
    exact h.delivered.trans hcommands.length_le

theorem Durable.ack (h : Durable w) {n : Nat} (hn : Permits w (.syncd (.xack n))) :
    Durable ((SyncdOp.xack n).exec 0 w).2 := by
  obtain ⟨event, hget, hmarked⟩ := hn
  refine ⟨h.delivered, fun m event' hget' hacked => ?_, h.processed, h.versions⟩
  rcases Group.acked_ack.mp hacked with hold | ⟨rfl, -⟩
  · exact h.acknowledged m event' hget' hold
  · change w.commands[m]? = some event' at hget'
    rw [hget, Option.some.injEq] at hget'
    rw [← hget']
    exact hmarked

theorem Keeping.store {id : CommandId} (hopen : w.syncd.hash (.processedCommand id) = none)
    (stored : StoredResult) : Keeping w (w.markSyncd (.applyResult id) stored) := by
  have hother : ∀ k, k ≠ .applyResult id →
      (w.markSyncd (.applyResult id) stored).syncd.hash k = w.syncd.hash k :=
    fun k hk => World.markSyncd_hash_of_ne _ _ _ hk
  refine ⟨List.prefix_rfl, fun other applied h => ?_, fun other hmarked => ?_⟩
  · exact (hother (.processedCommand other) nofun).trans h
  refine hother _ fun heq => ?_
  cases heq
  rw [hopen] at hmarked
  cases hmarked

/-- A result of a command that is not marked. -/
theorem Durable.store (h : Durable w) {id : CommandId}
    (hopen : w.syncd.hash (.processedCommand id) = none) (stored : StoredResult) :
    Durable (w.markSyncd (.applyResult id) stored) := by
  have hkeeping := Keeping.store hopen stored
  have hmarker : ∀ other, (w.markSyncd (.applyResult id) stored).syncd.hash (.processedCommand other) =
      w.syncd.hash (.processedCommand other) := fun other => World.markSyncd_hash_of_ne _ _ _ nofun
  refine ⟨h.delivered, fun n event hget hacked => ?_, fun other applied hprocessed => ?_,
    fun connection version hversion => ?_⟩
  · rw [hmarker]
    exact h.acknowledged n event hget hacked
  · rw [hmarker] at hprocessed
    obtain ⟨event, hmem, rfl, hsettles⟩ := h.processed other applied hprocessed
    exact ⟨event, hmem, rfl,
      hsettles.mono hkeeping (hkeeping.results event.id (by rw [hprocessed]; rfl))⟩
  · have hspared : (w.markSyncd (.applyResult id) stored).syncd.hash
        (.connectionVersion connection) = w.syncd.hash (.connectionVersion connection) :=
      World.markSyncd_hash_of_ne _ _ _ nofun
    exact (h.versions connection version (hspared.symm.trans hversion)).mono hkeeping

/-- A hash after a block is an old one or one of the block. -/
theorem putEntries_hash_cases (w : World) (entries : List SyncdEntry) (k : SyncdKey) :
    (w.putEntries entries).syncd.hash k = w.syncd.hash k ∨
      ∃ v, ⟨k, v⟩ ∈ entries ∧ (w.putEntries entries).syncd.hash k = some v := by
  induction entries generalizing w with
  | nil => exact .inl rfl
  | cons entry rest ih =>
      rw [putEntries_cons]
      rcases ih (w.markSyncd entry.1 entry.2) with hold | ⟨v, hmem, hv⟩
      · by_cases hk : k = entry.1
        · subst hk
          exact .inr ⟨entry.2, List.mem_cons_self, hold.trans (World.markSyncd_hash_self _ _ _)⟩
        · exact .inl (hold.trans (World.markSyncd_hash_of_ne _ _ _ hk))
      · exact .inr ⟨v, List.mem_cons_of_mem _ hmem, hv⟩

theorem repair_of_record {k : SyncdKey} (h : isRecordKey k = true) : isRepairKey k = false := by
  cases k <;> first | rfl | cases h

/-- The block of the end of a command sets its marker, and no other record but versions. -/
theorem concluded_hash {event : CommandEvent} {applied : Bool} {generation : Nat}
    {versions repairs : List SyncdEntry}
    (hversions : ∀ entry ∈ versions, applied = true ∧ ∃ c ∈ event.payload.commands,
      entry = ⟨.connectionVersion c.id, ⟨c.desiredVersion, generation⟩⟩)
    (hrepairs : RepairsOnly repairs) {k : SyncdKey} (hk : isRecordKey k = true)
    (hne : ∀ connection, k ≠ .connectionVersion connection) :
    (w.putEntries (⟨.processedCommand event.id, applied⟩ :: versions ++ repairs)).syncd.hash k =
      (w.markSyncd (.processedCommand event.id) applied).syncd.hash k := by
  rw [List.cons_append, putEntries_cons]
  refine putEntries_hash_of_notMem ?_
  rintro entry hentry rfl
  rcases List.mem_append.mp hentry with hentry | hentry
  · obtain ⟨-, c, -, rfl⟩ := hversions entry hentry
    exact hne c.id rfl
  · have hrepair := hrepairs entry hentry
    rw [repair_of_record hk] at hrepair
    cases hrepair

/-- The other markers and every result stand. -/
theorem concluded_results {event : CommandEvent} {applied : Bool} {generation : Nat}
    {versions repairs : List SyncdEntry}
    (hversions : ∀ entry ∈ versions, applied = true ∧ ∃ c ∈ event.payload.commands,
      entry = ⟨.connectionVersion c.id, ⟨c.desiredVersion, generation⟩⟩)
    (hrepairs : RepairsOnly repairs) (id : CommandId) :
    (w.putEntries (⟨.processedCommand event.id, applied⟩ :: versions ++ repairs)).syncd.hash
      (.applyResult id) = w.syncd.hash (.applyResult id) :=
  (concluded_hash (k := .applyResult id) hversions hrepairs rfl nofun).trans
    (World.markSyncd_hash_of_ne _ _ _ nofun)

theorem concluded_markers {event : CommandEvent} {applied : Bool} {generation : Nat}
    {versions repairs : List SyncdEntry}
    (hversions : ∀ entry ∈ versions, applied = true ∧ ∃ c ∈ event.payload.commands,
      entry = ⟨.connectionVersion c.id, ⟨c.desiredVersion, generation⟩⟩)
    (hrepairs : RepairsOnly repairs) {id : CommandId} (hid : id ≠ event.id) :
    (w.putEntries (⟨.processedCommand event.id, applied⟩ :: versions ++ repairs)).syncd.hash
      (.processedCommand id) = w.syncd.hash (.processedCommand id) :=
  (concluded_hash (k := .processedCommand id) hversions hrepairs rfl nofun).trans
    (World.markSyncd_hash_of_ne _ _ _ (by simpa using hid))

theorem Keeping.conclude {entries : List SyncdEntry} (hends : Concludes w entries) :
    Keeping w (w.putEntries entries) := by
  obtain @⟨event, applied, generation, versions, repairs, -, hopen, -, hversions, hrepairs⟩ := hends
  refine ⟨List.prefix_rfl, fun id old hold => ?_,
    fun id _ => concluded_results hversions hrepairs id⟩
  rw [concluded_markers hversions hrepairs, hold]
  rintro rfl
  rw [hopen] at hold
  cases hold

theorem Durable.conclude (h : Durable w) {entries : List SyncdEntry}
    (hends : Concludes w entries) : Durable (w.putEntries entries) := by
  have hkeeping := Keeping.conclude hends
  obtain @⟨event, applied, generation, versions, repairs, hmem, hopen, hsettles, hversions,
    hrepairs⟩ := hends
  generalize hu : w.putEntries (⟨.processedCommand event.id, applied⟩ :: versions ++ repairs) = u
  rw [hu] at hkeeping
  have hresult : ∀ id, u.syncd.hash (.applyResult id) = w.syncd.hash (.applyResult id) :=
    fun id => hu ▸ concluded_results hversions hrepairs id
  have hself : u.syncd.hash (.processedCommand event.id) = some applied :=
    hu ▸ (concluded_hash (k := .processedCommand event.id) hversions hrepairs rfl nofun).trans
      (World.markSyncd_hash_self _ _ _)
  have hcommands : u.commands = w.commands := by
    rw [← hu]
    rfl
  have hgroup : u.syncd.group = w.syncd.group := by
    rw [← hu]
    exact putEntries_group w _
  have hnow : Settles u event applied := hsettles.mono hkeeping (hresult _)
  refine ⟨by rw [hgroup, hcommands]; exact h.delivered, fun n event' hget hacked => ?_,
    fun id old hold => ?_, fun connection version hversion => ?_⟩
  · rw [hcommands] at hget
    rw [hgroup] at hacked
    have hmarked := h.acknowledged n event' hget hacked
    obtain ⟨old, hold⟩ := Option.isSome_iff_exists.mp hmarked
    rw [hkeeping.processed _ old hold]
    rfl
  · by_cases hid : id = event.id
    · subst hid
      rw [hself, Option.some.injEq] at hold
      subst hold
      exact ⟨event, hcommands ▸ hmem, rfl, hnow⟩
    · rw [← hu, concluded_markers hversions hrepairs hid] at hold
      obtain ⟨event', hmem', rfl, hsettles'⟩ := h.processed id old hold
      exact ⟨event', hcommands ▸ hmem', rfl, hsettles'.mono hkeeping (hresult _)⟩
  · rw [← hu] at hversion
    rcases putEntries_hash_cases w (⟨.processedCommand event.id, applied⟩ :: versions ++ repairs)
        (.connectionVersion connection) with hold | ⟨v, hentry, hv⟩
    · rw [hold] at hversion
      exact (h.versions connection version hversion).mono hkeeping
    · rw [hv, Option.some.injEq] at hversion
      subst hversion
      -- the version of a member of the command that is marked now
      rw [List.cons_append, List.mem_cons] at hentry
      rcases hentry with hentry | hentry
      · cases hentry
      rcases List.mem_append.mp hentry with hentry | hentry
      · obtain ⟨rfl, c, hc, heq⟩ := hversions _ hentry
        cases heq
        refine ⟨event, hcommands ▸ hmem, ⟨hself, ?_⟩, c, hc, rfl, rfl⟩
        rcases hnow with hstored | ⟨hfalse, -⟩
        · exact hstored
        · cases hfalse
      · have hrepair := hrepairs _ hentry
        cases hrepair

theorem Durable.exec (h : Durable w) {o : SyncdOp} (ho : Permits w (.syncd o)) (choice : Nat) :
    Durable (o.exec choice w).2 := by
  cases o with
  | xack n => exact h.ack ho
  | putHash k v =>
      cases k with
      | applyResult id => exact h.store ho v
      | _ =>
          refine h.aside ?_ choice
          exact ho
  | putHashesAtomically entries =>
      rcases ho with haside | hends
      · refine h.aside ?_ choice
        intro entry hmem
        simp [isOtherKey, haside entry hmem]
      · exact h.conclude hends
  | _ =>
      refine h.aside ?_ choice
      exact ho

theorem keeping_exec {o : SyncdOp} (ho : Permits w (.syncd o)) (choice : Nat) :
    Keeping w (o.exec choice w).2 := by
  have haside : Aside (.syncd o) → Keeping w (o.exec choice w).2 := fun haside =>
    .of_hash (commands_syncdExec o choice w)
      fun k hk => haside.hash (by simp [isOtherKey, hk]) choice w
  cases o with
  | xack n => exact .of_hash List.prefix_rfl fun _ _ => rfl
  | putHash k v =>
      cases k with
      | applyResult id => exact Keeping.store ho v
      | _ => exact haside ho
  | putHashesAtomically entries =>
      rcases ho with hothers | hends
      · refine haside fun entry hmem => ?_
        simp [isOtherKey, hothers entry hmem]
      · exact Keeping.conclude hends
  | _ => exact haside ho

end Exec

/-! ## The command handler -/

/-- Everything but syncd: its databases stand, and the command stream grows. -/
structure Elsewise (s t : World) : Prop where
  syncd : t.syncd = s.syncd
  commands : s.commands <+: t.commands

def recording : Contract Op World where
  inv := Durable
  rely := Elsewise
  guard o w := Permits w o
  allow _ _ _ := True
  refl _ := ⟨rfl, List.prefix_rfl⟩
  trans h h' := ⟨h'.syncd.trans h.syncd, h.commands.trans h'.commands⟩

abbrev TripleD {α : Type} (K : World → Prop) (p : Service α) (Q : α → World → Prop) : Prop :=
  Triple exec recording K p Q fun _ _ => True

/-- A moment with the same records, and a longer stream. -/
structure Following (s t : World) : Prop where
  commands : s.commands <+: t.commands
  records : ∀ k, isRecordKey k = true → t.syncd.hash k = s.syncd.hash k

theorem Following.keeping {s t : World} (h : Following s t) : Keeping s t :=
  .of_hash h.commands h.records

theorem Elsewise.following {s t : World} (h : Elsewise s t) : Following s t :=
  ⟨h.commands, fun _ _ => by rw [h.syncd]⟩

theorem following_exec {o : Op} (ho : Aside o) (choice : Nat) (w : World) :
    Following w (exec o choice w).2 := by
  cases o with
  | orch o => exact ho.elim
  | syncd o =>
      exact ⟨commands_syncdExec o choice w,
        fun k hk => ho.hash (by simp [isOtherKey, hk]) choice w⟩

/-! ### Rules -/

/-- The assertion is about the records and a stream that grows. -/
def OnRecords (K : World → Prop) : Prop := ∀ s t, Following s t → K s → K t

section Rules

variable {α β : Type} {K M : World → Prop} {Q : α → World → Prop} {φ : Prop}

theorem OnRecords.stable (h : OnRecords K) : Stable recording K :=
  fun s t hs hst => h s t hst.following hs

theorem OnRecords.and (hK : OnRecords K) (hM : OnRecords M) : OnRecords fun w => K w ∧ M w :=
  fun s t hst hs => ⟨hK s t hst hs.1, hM s t hst hs.2⟩

theorem OnRecords.imp (hK : OnRecords K) : OnRecords fun w => φ → K w :=
  fun s t hst hs hφ => hK s t hst (hs hφ)

theorem onRecords_fact : OnRecords fun _ => φ := fun _ _ _ h => h

theorem TripleD.send {o : SyncdOp} {k : o.Reply → Service α} (M : o.Reply → World → Prop)
    (hK : OnRecords K) (hguard : ∀ w, K w → Permits w (.syncd o))
    (hstep : ∀ w choice, Durable w → K w → M (o.exec choice w).1 (o.exec choice w).2)
    (hk : ∀ r, TripleD (M r) (k r) Q) : TripleD K (Syncd.send o >>= k) Q :=
  Triple.call (o := Op.syncd o) M hK.stable (fun w _ => hguard w)
    (fun w choice hw hKw _ => hstep w choice hw hKw) hk

/-- A call aside keeps the assertion. -/
theorem TripleD.skip {o : SyncdOp} {k : o.Reply → Service α} (hK : OnRecords K)
    (ho : Aside (.syncd o)) (hk : ∀ r, TripleD K (k r) Q) : TripleD K (Syncd.send o >>= k) Q :=
  TripleD.send (fun _ => K) hK (fun _ _ => ho.permits)
    (fun w choice _ hw => hK _ _ (following_exec ho choice w) hw) hk

theorem TripleD.getHash {key : SyncdKey} {k : Option (SyncdHash key) → Service α}
    (hK : OnRecords K) (hk : ∀ v, TripleD (fun w => K w ∧ w.syncd.hash key = v) (k v) Q) :
    TripleD K (Syncd.send (.getHash key) >>= k) Q :=
  TripleD.send (o := .getHash key) (fun v w => K w ∧ w.syncd.hash key = v) hK
    (fun _ _ => trivial) (fun _ _ _ hw => ⟨hw, rfl⟩) hk

theorem TripleD.raise {e : Raised} (hK : OnRecords K) : TripleD K (Syncd.raise e : Service α) Q :=
  Triple.call (o := Op.syncd (.raise e)) (fun _ => K) hK.stable (fun _ _ _ => trivial)
    (fun _ _ _ hs _ => hs) fun _ => Triple.throw (fun _ _ _ _ => trivial) fun _ _ => trivial

/-- A program aside keeps the assertion, and its result is known. -/
theorem TripleD.aside {R : α → Prop} {p : Service α} (hK : OnRecords K)
    (hp : p.Given Aside (fun _ _ => True) R) : TripleD K p fun a w => K w ∧ R a :=
  (Triple.of_given hp hK.stable (fun _ _ ho _ _ => ho.permits) fun _ choice w ho _ hw _ =>
    hK _ _ (following_exec ho choice w) hw).conseq (fun _ h => h) (fun _ _ h => h)
    fun _ _ _ => trivial

theorem TripleD.pass {p : Service β} {k : β → Service α} (hK : OnRecords K) (hp : p.Only Aside)
    (hk : ∀ b, TripleD K (k b) Q) : TripleD K (p >>= k) Q := by
  refine Triple.bind ?_ hk
  exact (TripleD.aside hK hp.given).conseq (fun _ h => h) (fun _ _ h => h.1) fun _ _ h => h

end Rules

theorem ReadOp.aside {o : Op} (h : ReadOp o) : Aside o := by
  cases o with
  | orch o => exact h.elim
  | syncd o =>
      cases o with
      | putHash _ _ | putHashIfAbsent _ _ | putHashesAtomically _ | replaceHashAndAppendEvent _ _ _
      | replaceStateOnce _ _ _ _ _ | replaceAlarmOnce _ _ _ _ _ | appendResultOnce _ _ _
      | appendCommandOnce _ _ _ | incrementOnce _ _ _ | xack _ => cases h
      | _ => trivial

theorem Tallies.aside {command : CommandId} {o : Op} (h : Tallies command o) : Aside o := by
  rcases h with hread | rfl
  · exact hread.aside
  · exact ⟨rfl, fun _ _ => rfl⟩

theorem Serves.aside {command : CommandId} {o : Op} (h : Serves command o) : Aside o := by
  have heffect : ∀ k, isEffectOf command k = true → isOtherKey k = true :=
    fun k hk => by cases k <;> first | rfl | cases hk
  unfold Serves at h
  split at h
  · exact heffect _ h
  · exact heffect _ h.1
  · exact heffect _ h.1
  · trivial
  · exact h.aside

theorem aside_served {α : Type} {command : CommandId} {p : Service α}
    (h : ServesOnly command p) : p.Only Aside := h.only fun _ ho => ho.aside

theorem aside_applyCommand (event : CommandEvent) (batch : DeviceCommandBatch) :
    (applyCommand event batch).Only Aside := aside_idle (within_applyCommand event batch)

/-! ### What is known of the command -/

/-- The message is in the stream. -/
def Queued (n : Nat) (event : CommandEvent) (w : World) : Prop := w.commands[n]? = some event

/-- Its command is marked. -/
structure Closed (n : Nat) (event : CommandEvent) (w : World) : Prop where
  queued : Queued n event w
  marked : (w.syncd.hash (.processedCommand event.id)).isSome = true

/-- Its command is not marked yet. -/
structure Open (n : Nat) (event : CommandEvent) (w : World) : Prop where
  queued : Queued n event w
  unmarked : w.syncd.hash (.processedCommand event.id) = none

/-- Its result is stored. -/
structure Answered (n : Nat) (event : CommandEvent) (stored : StoredResult) (w : World) : Prop
    extends Open n event w where
  result : w.syncd.hash (.applyResult event.id) = some stored

/-- The connection succeeded at the version of the member or a newer one. -/
def Behind (w : World) (c : ConnectionCommand) : Prop :=
  ∃ version, c.desiredVersion ≤ version ∧ Achieved w c.id version

/-- The members of the batch are those of the payload. -/
def MembersOf (event : CommandEvent) (batch : DeviceCommandBatch) : Prop :=
  batch.commands = event.payload.commands.map decodeCommand

section Handler

variable {n : Nat} {event : CommandEvent} {batch : DeviceCommandBatch} {stored : StoredResult}

theorem onRecords_queued : OnRecords (Queued n event) :=
  fun _ _ hst hs => Gnmi.getElem?_of_prefix hst.commands hs

theorem onRecords_closed : OnRecords (Closed n event) :=
  fun s t hst hs => ⟨onRecords_queued s t hst hs.queued,
    by rw [hst.records _ rfl]; exact hs.marked⟩

theorem onRecords_open : OnRecords (Open n event) :=
  fun s t hst hs => ⟨onRecords_queued s t hst hs.queued, (hst.records _ rfl).trans hs.unmarked⟩

theorem onRecords_answered : OnRecords (Answered n event stored) :=
  fun s t hst hs => ⟨onRecords_open s t hst hs.toOpen, (hst.records _ rfl).trans hs.result⟩

theorem onRecords_behind (c : ConnectionCommand) : OnRecords fun w => Behind w c := by
  rintro s t hst ⟨version, hle, hachieved⟩
  exact ⟨version, hle, hachieved.mono hst.keeping⟩

theorem onRecords_allBehind (stale : Bool) (commands : List ConnectionCommand) :
    OnRecords fun w => stale = true → ∀ c ∈ commands, Behind w c :=
  fun s t hst hs hstale c hc => onRecords_behind c s t hst (hs hstale c hc)

theorem onRecords_settles (applied : Bool) : OnRecords fun w => Settles w event applied :=
  fun _ _ hst hs => hs.mono hst.keeping (hst.records (.applyResult event.id) rfl)

theorem Open.mem {w : World} (h : Open n event w) : event ∈ w.commands :=
  List.mem_of_getElem? h.queued

/-- Decoding a member does not touch what the records are about. -/
theorem decodeCommand_identity (c : ConnectionCommand) :
    (decodeCommand c).id = c.id ∧ (decodeCommand c).desiredVersion = c.desiredVersion := by
  unfold decodeCommand
  cases c.operation <;> exact ⟨rfl, rfl⟩

theorem triple_acknowledge : TripleD (Closed n event) (acknowledge n) fun _ _ => True := by
  unfold acknowledge
  refine TripleD.send (fun _ _ => True) onRecords_closed
    (fun w hw => ⟨event, hw.queued, hw.marked⟩) (fun _ _ _ _ => trivial) fun acknowledged => ?_
  split_ifs
  · exact Triple.pure (fun _ _ h _ => h) fun _ h => h
  · exact TripleD.raise onRecords_fact

/-- A member that a version hash supersedes has succeeded. -/
theorem Durable.behind {w : World} (h : Durable w) {generation : Nat} {c : ConnectionCommand}
    (hsup : supersededBy generation c (w.syncd.hash (.connectionVersion c.id)) = true) :
    Behind w c := by
  cases hversion : w.syncd.hash (.connectionVersion c.id) with
  | none =>
      rw [hversion] at hsup
      cases hsup
  | some version =>
      rw [hversion] at hsup
      simp only [supersededBy, Bool.and_eq_true, decide_eq_true_eq] at hsup
      exact ⟨version.lastSuccessfulVersion, hsup.2, h.versions c.id version hversion⟩

theorem triple_allSuperseded {K : World → Prop} (hK : OnRecords K) (generation : Nat)
    (commands : List ConnectionCommand) : TripleD K (allSuperseded generation commands)
      fun stale w => K w ∧ (stale = true → ∀ c ∈ commands, Behind w c) := by
  induction commands generalizing K with
  | nil =>
      exact Triple.pure (hK.and (onRecords_allBehind true [])).stable fun w hw => ⟨hw, by simp⟩
  | cons c rest ih =>
      refine TripleD.send (fun version w => K w ∧ (supersededBy generation c version = true →
        Behind w c)) hK (fun _ _ => trivial) (fun w _ hw hKw => ⟨hKw, hw.behind⟩) fun version => ?_
      split_ifs with hsup
      · have hKc := hK.and (onRecords_behind c)
        refine ((ih hKc).pre fun w hw => ⟨hw.1, hw.2 hsup⟩).conseq (fun _ h => h) ?_ fun _ _ h => h
        rintro stale w ⟨⟨hw, hc⟩, hrest⟩
        exact ⟨hw, fun hstale => List.forall_mem_cons.mpr ⟨hc, hrest hstale⟩⟩
      · exact Triple.pure (hK.and (onRecords_allBehind false _)).stable fun w hw => ⟨hw.1, nofun⟩

theorem MembersOf.overtaken {w : World} (h : MembersOf event batch)
    (hbehind : ∀ c ∈ batch.commands, Behind w c) : Overtaken w event := by
  intro c hc
  have hmem : decodeCommand c ∈ batch.commands := by
    rw [h]
    exact List.mem_map_of_mem hc
  obtain ⟨version, hle, hachieved⟩ := hbehind _ hmem
  rw [(decodeCommand_identity c).2] at hle
  rw [(decodeCommand_identity c).1] at hachieved
  exact ⟨version, hle, hachieved⟩

theorem triple_isStaleVersion (hmembers : MembersOf event batch) :
    TripleD (Open n event) (isStaleVersion event batch)
      fun stale w => Open n event w ∧ (stale = true → Overtaken w event) := by
  unfold isStaleVersion
  split_ifs
  · refine Triple.pure ?_ fun w hw => ⟨hw, nofun⟩
    exact (onRecords_open.and (OnRecords.imp fun _ _ hst h => h.mono hst.keeping)).stable
  · refine TripleD.skip onRecords_open trivial fun memory => ?_
    refine (triple_allSuperseded onRecords_open memory.2 batch.commands).conseq (fun _ h => h) ?_
      fun _ _ h => h
    exact fun stale w hw => ⟨hw.1, fun hstale => hmembers.overtaken (hw.2 hstale)⟩

/-- The versions that the end of a command writes are its own. -/
theorem reads_ownVersions (generation : Nat) (applied : Bool)
    (hmembers : applied = true → MembersOf event batch) :
    ReadsTo (fun written => ∀ entry ∈ written, applied = true ∧ ∃ c ∈ event.payload.commands,
        entry = ⟨.connectionVersion c.id, ⟨c.desiredVersion, generation⟩⟩)
      (appliedVersions generation batch.commands applied) := by
  cases applied with
  | false => exact fun entry hmem => absurd hmem List.not_mem_nil
  | true =>
      refine (reads_appliedVersions generation batch.commands true).mono
        fun written h entry hentry => ⟨rfl, ?_⟩
      obtain ⟨c, hc, rfl⟩ := h entry hentry
      rw [hmembers rfl] at hc
      obtain ⟨member, hmember, rfl⟩ := List.mem_map.mp hc
      rw [(decodeCommand_identity member).1, (decodeCommand_identity member).2]
      exact ⟨member, hmember, rfl⟩

theorem triple_markProcessed {applied : Bool} (hmembers : applied = true → MembersOf event batch) :
    TripleD (fun w => Open n event w ∧ Settles w event applied) (markProcessed event batch applied)
      fun _ => Closed n event := by
  have hK : OnRecords fun w => Open n event w ∧ Settles w event applied :=
    onRecords_open.and (onRecords_settles applied)
  unfold markProcessed
  refine TripleD.skip hK trivial fun memory => ?_
  refine Triple.bind (TripleD.aside hK ((reads_ownVersions memory.2 applied hmembers).permit
    fun _ ho => ho.aside)) fun versions => Triple.lift fun hversions => ?_
  refine Triple.bind (TripleD.aside hK ((tallies_markReconciliation event applied).permit
    fun _ ho => ho.aside)) fun repairs => Triple.lift fun hrepairs => ?_
  refine Triple.call (o := Op.syncd (.putHashesAtomically _)) (fun _ => Closed n event) hK.stable
    (fun w _ hw => .inr ?_) (fun w choice _ hw _ => ?_)
    fun _ => Triple.pure onRecords_closed.stable fun _ h => h
  · exact .intro hw.1.mem hw.1.unmarked hw.2 hversions hrepairs
  · refine ⟨hw.1.queued, ?_⟩
    have hmark := concluded_hash (w := w) (k := .processedCommand event.id) hversions hrepairs rfl
      nofun
    change ((w.putEntries _).syncd.hash (.processedCommand event.id)).isSome = true
    rw [hmark, World.markSyncd_hash_self]
    rfl

theorem triple_finishCommand (hmembers : stored.result.isOk = true → MembersOf event batch) :
    TripleD (Answered n event stored) (finishCommand n event batch stored) fun _ _ => True := by
  unfold finishCommand
  refine TripleD.pass onRecords_answered (aside_served (serves_publishState _ 0 _)) fun delta => ?_
  refine TripleD.skip onRecords_answered ?_ fun _ => ?_
  · refine ⟨rfl, fun _ _ => rfl⟩
  refine TripleD.pass onRecords_answered (aside_served (serves_publishResult _ _)) fun _ => ?_
  refine Triple.bind (M := fun _ => Closed n event) ?_ fun _ => triple_acknowledge
  refine (triple_markProcessed hmembers).pre fun w hw => ⟨hw.toOpen, .inl ⟨stored, hw.result, rfl⟩⟩

theorem triple_putResult {k : Unit → Service Bool}
    (hk : TripleD (Answered n event stored) (k ()) fun _ _ => True) :
    TripleD (Open n event) (Syncd.send (.putHash (.applyResult event.id) stored) >>= k)
      fun _ _ => True := by
  refine TripleD.send (o := .putHash (.applyResult event.id) stored)
    (fun _ => Answered n event stored) onRecords_open (fun w hw => hw.unmarked)
    (fun w choice _ hw => ?_) fun _ => hk
  refine ⟨⟨hw.queued, ?_⟩, World.markSyncd_hash_self _ _ _⟩
  have hother : SyncdKey.processedCommand event.id ≠ .applyResult event.id := nofun
  exact (World.markSyncd_hash_of_ne _ _ _ hother).trans hw.unmarked

/-- The stored result is what is read. -/
theorem triple_getResult {k : Option StoredResult → Service Bool}
    (hk : TripleD (Answered n event stored) (k (some stored)) fun _ _ => True) :
    TripleD (Answered n event stored) (Syncd.send (.getHash (.applyResult event.id)) >>= k)
      fun _ _ => True := by
  refine TripleD.getHash onRecords_answered fun v => ?_
  by_cases hv : v = some stored
  · subst hv
    exact hk.pre fun w hw => hw.1
  · intro w hw
    exact absurd (hw.2.symm.trans hw.1.result) hv

theorem triple_attemptCommand (hmembers : MembersOf event batch) :
    TripleD (Open n event) (attemptCommand n event batch) fun _ _ => True := by
  unfold attemptCommand
  refine TripleD.skip onRecords_open rfl fun _ => ?_
  refine TripleD.pass onRecords_open (aside_applyCommand event batch) fun result => ?_
  refine TripleD.skip onRecords_open trivial fun latencyMs => triple_putResult ?_
  exact triple_getResult (triple_finishCommand fun _ => hmembers)

theorem triple_startCommand (hmembers : MembersOf event batch) :
    TripleD (Open n event) (startCommand n event batch) fun _ _ => True := by
  unfold startCommand
  refine TripleD.getHash onRecords_open fun found => ?_
  cases found with
  | some stored =>
      exact (triple_finishCommand fun _ => hmembers).pre fun w hw => ⟨hw.1, hw.2⟩
  | none =>
      refine Triple.pre (K := Open n event) ?_ fun w hw => hw.1
      refine TripleD.skip onRecords_open trivial fun attempt => ?_
      cases attempt with
      | some _ => exact triple_attemptCommand hmembers
      | none =>
          refine Triple.bind (triple_isStaleVersion hmembers) fun stale => ?_
          split_ifs with hstale
          · refine Triple.bind (M := fun _ => Closed n event) ?_ fun _ => triple_acknowledge
            have hnever : false = true → MembersOf event batch := nofun
            exact (triple_markProcessed hnever).pre fun w hw => ⟨hw.1, .inr ⟨rfl, hw.2 hstale⟩⟩
          · exact (triple_attemptCommand hmembers).pre fun w hw => hw.1

/-- A command that does not decode is refused, whatever batch was prepared for it. -/
theorem triple_malformedCommand (message : String) :
    TripleD (Open n event) (malformedCommand n event message) fun _ _ => True := by
  unfold malformedCommand
  refine Triple.bind (TripleD.aside onRecords_open ((reads_recoverPreparedBatch event).permit
    fun _ ho => ho.aside)) fun batch => Triple.lift fun _ => triple_putResult ?_
  unfold startCommand
  exact triple_getResult (triple_finishCommand nofun)

theorem triple_handleCommand : TripleD (Queued n event) (handleCommand n event) fun _ _ => True := by
  unfold handleCommand
  refine TripleD.getHash onRecords_queued fun processed => ?_
  cases processed with
  | some _ => exact triple_acknowledge.pre fun w hw => ⟨hw.1, by rw [hw.2]; rfl⟩
  | none =>
      refine Triple.pre (K := Open n event) ?_ fun w hw => ⟨hw.1, hw.2⟩
      cases hdecode : decodeDeviceCommand event.payload with
      | error message => exact triple_malformedCommand message
      | ok decoded =>
          refine triple_startCommand ?_
          unfold MembersOf
          rw [(decodeDeviceCommand_ok hdecode).1]
          rfl

end Handler

/-- What is delivered is in the stream. -/
def Handed (message : Option (Nat × CommandEvent)) (w : World) : Prop :=
  ∀ n event, message = some (n, event) → Queued n event w

theorem onRecords_handed (message : Option (Nat × CommandEvent)) :
    OnRecords (Handed message) :=
  fun s t hst hs n event heq => onRecords_queued s t hst (hs n event heq)

theorem triple_readGroup : TripleD (fun _ => True) (Syncd.send .readGroup) Handed := by
  refine Triple.call (o := Op.syncd .readGroup) Handed (fun _ _ h _ => h) (fun _ _ _ => trivial)
    (fun w choice _ _ _ n event heq => ?_)
    fun message => Triple.pure (onRecords_handed message).stable fun _ h => h
  simp only [exec, SyncdOp.exec, Option.bind_eq_some_iff, Option.map_eq_some_iff] at heq
  obtain ⟨m, -, e, hget, heq⟩ := heq
  cases heq
  exact hget

theorem triple_nextCommand : TripleD (fun _ => True) nextCommand Handed := by
  unfold nextCommand
  refine TripleD.skip onRecords_fact trivial fun candidate => ?_
  cases candidate with
  | none => exact triple_readGroup
  | some n =>
      refine TripleD.send (o := .xclaim n) (fun claimed w => ∀ event, claimed = some event →
        Queued n event w) onRecords_fact (fun _ _ => trivial) (fun w choice _ _ event heq => ?_)
        fun claimed => ?_
      · simp only [SyncdOp.exec] at heq
        split_ifs at heq
        exact heq
      · cases claimed with
        | none => exact triple_readGroup.pre fun _ _ => trivial
        | some event =>
            refine Triple.pure (onRecords_handed _).stable fun w hw n' event' heq => ?_
            cases heq
            exact hw event rfl

theorem triple_processOne : TripleD (fun _ => True) processOne fun _ _ => True := by
  unfold processOne
  refine Triple.bind triple_nextCommand fun message => ?_
  match message with
  | none => exact Triple.pure (fun _ _ h _ => h) fun _ _ => trivial
  | some (n, event) => exact triple_handleCommand.pre fun w hw => hw n event rfl

/-! ## The system -/

/-- One syncd, which may be lost at any point and started again, beside whatever leaves its
databases alone. -/
def recorder : System Op Op.Reply Raised Bool World Unit where
  exec := exec
  init w := ∃ inventory hwsim, w = { inventory := inventory, hwsim := hwsim }
  starts _ _ p := p = initializeService ∨ p = processOne ∨ p = pollDevice
  crash _ := forget
  env := Elsewise
  allow _ _ _ _ := True

theorem Durable.forget {w : World} (h : Durable w) : Durable (Syncd.forget w) :=
  h.frame List.prefix_rfl (fun _ hacked => hacked) h.delivered fun _ _ => rfl

theorem Durable.elsewise {s t : World} (h : Durable s) (hst : Elsewise s t) : Durable t :=
  h.frame hst.commands (fun _ hacked => hst.syncd ▸ hacked)
    (by rw [hst.syncd]; exact h.delivered.trans hst.commands.length_le)
    hst.following.records

theorem safe_aside {p : Service Bool} (hp : p.Only Aside) (w : World) :
    Safe exec recording (fun _ _ => True) p w := by
  have hsafe := TripleD.aside (K := fun _ => True) onRecords_fact hp.given w trivial
  exact hsafe.weaken fun _ _ _ _ => trivial

theorem recorder_verified :
    Verified recorder Durable (fun _ => recording) fun _ _ _ _ => True where
  inv _ _ h := h
  allow _ _ _ _ _ := trivial
  init := by
    rintro w ⟨inventory, hwsim, rfl⟩
    exact ⟨Nat.le_refl 0, fun n event hget => by simp at hget, nofun, nofun⟩
  starts := by
    rintro _ w p _ (rfl | rfl | rfl)
    · exact safe_aside aside_initializeService w
    · exact (triple_processOne w trivial).weaken fun _ _ _ _ => trivial
    · exact safe_aside aside_pollDevice w
  call := by
    rintro i o choice w hw hpermits -
    refine ⟨?_, fun j hj => absurd (Subsingleton.elim j i) hj⟩
    cases o with
    | orch o => exact absurd hpermits id
    | syncd o => exact hw.exec hpermits choice
  crash i w hw _ := ⟨hw.forget, fun j hj => absurd (Subsingleton.elim j i) hj⟩
  env s t hs hst := ⟨hs.elsewise hst, fun _ => hst⟩

theorem Keeping.trans {s t u : World} (h : Keeping s t) (h' : Keeping t u) : Keeping s u := by
  refine ⟨h.commands.trans h'.commands, fun id applied hid => h'.processed id applied
    (h.processed id applied hid), fun id hid => ?_⟩
  have hmarked : (t.syncd.hash (.processedCommand id)).isSome = true := by
    obtain ⟨applied, happlied⟩ := Option.isSome_iff_exists.mp hid
    rw [h.processed id applied happlied]
    rfl
  exact (h'.results id hmarked).trans (h.results id hid)

/-- Whatever was lost on the way, the records are truthful, and what is marked stands for good. -/
theorem records_truthful {c d : Config Op Op.Reply Raised Bool World Unit}
    (h : Reachable recorder c) (hrun : Relation.ReflTransGen (Step recorder) c d) :
    Durable c.world ∧ Keeping c.world d.world := by
  refine ⟨recorder_verified.invariant h, ?_⟩
  refine recorder_verified.later (R := Keeping) (fun _ => .of_hash List.prefix_rfl fun _ _ => rfl)
    Keeping.trans (fun i o choice w hw hpermits _ => ?_) (fun i w hw _ => ?_)
    (fun s t hs hst => ?_) h hrun
  · cases o with
    | orch o => exact absurd hpermits id
    | syncd o => exact keeping_exec hpermits choice
  · exact .of_hash List.prefix_rfl fun _ _ => rfl
  · exact Elsewise.following (s := s) (t := t) hst |>.keeping

/-- Two connections of one command. -/
def pairQueued : World := { Orch.smallWorld with commands := [pairCommand] }

/-- The command is handled, and the reply of the device is lost. -/
def pairHandled : Service Bool × World :=
  processOne.run exec (processOne.schedule exec losesReply 60 pairQueued) pairQueued

theorem pairHandled_reachable : Reachable recorder ⟨pairHandled.2, fun _ => none⟩ := by
  have hinit : Reachable recorder ⟨Orch.smallWorld, fun _ => none⟩ := .init ⟨_, _, rfl⟩
  have hqueued : Reachable recorder ⟨pairQueued, fun _ => none⟩ :=
    hinit.step (.env pairQueued ⟨rfl, List.nil_prefix⟩)
  have hallow : processOne.along exec (fun _ _ _ => True)
      (processOne.schedule exec losesReply 60 pairQueued) pairQueued :=
    Prog.along_of_forall (fun _ _ _ => trivial) _ _ _
  exact hqueued.complete (i := ()) (a := true) rfl (.inr (.inl rfl)) _ hallow (by decide +kernel)

/-- The success that the queries confirmed outlives a crash. -/
theorem records_truthful_pairHandled :
    (pairHandled.2.syncd.group.Acked 0 ∧
      pairHandled.2.syncd.hash (.processedCommand pairCommand.id) = some true) ∧
    Durable pairHandled.2 ∧ Keeping pairHandled.2 (forget pairHandled.2) := by
  refine ⟨by decide +kernel, ?_⟩
  exact records_truthful (d := ⟨forget pairHandled.2, Function.update (fun _ => none) () none⟩)
    pairHandled_reachable (.single (.crash () trivial))

end MiniOcs.Syncd
