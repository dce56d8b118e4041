import MiniOcs.Orch.Retries

/-!
# DEVICE_DB is never ahead

Whatever is cut where, a connection of DEVICE_DB is not newer than the application it is a copy of.
-/
namespace MiniOcs.Orch
open Std Concurrent

structure Behind (w : World) : Prop where
  device : ∀ (id : String) (d : Application), w.orch.device[id]? = some d →
    d.desiredVersion ≤ currentVersion w.orch.appl[id]?
  applied : ∀ e, (w.orch.hash (.applicationPublication e)).isSome →
    ∀ payload : DeviceCommandBatch, w.orch.hash (.configBatch (.config e)) = some payload →
      ∀ m ∈ payload.commands, m.desiredVersion ≤ currentVersion w.orch.appl[m.id]?

theorem behind_init (inventory : Gnmi.Inventory) (hwsim : SimulatedOcsDevice CommandId) :
    Behind { inventory := inventory, hwsim := hwsim } := by
  refine ⟨?_, ?_⟩ <;> intros <;> simp_all

section

variable {w w' : World} {k : OrchKey} {v : OrchHash k} {version : Nat}
  {hashes : List (String × Option Application)}

theorem Behind.congr (h : Behind w) (happl : w'.orch.appl = w.orch.appl)
    (hdevice : w'.orch.device = w.orch.device)
    (happlied : ∀ e, w'.orch.hash (.applicationPublication e) =
      w.orch.hash (.applicationPublication e))
    (hbatch : ∀ e, (w.orch.hash (.applicationPublication e)).isSome →
      w'.orch.hash (.configBatch (.config e)) = w.orch.hash (.configBatch (.config e))) :
    Behind w' := by
  refine ⟨by rw [happl, hdevice]; exact h.device, fun e he payload hpayload => ?_⟩
  rw [happlied] at he
  rw [hbatch e he] at hpayload
  rw [happl]
  exact h.applied e he payload hpayload

/-- A publication into APPL_DB brings nothing down. -/
theorem Behind.stageAppl (h : Behind w) (hsome : ∀ entry ∈ hashes, entry.2.isSome)
    (hversions : ∀ entry ∈ hashes, ∀ a, entry.2 = some a → a.desiredVersion = version)
    (hk : ∀ c, k ≠ .configBatch c)
    (hnew : ∀ e, .applicationPublication e = k → ∀ payload : DeviceCommandBatch,
      w.orch.hash (.configBatch (.config e)) = some payload → ∀ m ∈ payload.commands,
        m.desiredVersion ≤ currentVersion (putVersioned w.orch.appl version hashes)[m.id]?) :
    Behind (w.stage .appl k v version hashes) := by
  have hmatch : versionsMatch version hashes = true := by
    refine List.all_eq_true.mpr fun entry hmem => ?_
    obtain ⟨a, ha⟩ := Option.isSome_iff_exists.mp (hsome entry hmem)
    rw [ha]
    exact decide_eq_true (hversions entry hmem a ha)
  have hmono : ∀ id, currentVersion w.orch.appl[id]? ≤
      currentVersion (putVersioned w.orch.appl version hashes)[id]? :=
    currentVersion_putVersioned hmatch hsome
  refine ⟨fun id d hd => (h.device id d hd).trans (hmono id), fun e he payload hpayload m hm => ?_⟩
  rw [World.stage_hash_of_ne _ _ _ _ _ _ (hk _).symm] at hpayload
  rw [World.stage_appl_appl]
  by_cases hek : .applicationPublication e = k
  · exact hnew e hek payload hpayload m hm
  · rw [World.stage_hash_of_ne _ _ _ _ _ _ hek] at he
    exact (h.applied e he payload hpayload m hm).trans (hmono m.id)

theorem Behind.stageDevice (h : Behind w)
    (hhashes : ∀ entry ∈ hashes, ∀ d, entry.2 = some d →
      d.desiredVersion ≤ currentVersion w.orch.appl[entry.1]?)
    (hk : ∀ c, k ≠ .configBatch c) (hka : ∀ e, k ≠ .applicationPublication e) :
    Behind (w.stage .device k v version hashes) := by
  refine ⟨fun id d hd => ?_, fun e he payload hpayload => ?_⟩
  · rcases stage_device_cases hd with hd | hmem
    · exact h.device id d hd
    · exact hhashes _ hmem d rfl
  · rw [World.stage_hash_of_ne _ _ _ _ _ _ (hka e).symm] at he
    rw [World.stage_hash_of_ne _ _ _ _ _ _ (hk _).symm] at hpayload
    exact h.applied e he payload hpayload

/-- What is published under an id is not older than the version. -/
theorem currentVersion_putVersioned_ge {table : Table} {id : String} {a : Application}
    (hnd : (hashes.map Prod.fst).Nodup) (hmem : (id, some a) ∈ hashes)
    (hv : a.desiredVersion = version) :
    version ≤ currentVersion (putVersioned table version hashes)[id]? := by
  by_cases hle : notNewer table version id
  · rw [getElem?_putVersioned_of_mem hnd hmem hle]
    exact hv.ge
  · simp only [notNewer, not_forall, Nat.not_le] at hle
    obtain ⟨existing, hex, hlt⟩ := hle
    rw [getElem?_putVersioned_of_newer hex hlt, hex]
    exact hlt.le

theorem Behind.stageConfig (h : Behind w) (ht : Tidy w) {n : Nat} {event : Gnmi.ConfigEvent}
    {batch : DeviceCommandBatch} (hrun : ConfigRun w n event batch)
    (hv : ∀ c ∈ batch.commands, c.desiredVersion = event.desiredVersion) :
    Behind (w.stage .appl (.applicationPublication event.eventId) () event.desiredVersion
      (configHashes event batch.commands)) := by
  refine h.stageAppl (fun entry hmem => ?_) (configHashes_version hv) (by simp)
    fun e hek payload hpayload m hm => ?_
  · obtain ⟨command, -, rfl⟩ := List.mem_map.mp hmem
    rfl
  · obtain ⟨payload', hpayload', hdec⟩ := hrun.prepared
    rw [OrchKey.applicationPublication.inj hek] at hpayload
    have heq : payload' = payload := Option.some.inj (hpayload'.symm.trans hpayload)
    subst heq
    have hmem : decodeCommand m ∈ batch.commands := by
      rw [(decodeDeviceCommand_ok hdec).1]
      exact List.mem_map.mpr ⟨m, hm, rfl⟩
    have hid : (decodeCommand m).id = m.id := by
      unfold decodeCommand
      cases m.operation <;> rfl
    have hnd : ((configHashes event batch.commands).map Prod.fst).Nodup := by
      simpa [configHashes, batchIds, Function.comp_def] using hrun.nodup ht
    rw [← decodeCommand_desiredVersion, hv _ hmem, ← hid]
    exact currentVersion_putVersioned_ge hnd (List.mem_map.mpr ⟨_, hmem, rfl⟩) (hv _ hmem)

theorem Behind.stageConfigDevice (h : Behind w) {n : Nat} {event : Gnmi.ConfigEvent}
    {batch : DeviceCommandBatch} (hrun : ConfigRun w n event batch)
    (happlied : (w.orch.hash (.applicationPublication event.eventId)).isSome) :
    Behind (w.stage .device (.deviceStatePublication event.eventId) () event.desiredVersion
      (configHashes event batch.commands)) := by
  refine h.stageDevice (fun entry hmem d hd => ?_) (by simp) (by simp)
  obtain ⟨payload, hpayload, hdec⟩ := hrun.prepared
  obtain ⟨c, hc, rfl⟩ := List.mem_map.mp hmem
  cases hd
  rw [(decodeDeviceCommand_ok hdec).1] at hc
  obtain ⟨m, hm, rfl⟩ := List.mem_map.mp hc
  have hid : (decodeCommand m).id = m.id := by
    unfold decodeCommand
    cases m.operation <;> rfl
  simp only [configApplication, decodeCommand_desiredVersion, hid]
  exact h.applied _ happlied payload hpayload m hm

/-- A copy of what an application was changed to. -/
theorem le_currentVersion {id : String} {a d : Application} (ha : w.orch.appl[id]? = some a)
    (hv : d.desiredVersion = a.desiredVersion) :
    d.desiredVersion ≤ currentVersion w.orch.appl[id]? := by
  rw [ha]
  exact hv.le

theorem Behind.action {policy : ApplyRetryPolicy} {o : OrchOp} (h : Behind w) (ho : Orderly w)
    (ht : Tidy w) (ha : Action policy w o w') : Behind w' := by
  cases ha with
  | idle _ => exact h
  | raise _ => exact h
  | alarm _ hstep =>
      have halarm := hstep.only
      exact h.congr halarm.appl halarm.device (fun e => halarm.hash _ rfl)
        fun e _ => halarm.hash _ rfl
  | @deliver g n _ _ _ =>
      exact h.congr (by cases g <;> rfl) (by cases g <;> rfl) (fun e => by cases g <;> rfl)
        fun e _ => by cases g <;> rfl
  | @prepare n event decoded selected _ _ hnone _ _ _ =>
      refine h.congr rfl rfl (fun e => World.mark_hash_of_ne _ _ _ (by simp)) fun e he => ?_
      refine World.mark_hash_of_ne _ _ _ fun heq => ?_
      -- an event that is published has been prepared
      have hset := ho.prepared e he
      rw [heq, hnone] at hset
      cases hset
  | stageApplication hrun _ hv _ => exact h.stageConfig ht hrun hv
  | stageDevice hrun happlied _ _ => exact h.stageConfigDevice hrun happlied
  | publishCommand _ _ =>
      exact h.congr rfl rfl (fun e => World.mark_hash_of_ne _ _ _ (by simp))
        fun e _ => World.mark_hash_of_ne _ _ _ (by simp)
  | @ackConfig n _ _ _ => exact h.congr (by simp) (by simp) (fun e => by simp) fun e _ => by simp
  | resultDevice hrun _ _ =>
      refine h.stageDevice (fun entry hmem d hd => ?_) (by simp) (by simp)
      cases List.mem_singleton.mp hmem
      simp only [resultDeviceHash] at hd
      split_ifs at hd
      cases hd
      exact le_currentVersion hrun.found (resultApplication_version _ _ _)
  | resultApplication hrun _ _ =>
      refine h.stageAppl (fun entry hmem => ?_) (fun entry hmem a ha => ?_) (by simp) (by simp)
      · cases List.mem_singleton.mp hmem
        rfl
      · cases List.mem_singleton.mp hmem
        cases ha
        rw [resultApplication_version]
        exact (resultDecision_publish hrun.decided).1.symm
  | @ackResult n _ _ _ _ _ =>
      exact h.congr (by simp) (by simp) (fun e => by simp) fun e _ => by simp
  | timeoutDevice _ _ _ _ _ _ =>
      refine h.stageDevice (fun entry hmem d hd => ?_) (by simp) (by simp)
      obtain ⟨existing, hex, hv⟩ := timeoutHashes_version entry hmem d hd
      exact le_currentVersion hex hv
  | timeoutApplication _ hcur _ _ hv =>
      refine h.stageAppl (fun entry hmem => ?_) (fun entry hmem a ha => ?_) (by simp) (by simp)
      · obtain ⟨c, hc, rfl⟩ := List.mem_map.mp hmem
        obtain ⟨a, ha, -⟩ := isCurrent_some (hcur c hc)
        rw [ha]
        rfl
      · obtain ⟨c, hc, rfl⟩ := List.mem_map.mp hmem
        obtain ⟨b, hb, hbv, -⟩ := isCurrent_some (hcur c hc)
        rw [hb] at ha
        cases ha
        exact hbv.trans (hv c hc)
  | scheduleRetry _ _ _ _ _ =>
      exact h.congr rfl rfl (fun e => World.mark_hash_of_ne _ _ _ (by simp))
        fun e _ => World.mark_hash_of_ne _ _ _ (by simp)
  | @ackTimeout n _ _ _ _ => exact h.congr (by simp) (by simp) (fun e => by simp) fun e _ => by simp
  | retryApplication _ hcur _ _ hv =>
      refine h.stageAppl (fun entry hmem => ?_) (fun entry hmem a ha => ?_) (by simp) (by simp)
      · obtain ⟨c, hc, rfl⟩ := List.mem_map.mp hmem
        obtain ⟨a, ha, -⟩ := isCurrentRetry_some (hcur c hc)
        rw [ha]
        rfl
      · obtain ⟨c, hc, rfl⟩ := List.mem_map.mp hmem
        obtain ⟨b, hb, hbv, -⟩ := isCurrentRetry_some (hcur c hc)
        rw [hb] at ha
        cases ha
        exact hbv.trans (hv c hc)
  | retryDevice _ _ _ _ _ =>
      refine h.stageDevice (fun entry hmem d hd => ?_) (by simp) (by simp)
      obtain ⟨existing, hex, hv⟩ := retryHashes_version entry hmem d hd
      exact le_currentVersion hex hv
  | retryBatch _ _ =>
      exact h.congr rfl rfl (fun e => World.mark_hash_of_ne _ _ _ (by simp))
        fun e _ => World.mark_hash_of_ne _ _ _ (by simp [RetryId.command])
  | retryCommand _ _ =>
      exact h.congr rfl rfl (fun e => World.mark_hash_of_ne _ _ _ (by simp))
        fun e _ => World.mark_hash_of_ne _ _ _ (by simp)
  | @ackRetry n _ _ _ => exact h.congr (by simp) (by simp) (fun e => by simp) fun e _ => by simp

end

end MiniOcs.Orch
