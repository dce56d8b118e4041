import MiniOcs.Orch.Streams

/-!
# The two copies of an application

Every entry publishes its members twice, once to APPL_DB and once to DEVICE_DB. Between the
two publications the entry is half published: one copy is ahead of the other, and the entry
must still be able to bring the second one up. It can, as long as nobody else publishes a
part of its members in between.
-/
namespace MiniOcs.Orch
open Std Concurrent

/-- Field by field equal, or gone from DEVICE_DB and absent in APPL_DB. -/
def Agree (device appl : Option Application) : Prop :=
  device = appl ∨ (device = none ∧ ∀ a, appl = some a → a.applyStatus = .absent)

instance (device appl : Option Application) : Decidable (Agree device appl) :=
  inferInstanceAs (Decidable (device = appl ∨
    (device = none ∧ ∀ a ∈ appl, a.applyStatus = .absent)))

/-! ## Half published entries -/

/-- A half published entry: its second marker, its members and their version. -/
structure HalfEntry where
  second : OrchKey
  ids : List String
  version : Nat
  deriving DecidableEq, Repr

def halfConfig (w : World) (n : Nat) : Option HalfEntry :=
  w.config.events[n]?.bind fun event =>
    (w.orch.hash (.configBatch (configCommandId event))).bind fun (payload : DeviceCommandBatch) =>
      if (w.orch.hash (.applicationPublication event.eventId)).isSome ∧
          (w.orch.hash (.deviceStatePublication event.eventId)).isNone then
        some ⟨.deviceStatePublication event.eventId, batchIds payload, event.desiredVersion⟩
      else none

def halfTimeout (w : World) (result : ResultEvent) : Option HalfEntry :=
  (w.syncd.hash (.applyAttempt result.commandId)).bind fun (payload : DeviceCommandBatch) =>
    (w.orch.hash (.timeoutDevicePublication result.commandId)).bind
      fun (metadata : TimeoutMetadata) =>
        if (w.orch.hash (.timeoutApplicationPublication result.commandId)).isNone then
          some ⟨.timeoutApplicationPublication result.commandId, batchIds payload,
            metadata.desiredVersion⟩
        else none

def halfResult (w : World) (n : Nat) : Option HalfEntry :=
  w.syncd.results[n]?.bind fun result =>
    if isTimeout result then halfTimeout w result
    else if (w.orch.hash (.resultDevicePublication result.id)).isSome ∧
        (w.orch.hash (.resultApplicationPublication result.id)).isNone then
      some ⟨.resultApplicationPublication result.id, [result.resourceId], result.desiredVersion⟩
    else none

def halfRetry (w : World) (n : Nat) : Option HalfEntry :=
  w.orch.retries[n]?.bind fun retry =>
    if (w.orch.hash (.retryApplicationPublication retry.id)).isSome ∧
        (w.orch.hash (.retryDevicePublication retry.id)).isNone then
      some ⟨.retryDevicePublication retry.id, batchIds retry.batch, retry.desiredVersion⟩
    else none

/-- The pending entries whose first publication is done and whose second is not. -/
def halfPublished (w : World) : List HalfEntry :=
  w.orch.configGroup.pending.filterMap (halfConfig w) ++
    w.orch.resultGroup.pending.filterMap (halfResult w) ++
    w.orch.retryGroup.pending.filterMap (halfRetry w)

/-- The marker, the version and the connections of a versioned publication. -/
def publication : OrchOp → Option (OrchKey × Nat × List String)
  | .putVersionedHashes _ marker _ version hashes => some (marker, version, hashes.map Prod.fst)
  | _ => none

/-- A publication leaves the members of the half published entries alone, as long as they are
at the version of the entry, or it is newer and covers the entry. -/
def Undisturbed (w : World) (o : OrchOp) : Prop :=
  ∀ p, publication o = some p → ∀ e ∈ halfPublished w, e.second = p.1 ∨
    (∀ id ∈ e.ids, id ∈ p.2.2 → currentVersion w.orch.appl[id]? ≠ e.version) ∨
    (e.version < p.2.1 ∧ ∀ id ∈ e.ids, id ∈ p.2.2)

instance (w : World) (o : OrchOp) : Decidable (Undisturbed w o) :=
  match h : publication o with
  | none => isTrue fun p hp => by rw [h] at hp; cases hp
  | some p => decidable_of_iff (∀ e ∈ halfPublished w, e.second = p.1 ∨
      (∀ id ∈ e.ids, id ∈ p.2.2 → currentVersion w.orch.appl[id]? ≠ e.version) ∨
      (e.version < p.2.1 ∧ ∀ id ∈ e.ids, id ∈ p.2.2))
      ⟨fun hall q hq => by rw [h] at hq; cases hq; exact hall, fun hall => hall p h⟩

/-- How the copies of the members of a half published entry fit together. -/
structure Half extends HalfEntry where
  first : OrchKey
  fits : String → Option Application → Option Application → Prop

def configHalf (event : Gnmi.ConfigEvent) (batch : DeviceCommandBatch) : Half where
  first := .applicationPublication event.eventId
  second := .deviceStatePublication event.eventId
  ids := batchIds batch
  version := event.desiredVersion
  fits id appl _ := ∃ c ∈ batch.commands, c.id = id ∧ appl = some (configApplication event c)

def resultHalf (result : ResultEvent) : Half where
  first := .resultDevicePublication result.id
  second := .resultApplicationPublication result.id
  ids := [result.resourceId]
  version := result.desiredVersion
  fits _ appl device := ∃ a next, appl = some a ∧ resultDecision result a = .publish next ∧
    device = resultDeviceHash result next a

def timeoutHalf (result : ResultEvent) (batch : DeviceCommandBatch) (metadata : TimeoutMetadata) :
    Half where
  first := .timeoutDevicePublication result.commandId
  second := .timeoutApplicationPublication result.commandId
  ids := batchIds batch
  version := metadata.desiredVersion
  fits id appl device := ∃ c ∈ batch.commands, c.id = id ∧
    isCurrent c.desiredVersion result.commandId appl = true ∧
    device = appl.map (timeoutApplication result metadata)

def retryHalf (retry : RetryEvent) (batch : DeviceCommandBatch) : Half where
  first := .retryApplicationPublication retry.id
  second := .retryDevicePublication retry.id
  ids := batchIds batch
  version := retry.desiredVersion
  fits id appl _ := ∃ c ∈ batch.commands, c.id = id ∧ isCurrentRetry retry true c appl = true ∧
    appl.map (retryApplication retry true c) = appl

inductive IsHalf (w : World) : Half → Prop
  | config {n event batch} {payload : DeviceCommandBatch} : Pending w .config n event →
      w.orch.hash (.configBatch (configCommandId event)) = some payload →
      decodeDeviceCommand payload = .ok batch →
      (w.orch.hash (.applicationPublication event.eventId)).isSome →
      w.orch.hash (.deviceStatePublication event.eventId) = none →
      (∀ c ∈ batch.commands, c.desiredVersion = event.desiredVersion) →
      IsHalf w (configHalf event batch)
  | result {n} {result : ResultEvent} : Pending w .results n result → isTimeout result = false →
      (w.orch.hash (.resultDevicePublication result.id)).isSome →
      w.orch.hash (.resultApplicationPublication result.id) = none →
      IsHalf w (resultHalf result)
  | timeout {n result batch} {metadata : TimeoutMetadata} : TimeoutRun w n result batch →
      w.orch.hash (.timeoutDevicePublication result.commandId) = some metadata →
      w.orch.hash (.timeoutApplicationPublication result.commandId) = none →
      (∀ c ∈ batch.commands, c.desiredVersion = metadata.desiredVersion) →
      IsHalf w (timeoutHalf result batch metadata)
  | retry {n} {retry : RetryEvent} {batch} : Pending w .retries n retry →
      decodeDeviceCommand retry.batch = .ok batch →
      (w.orch.hash (.retryApplicationPublication retry.id)).isSome →
      w.orch.hash (.retryDevicePublication retry.id) = none →
      (∀ c ∈ batch.commands, c.desiredVersion = retry.desiredVersion) →
      IsHalf w (retryHalf retry batch)

theorem IsHalf.mem_halfPublished {w : World} {H : Half} (h : IsHalf w H) :
    H.toHalfEntry ∈ halfPublished w := by
  unfold halfPublished
  cases h with
  | @config n event batch payload hp hprep hdec hfirst hsecond _ =>
      refine List.mem_append_left _ (List.mem_append_left _ (List.mem_filterMap.mpr ⟨n, hp.mem, ?_⟩))
      have hget : w.config.events[n]? = some event := hp.get
      simp [halfConfig, hget, hprep, hfirst, hsecond, configHalf, batchIds_decode hdec]
  | @result n result hp hplain hfirst hsecond =>
      refine List.mem_append_left _ (List.mem_append_right _ (List.mem_filterMap.mpr ⟨n, hp.mem, ?_⟩))
      have hget : w.syncd.results[n]? = some result := hp.get
      simp [halfResult, hget, hplain, hfirst, hsecond, resultHalf]
  | @timeout n result batch metadata hrun hfirst hsecond _ =>
      refine List.mem_append_left _ (List.mem_append_right _
        (List.mem_filterMap.mpr ⟨n, hrun.pending.mem, ?_⟩))
      have hget : w.syncd.results[n]? = some result := hrun.pending.get
      obtain ⟨payload, hatt, hdec⟩ := hrun.attempt
      simp [halfResult, halfTimeout, hget, hrun.timeout, hatt, hfirst, hsecond, timeoutHalf,
        batchIds_decode hdec]
  | @retry n retry batch hp hdec hfirst hsecond _ =>
      refine List.mem_append_right _ (List.mem_filterMap.mpr ⟨n, hp.mem, ?_⟩)
      have hget : w.orch.retries[n]? = some retry := hp.get
      simp [halfRetry, hget, hfirst, hsecond, retryHalf, batchIds_decode hdec]

/-- Where the copies fit, the members are at the version of the entry. -/
theorem IsHalf.version {w : World} {H : Half} (h : IsHalf w H) {id : String}
    {appl device : Option Application} (hfits : H.fits id appl device) :
    currentVersion appl = H.version := by
  cases h with
  | config _ _ _ _ _ hv =>
      obtain ⟨c, hc, -, rfl⟩ := hfits
      exact hv c hc
  | result _ _ _ _ =>
      obtain ⟨a, next, rfl, hdec, -⟩ := hfits
      exact (resultDecision_publish hdec).1.symm
  | timeout _ _ _ hv =>
      obtain ⟨c, hc, -, hcur, -⟩ := hfits
      obtain ⟨a, rfl, hav, -⟩ := isCurrent_some hcur
      exact hav.trans (hv c hc)
  | retry _ _ _ _ hv =>
      obtain ⟨c, hc, -, hcur, -⟩ := hfits
      obtain ⟨a, rfl, hav, -, -⟩ := isCurrentRetry_some hcur
      exact hav.trans (hv c hc)

/-- The group whose entry sets a first marker. -/
def markerGroup : OrchKey → OrchGroup
  | .resultDevicePublication _ | .timeoutDevicePublication _ => .results
  | .retryApplicationPublication _ => .retries
  | _ => .config

theorem IsHalf.transport {w w' : World} {H : Half} (h : IsHalf w H)
    (hp : ∀ n (event : (markerGroup H.first).Entry), Pending w (markerGroup H.first) n event →
      Pending w' (markerGroup H.first) n event)
    (hatt : ∀ c (batch : DeviceCommandBatch), w.syncd.hash (.applyAttempt c) = some batch →
      w'.syncd.hash (.applyAttempt c) = some batch)
    (hbatch : ∀ e, (w.orch.hash (.configBatch (.config e))).isSome →
      w'.orch.hash (.configBatch (.config e)) = w.orch.hash (.configBatch (.config e)))
    (hfirst : w'.orch.hash H.first = w.orch.hash H.first)
    (hsecond : w'.orch.hash H.second = w.orch.hash H.second) : IsHalf w' H := by
  cases h with
  | config hpend hprep hdec hf hs hv =>
      have hb := hbatch _ (Option.isSome_of_eq_some hprep)
      exact .config (hp _ _ hpend) (hb.trans hprep) hdec (hfirst ▸ hf) (hsecond ▸ hs) hv
  | result hpend hplain hf hs =>
      exact .result (hp _ _ hpend) hplain (hfirst ▸ hf) (hsecond ▸ hs)
  | timeout hrun hf hs hv =>
      obtain ⟨payload, ha, hdec⟩ := hrun.attempt
      exact .timeout ⟨hp _ _ hrun.pending, hrun.timeout, payload, hatt _ _ ha, hdec⟩
        (hfirst ▸ hf) (hsecond ▸ hs) hv
  | retry hpend hdec hf hs hv =>
      exact .retry (hp _ _ hpend) hdec (hfirst ▸ hf) (hsecond ▸ hs) hv

/-! ## The invariant -/

def Fits (w : World) (H : Half) : Prop :=
  ∀ id ∈ H.ids, H.fits id w.orch.appl[id]? w.orch.device[id]?

/-- All these connections have moved on to a newer version. -/
def Newer (w : World) (ids : List String) (version : Nat) : Prop :=
  ∀ id ∈ ids, version < currentVersion w.orch.appl[id]?

structure Copies (w : World) : Prop where
  behind : ∀ (id : String) (d : Application), w.orch.device[id]? = some d →
    d.desiredVersion ≤ currentVersion w.orch.appl[id]?
  dormant : ∀ c (metadata : TimeoutMetadata),
    w.orch.hash (.timeoutDevicePublication c) = some metadata →
    w.orch.hash (.timeoutApplicationPublication c) = none →
      ∃ (payload batch : DeviceCommandBatch), w.syncd.hash (.applyAttempt c) = some payload ∧
        decodeDeviceCommand payload = .ok batch ∧
        (∀ command ∈ batch.commands, command.desiredVersion = metadata.desiredVersion) ∧
        ((∃ n result, TimeoutRun w n result batch ∧ result.commandId = c) ∨
          Newer w (batchIds batch) metadata.desiredVersion)
  halves : ∀ H, IsHalf w H → Fits w H ∨ Newer w H.ids H.version
  agree : ∀ id : String, Agree w.orch.device[id]? w.orch.appl[id]? ∨
    ∃ H, IsHalf w H ∧ Fits w H ∧ id ∈ H.ids

/-- Everything above once nothing is half published. -/
theorem Copies.agree_of_idle {w : World} (h : Copies w)
    (hidle : ∀ g, (w.orch.group g).pending = []) (id : String) :
    Agree w.orch.device[id]? w.orch.appl[id]? := by
  rcases h.agree id with hagree | ⟨H, hH, -, -⟩
  · exact hagree
  · have hnone : ∀ g n (event : g.Entry), ¬Pending w g n event := by
      intro g n event hp
      have hmem := hp.mem
      rw [hidle g] at hmem
      cases hmem
    cases hH with
    | config hp _ _ _ _ _ => exact absurd hp (hnone _ _ _)
    | result hp _ _ _ => exact absurd hp (hnone _ _ _)
    | timeout hrun _ _ _ => exact absurd hrun.pending (hnone _ _ _)
    | retry hp _ _ _ _ => exact absurd hp (hnone _ _ _)

/-! ## Publications -/

theorem pending_congr {w w' : World} {g : OrchGroup} {n : Nat} {event : g.Entry}
    (hg : w'.orch.group g = w.orch.group g) (hs : w'.stream g = w.stream g) :
    Pending w' g n event ↔ Pending w g n event :=
  ⟨fun h => ⟨hg ▸ h.mem, hs ▸ h.get⟩, fun h => ⟨hg.symm ▸ h.mem, hs.symm ▸ h.get⟩⟩

section Publish

variable {w : World} {copy : Copy} {k : OrchKey} {v : OrchHash k} {version : Nat}
  {hashes : List (String × Option Application)}

theorem pending_stage {g : OrchGroup} {n : Nat} {event : g.Entry} :
    Pending (w.stage copy k v version hashes) g n event ↔ Pending w g n event :=
  pending_congr (by simp) (by simp)

theorem IsHalf.of_stage {H : Half} (h : IsHalf (w.stage copy k v version hashes) H)
    (hbatch : ∀ c, k ≠ .configBatch c) (hfirst : H.first ≠ k) : IsHalf w H := by
  have hsecond : H.second ≠ k := by
    intro heq
    have hnone : (w.stage copy k v version hashes).orch.hash H.second = none := by
      cases h <;> assumption
    rw [heq, World.stage_hash_self] at hnone
    cases hnone
  refine h.transport (fun n event hp => pending_stage.mp hp) (fun _ _ h => h) (fun e _ => ?_) ?_ ?_
  · exact (World.stage_hash_of_ne _ _ _ _ _ _ (hbatch _).symm).symm
  · exact (World.stage_hash_of_ne _ _ _ _ _ _ hfirst).symm
  · exact (World.stage_hash_of_ne _ _ _ _ _ _ hsecond).symm

theorem IsHalf.stage {H : Half} (h : IsHalf w H) (hnone : w.orch.hash k = none)
    (hbatch : ∀ c, k ≠ .configBatch c) (hsecond : H.second ≠ k) :
    IsHalf (w.stage copy k v version hashes) H := by
  have hfirst : H.first ≠ k := by
    intro heq
    have hsome : (w.orch.hash H.first).isSome := by
      cases h with
      | config _ _ _ hf _ _ => exact hf
      | result _ _ hf _ => exact hf
      | timeout _ hf _ _ => exact Option.isSome_of_eq_some hf
      | retry _ _ hf _ _ => exact hf
    rw [heq, hnone] at hsome
    cases hsome
  refine h.transport (fun n event hp => pending_stage.mpr hp) (fun _ _ h => h) (fun e _ => ?_) ?_ ?_
  · exact World.stage_hash_of_ne _ _ _ _ _ _ (hbatch _).symm
  · exact World.stage_hash_of_ne _ _ _ _ _ _ hfirst
  · exact World.stage_hash_of_ne _ _ _ _ _ _ hsecond

theorem stage_unwritten {id : String} (h : id ∉ hashes.map Prod.fst) :
    (w.stage copy k v version hashes).orch.appl[id]? = w.orch.appl[id]? ∧
      (w.stage copy k v version hashes).orch.device[id]? = w.orch.device[id]? := by
  cases copy with
  | appl => exact ⟨getElem?_putVersioned_of_notMem h, rfl⟩
  | device => exact ⟨rfl, getElem?_putVersioned_of_notMem h⟩

theorem Fits.stage {H : Half} (h : Fits w H) (hdisj : ∀ id ∈ H.ids, id ∉ hashes.map Prod.fst) :
    Fits (w.stage copy k v version hashes) H := by
  intro id hid
  have hsame : (w.stage copy k v version hashes).orch.appl[id]? = w.orch.appl[id]? ∧
      (w.stage copy k v version hashes).orch.device[id]? = w.orch.device[id]? :=
    stage_unwritten (hdisj id hid)
  rw [hsame.1, hsame.2]
  exact h id hid

theorem currentVersion_le_of_notNewer {table : Table} {id : String}
    (h : notNewer table version id) : currentVersion table[id]? ≤ version := by
  cases hfound : table[id]? with
  | none => exact Nat.zero_le _
  | some existing => exact h existing hfound

/-- No application becomes older by a publication that leaves its members at its version. -/
theorem currentVersion_stage
    (hsame : ∀ id ∈ hashes.map Prod.fst,
      version ≤ currentVersion (w.stage copy k v version hashes).orch.appl[id]?) (id : String) :
    currentVersion w.orch.appl[id]? ≤
      currentVersion (w.stage copy k v version hashes).orch.appl[id]? := by
  cases copy with
  | device => exact Nat.le_refl _
  | appl =>
      rcases getElem?_putVersioned_cases w.orch.appl version hashes id with heq | ⟨hash, hm, hle, -⟩
      · rw [World.stage_appl_appl, heq]
      · refine Nat.le_trans (currentVersion_le_of_notNewer hle) (hsame id ?_)
        exact List.mem_map.mpr ⟨(id, hash), hm, rfl⟩

/-- A publication of one entry, seen from all the others. -/
theorem Copies.publish (h : Copies w)
    (hcond : Undisturbed w (.putVersionedHashes copy k v version hashes))
    (hnone : w.orch.hash k = none) (hbatch : ∀ c, k ≠ .configBatch c)
    (hsame : ∀ id ∈ hashes.map Prod.fst,
      version ≤ currentVersion (w.stage copy k v version hashes).orch.appl[id]?)
    (hown : ∀ id ∈ hashes.map Prod.fst,
      Agree (w.stage copy k v version hashes).orch.device[id]?
          (w.stage copy k v version hashes).orch.appl[id]? ∨
        ∃ H, IsHalf (w.stage copy k v version hashes) H ∧
          Fits (w.stage copy k v version hashes) H ∧ id ∈ H.ids)
    (hnew : ∀ H, IsHalf (w.stage copy k v version hashes) H → H.first = k →
      Fits (w.stage copy k v version hashes) H)
    (hsecond : ∀ H, IsHalf w H → H.second = k → ∀ id ∈ H.ids, id ∈ hashes.map Prod.fst)
    (hbehind : ∀ id ∈ hashes.map Prod.fst, ∀ d : Application,
      (w.stage copy k v version hashes).orch.device[id]? = some d →
        d.desiredVersion ≤ currentVersion (w.stage copy k v version hashes).orch.appl[id]?)
    (hdormant : ∀ c (metadata : TimeoutMetadata), k = .timeoutDevicePublication c →
      (w.stage copy k v version hashes).orch.hash (.timeoutDevicePublication c) = some metadata →
      ∃ n result batch, TimeoutRun w n result batch ∧ result.commandId = c ∧
        ∀ command ∈ batch.commands, command.desiredVersion = metadata.desiredVersion) :
    Copies (w.stage copy k v version hashes) := by
  have hmono := currentVersion_stage hsame
  have hnewer : ∀ ids version', Newer w ids version' →
      Newer (w.stage copy k v version hashes) ids version' :=
    fun ids version' hN id hid => Nat.lt_of_lt_of_le (hN id hid) (hmono id)
  -- another half published entry is not touched, or overtaken as a whole
  have hothers : ∀ H, IsHalf w H → H.second ≠ k → Fits w H →
      (∀ id ∈ H.ids, id ∉ hashes.map Prod.fst) ∨
        ((∀ id ∈ H.ids, id ∈ hashes.map Prod.fst) ∧
          Newer (w.stage copy k v version hashes) H.ids H.version) := by
    intro H hH hs hfits
    rcases hcond _ rfl _ hH.mem_halfPublished with heq | hdisj | ⟨hlt, hcover⟩
    · exact absurd heq hs
    · exact .inl fun id hid hmem => hdisj id hid hmem (hH.version (hfits id hid))
    · exact .inr ⟨hcover, fun id hid => Nat.lt_of_lt_of_le hlt (hsame id (hcover id hid))⟩
  refine ⟨?_, ?_, ?_, ?_⟩
  · intro id d hd
    by_cases hmem : id ∈ hashes.map Prod.fst
    · exact hbehind id hmem d hd
    · obtain ⟨happl, hdevice⟩ : (w.stage copy k v version hashes).orch.appl[id]? =
          w.orch.appl[id]? ∧ (w.stage copy k v version hashes).orch.device[id]? =
          w.orch.device[id]? := stage_unwritten hmem
      rw [hdevice] at hd
      rw [happl]
      exact h.behind id d hd
  · intro c metadata hfirst hsec
    by_cases hk : k = .timeoutDevicePublication c
    · obtain ⟨n, result, batch, hrun, hc, hv⟩ := hdormant c metadata hk hfirst
      obtain ⟨payload, hatt, hdec⟩ := hrun.attempt
      rw [hc] at hatt
      exact ⟨payload, batch, hatt, hdec, hv, .inl ⟨n, result, hrun.stage, hc⟩⟩
    · rw [World.stage_hash_of_ne _ _ _ _ _ _ (Ne.symm hk)] at hfirst
      have hk' : k ≠ .timeoutApplicationPublication c := by
        rintro rfl
        rw [World.stage_hash_self] at hsec
        cases hsec
      rw [World.stage_hash_of_ne _ _ _ _ _ _ hk'.symm] at hsec
      obtain ⟨payload, batch, hatt, hdec, hv, hcase⟩ := h.dormant c metadata hfirst hsec
      refine ⟨payload, batch, hatt, hdec, hv, hcase.imp ?_ (hnewer _ _)⟩
      exact fun ⟨n, result, hrun, hc⟩ => ⟨n, result, hrun.stage, hc⟩
  · intro H hH
    by_cases hfirst : H.first = k
    · exact .inl (hnew H hH hfirst)
    · have hold := hH.of_stage hbatch hfirst
      have hs : H.second ≠ k := by
        intro heq
        have hnone' : (w.stage copy k v version hashes).orch.hash H.second = none := by
          cases hH <;> assumption
        rw [heq, World.stage_hash_self] at hnone'
        cases hnone'
      rcases h.halves H hold with hfits | hN
      · rcases hothers H hold hs hfits with hdisj | ⟨-, hN⟩
        · exact .inl (hfits.stage hdisj)
        · exact .inr hN
      · exact .inr (hnewer _ _ hN)
  · intro id
    by_cases hmem : id ∈ hashes.map Prod.fst
    · exact hown id hmem
    · obtain ⟨happl, hdevice⟩ : (w.stage copy k v version hashes).orch.appl[id]? =
          w.orch.appl[id]? ∧ (w.stage copy k v version hashes).orch.device[id]? =
          w.orch.device[id]? := stage_unwritten hmem
      rcases h.agree id with hagree | ⟨H, hH, hfits, hid⟩
      · exact .inl (by rw [happl, hdevice]; exact hagree)
      · have hs : H.second ≠ k := fun heq => hmem (hsecond H hH heq id hid)
        rcases hothers H hH hs hfits with hdisj | ⟨hcover, -⟩
        · exact .inr ⟨H, hH.stage hnone hbatch hs, hfits.stage hdisj, hid⟩
        · exact absurd (hcover id hid) hmem

end Publish

/-! ### Configuration events -/

theorem fst_configHashes (event : Gnmi.ConfigEvent) (batch : DeviceCommandBatch) :
    (configHashes event batch.commands).map Prod.fst = batchIds batch := by
  simp [configHashes, batchIds, Function.comp_def]

theorem getElem?_configHashes {table : Table} {event : Gnmi.ConfigEvent} {batch : DeviceCommandBatch}
    (hnd : (batchIds batch).Nodup) {c : ConnectionCommand} (hc : c ∈ batch.commands)
    (hle : notNewer table event.desiredVersion c.id) :
    (putVersioned table event.desiredVersion (configHashes event batch.commands))[c.id]? =
      some (configApplication event c) := by
  refine getElem?_putVersioned_of_mem ?_ (List.mem_map.mpr ⟨c, hc, rfl⟩) hle
  rw [fst_configHashes]
  exact hnd

theorem command_of_id {batch : DeviceCommandBatch} (hnd : (batchIds batch).Nodup)
    {c c' : ConnectionCommand} (hc : c ∈ batch.commands) (hc' : c' ∈ batch.commands)
    (hid : c.id = c'.id) : c = c' := List.inj_on_of_nodup_map hnd hc hc' hid

section Config

variable {w : World} {n : Nat} {event : Gnmi.ConfigEvent} {batch : DeviceCommandBatch}

/-- The half published entry of a configuration event is its own. -/
theorem configHalf_own (ht : Tidy w) (hrun : ConfigRun w n event batch) {H : Half}
    (hH : IsHalf w H)
    (hkey : H.first = .applicationPublication event.eventId ∨
      H.second = .deviceStatePublication event.eventId) : H = configHalf event batch := by
  cases hH with
  | config hp hprep hdec _ _ _ =>
      have hevent := ht.unique hrun.pending hp
      subst hevent
      obtain ⟨payload, hprep', hdec'⟩ := hrun.prepared
      rw [hprep] at hprep'
      cases hprep'
      rw [hdec] at hdec'
      cases hdec'
      rfl
  | result _ _ _ _ => rcases hkey with hkey | hkey <;> cases hkey
  | timeout _ _ _ _ => rcases hkey with hkey | hkey <;> cases hkey
  | retry _ _ _ _ _ => rcases hkey with hkey | hkey <;> cases hkey

theorem Copies.stageApplication (h : Copies w) (ho : Orderly w) (ht : Tidy w)
    (hrun : ConfigRun w n event batch)
    (hnone : w.orch.hash (.applicationPublication event.eventId) = none)
    (hv : ∀ c ∈ batch.commands, c.desiredVersion = event.desiredVersion)
    (hcond : Undisturbed w (.putVersionedHashes .appl (.applicationPublication event.eventId) ()
      event.desiredVersion (configHashes event batch.commands))) :
    Copies (w.stage .appl (.applicationPublication event.eventId) () event.desiredVersion
      (configHashes event batch.commands)) := by
  have hnd := hrun.nodup ht
  obtain ⟨hev, hdel, -⟩ := ht.version hrun.pending
  have hput : ∀ c ∈ batch.commands, (w.stage .appl (.applicationPublication event.eventId) ()
      event.desiredVersion (configHashes event batch.commands)).orch.appl[c.id]? =
        some (configApplication event c) := by
    intro c hc
    refine getElem?_configHashes hnd hc fun existing hex => ?_
    have hclock := ht.clock _ _ hex
    omega
  have hput' : ∀ id ∈ batchIds batch, ∃ c ∈ batch.commands, c.id = id ∧
      (w.stage .appl (.applicationPublication event.eventId) () event.desiredVersion
        (configHashes event batch.commands)).orch.appl[id]? = some (configApplication event c) := by
    intro id hid
    obtain ⟨c, hc, rfl⟩ := List.mem_map.mp hid
    exact ⟨c, hc, rfl, hput c hc⟩
  have hdevice : w.orch.hash (.deviceStatePublication event.eventId) = none := by
    by_contra hsome
    have hset := ho.application event.eventId (Option.isSome_iff_ne_none.mpr hsome)
    rw [hnone] at hset
    cases hset
  have hfits : Fits (w.stage .appl (.applicationPublication event.eventId) () event.desiredVersion
      (configHashes event batch.commands)) (configHalf event batch) := hput'
  have htidy : Tidy (w.stage .appl (.applicationPublication event.eventId) () event.desiredVersion
      (configHashes event batch.commands)) := by
    refine ht.staged trivial fun _ entry hentry a ha => ?_
    rw [configHashes_version hv entry hentry a ha]
    omega
  have hversion : ∀ id ∈ (configHashes event batch.commands).map Prod.fst,
      event.desiredVersion ≤ currentVersion (w.stage .appl (.applicationPublication event.eventId) ()
        event.desiredVersion (configHashes event batch.commands)).orch.appl[id]? := by
    intro id hid
    rw [fst_configHashes] at hid
    obtain ⟨c, hc, -, heq⟩ := hput' id hid
    rw [heq]
    exact Nat.le_of_eq (hv c hc).symm
  refine h.publish hcond hnone (by simp) hversion ?_ ?_ ?_ ?_ (by simp)
  · intro id hid
    rw [fst_configHashes] at hid
    obtain ⟨payload, hprep, hdec⟩ := hrun.prepared
    refine .inr ⟨configHalf event batch, ?_, hfits, hid⟩
    refine .config (pending_stage.mpr hrun.pending) ?_ hdec (by simp) ?_ hv
    · rw [World.stage_hash_of_ne _ _ _ _ _ _ (by simp)]; exact hprep
    · rw [World.stage_hash_of_ne _ _ _ _ _ _ (by simp)]; exact hdevice
  · intro H hH hfirst
    rw [configHalf_own htidy (hrun.stage (by simp) (by simp)) hH (.inl hfirst)]
    exact hfits
  · intro H hH hsecond
    cases hH <;> cases hsecond
  · intro id hid d hd
    refine Nat.le_trans (h.behind id d hd) ?_
    exact currentVersion_stage hversion id

theorem Copies.stageDevice (h : Copies w) (ht : Tidy w) (hrun : ConfigRun w n event batch)
    (happl : (w.orch.hash (.applicationPublication event.eventId)).isSome)
    (hnone : w.orch.hash (.deviceStatePublication event.eventId) = none)
    (hv : ∀ c ∈ batch.commands, c.desiredVersion = event.desiredVersion)
    (hcond : Undisturbed w (.putVersionedHashes .device (.deviceStatePublication event.eventId) ()
      event.desiredVersion (configHashes event batch.commands))) :
    Copies (w.stage .device (.deviceStatePublication event.eventId) () event.desiredVersion
      (configHashes event batch.commands)) := by
  have hnd := hrun.nodup ht
  obtain ⟨hev, hdel, -⟩ := ht.version hrun.pending
  obtain ⟨payload, hprep, hdec⟩ := hrun.prepared
  have hhalf : IsHalf w (configHalf event batch) :=
    .config hrun.pending hprep hdec happl hnone hv
  -- nothing is newer than the pending event, so its applications still stand
  have hfits : Fits w (configHalf event batch) := by
    rcases h.halves _ hhalf with hfits | hN
    · exact hfits
    · intro id hid
      have hlt := hN id hid
      cases hfound : w.orch.appl[id]? with
      | none => rw [hfound] at hlt; cases hlt
      | some a =>
          rw [hfound] at hlt
          have hclock := ht.clock id a hfound
          have hlt' : event.desiredVersion < a.desiredVersion := hlt
          omega
  have happl' : ∀ c ∈ batch.commands, w.orch.appl[c.id]? = some (configApplication event c) := by
    intro c hc
    obtain ⟨c', hc', hid, heq⟩ := hfits c.id (List.mem_map.mpr ⟨c, hc, rfl⟩)
    rw [heq, command_of_id hnd hc' hc hid]
  have hput : ∀ c ∈ batch.commands, (w.stage .device (.deviceStatePublication event.eventId) ()
      event.desiredVersion (configHashes event batch.commands)).orch.device[c.id]? =
        some (configApplication event c) := by
    intro c hc
    refine getElem?_configHashes hnd hc fun existing hex => ?_
    have hb := h.behind _ _ hex
    rw [happl' c hc] at hb
    exact Nat.le_trans hb (Nat.le_of_eq (hv c hc))
  refine h.publish hcond hnone (by simp) ?_ ?_ ?_ ?_ ?_ (by simp)
  · intro id hid
    rw [fst_configHashes] at hid
    obtain ⟨c, hc, rfl⟩ := List.mem_map.mp hid
    rw [World.stage_device_appl, happl' c hc]
    exact Nat.le_of_eq (hv c hc).symm
  · intro id hid
    rw [fst_configHashes] at hid
    obtain ⟨c, hc, rfl⟩ := List.mem_map.mp hid
    rw [hput c hc, World.stage_device_appl, happl' c hc]
    exact .inl (.inl rfl)
  · intro H hH hfirst
    cases hH <;> cases hfirst
  · intro H hH hsecond
    rw [configHalf_own ht hrun hH (.inr hsecond), fst_configHashes]
    exact fun id hid => hid
  · intro id hid d hd
    rw [fst_configHashes] at hid
    obtain ⟨c, hc, rfl⟩ := List.mem_map.mp hid
    rw [hput c hc] at hd
    cases hd
    rw [World.stage_device_appl, happl' c hc]
    exact Nat.le_refl _

end Config

/-! ### Device results -/

section Results

variable {w : World} {n : Nat} {result : ResultEvent} {application : Application}
  {next : ConnectionApplyStatus}

theorem resultHalf_own (ht : Tidy w) (hp : Pending w .results n result) {H : Half}
    (hH : IsHalf w H)
    (hkey : H.first = .resultDevicePublication result.id ∨
      H.second = .resultApplicationPublication result.id) : H = resultHalf result := by
  cases hH with
  | config _ _ _ _ _ _ => rcases hkey with hkey | hkey <;> cases hkey
  | result hp' _ _ _ => rw [ht.unique hp hp']
  | timeout _ _ _ _ => rcases hkey with hkey | hkey <;> cases hkey
  | retry _ _ _ _ _ => rcases hkey with hkey | hkey <;> cases hkey

theorem getElem?_putVersioned_singleton {table : Table} {version : Nat} {id : String}
    {hash : Option Application} (hle : notNewer table version id) :
    (putVersioned table version [(id, hash)])[id]? = hash :=
  getElem?_putVersioned_of_mem (by simp) (by simp) hle

theorem resultApplication_status :
    (resultApplication result next application).applyStatus = next := by
  unfold resultApplication
  dsimp only
  split_ifs <;> rfl

theorem Copies.resultDevice (h : Copies w) (ht : Tidy w)
    (hrun : ResultRun w n result application next)
    (hnone : w.orch.hash (.resultDevicePublication result.id) = none)
    (happl : w.orch.hash (.resultApplicationPublication result.id) = none)
    (hcond : Undisturbed w (.putVersionedHashes .device (.resultDevicePublication result.id) ()
      result.desiredVersion [(result.resourceId, resultDeviceHash result next application)])) :
    Copies (w.stage .device (.resultDevicePublication result.id) () result.desiredVersion
      [(result.resourceId, resultDeviceHash result next application)]) := by
  obtain ⟨hversion, -, -, -, -⟩ := resultDecision_publish hrun.decided
  have hput : (w.stage .device (.resultDevicePublication result.id) () result.desiredVersion
      [(result.resourceId, resultDeviceHash result next application)]).orch.device[result.resourceId]? =
        resultDeviceHash result next application := by
    refine getElem?_putVersioned_singleton fun existing hex => ?_
    have hb := h.behind _ _ hex
    rw [hrun.found] at hb
    exact Nat.le_trans hb (Nat.le_of_eq hversion.symm)
  have hfits : Fits (w.stage .device (.resultDevicePublication result.id) () result.desiredVersion
      [(result.resourceId, resultDeviceHash result next application)]) (resultHalf result) := by
    intro id hid
    cases List.mem_singleton.mp hid
    exact ⟨application, next, hrun.found, hrun.decided, hput⟩
  have haction : Action {} w _ _ := .resultDevice hrun hnone happl
  have htidy := ht.action haction
  have hpend : Pending (w.stage .device (.resultDevicePublication result.id) ()
      result.desiredVersion [(result.resourceId, resultDeviceHash result next application)])
      .results n result := pending_stage.mpr hrun.pending
  refine h.publish hcond hnone (by simp) ?_ ?_ ?_ ?_ ?_ (by simp)
  · intro id hid
    cases List.mem_singleton.mp hid
    rw [World.stage_device_appl, hrun.found]
    exact Nat.le_of_eq hversion
  · intro id hid
    refine .inr ⟨resultHalf result, .result hpend hrun.plain (by simp) ?_, hfits, hid⟩
    rw [World.stage_hash_of_ne _ _ _ _ _ _ (by simp)]
    exact happl
  · intro H hH hfirst
    rw [resultHalf_own htidy hpend hH (.inl hfirst)]
    exact hfits
  · intro H hH hsecond
    cases hH <;> cases hsecond
  · intro id hid d hd
    cases List.mem_singleton.mp hid
    rw [hput, resultDeviceHash] at hd
    split_ifs at hd
    cases hd
    rw [World.stage_device_appl, hrun.found, resultApplication_version]
    exact Nat.le_refl _

theorem Copies.resultApplication (h : Copies w) (ht : Tidy w)
    (hrun : ResultRun w n result application next)
    (hdevice : (w.orch.hash (.resultDevicePublication result.id)).isSome)
    (hnone : w.orch.hash (.resultApplicationPublication result.id) = none)
    (hcond : Undisturbed w (.putVersionedHashes .appl (.resultApplicationPublication result.id) ()
      result.desiredVersion [(result.resourceId, some (Orch.resultApplication result next application))])) :
    Copies (w.stage .appl (.resultApplicationPublication result.id) () result.desiredVersion
      [(result.resourceId, some (Orch.resultApplication result next application))]) := by
  obtain ⟨hversion, -, -, -, -⟩ := resultDecision_publish hrun.decided
  have hput : (w.stage .appl (.resultApplicationPublication result.id) () result.desiredVersion
      [(result.resourceId, some (Orch.resultApplication result next application))]).orch.appl[
        result.resourceId]? = some (Orch.resultApplication result next application) := by
    refine getElem?_putVersioned_singleton fun existing hex => ?_
    have hsome : some application = some existing := hrun.found.symm.trans hex
    cases hsome
    exact Nat.le_of_eq hversion.symm
  have hfits : w.orch.device[result.resourceId]? = resultDeviceHash result next application := by
    have hhalf : IsHalf w (resultHalf result) := .result hrun.pending hrun.plain hdevice hnone
    rcases h.halves _ hhalf with hfits | hN
    · obtain ⟨a, next', ha, hdec, heq⟩ := hfits result.resourceId (List.mem_singleton.mpr rfl)
      rw [hrun.found] at ha
      cases ha
      rw [hrun.decided] at hdec
      cases hdec
      exact heq
    · have hlt := hN result.resourceId (List.mem_singleton.mpr rfl)
      rw [hrun.found] at hlt
      exact absurd hversion (Nat.ne_of_lt hlt)
  refine h.publish hcond hnone (by simp) ?_ ?_ ?_ ?_ ?_ (by simp)
  · intro id hid
    cases List.mem_singleton.mp hid
    rw [hput]
    exact Nat.le_of_eq (by rw [hversion]; exact (resultApplication_version _ _ _).symm)
  · intro id hid
    cases List.mem_singleton.mp hid
    rw [hput, World.stage_appl_device, hfits, resultDeviceHash]
    split_ifs with hnext
    · refine .inl (.inr ⟨rfl, fun a ha => ?_⟩)
      cases ha
      rw [resultApplication_status, hnext]
    · exact .inl (.inl rfl)
  · intro H hH hfirst
    cases hH <;> cases hfirst
  · intro H hH hsecond
    rw [resultHalf_own ht hrun.pending hH (.inr hsecond)]
    exact fun id hid => hid
  · intro id hid d hd
    cases List.mem_singleton.mp hid
    refine Nat.le_trans (h.behind _ d hd) ?_
    rw [hput, hrun.found]
    exact Nat.le_of_eq (resultApplication_version _ _ _).symm

end Results

/-! ### Timeouts -/

section Timeouts

variable {w : World} {n : Nat} {result : ResultEvent} {batch : DeviceCommandBatch}
  {metadata : TimeoutMetadata}

theorem timeoutHalf_own (ht : Tidy w) (hrun : TimeoutRun w n result batch)
    (hdevice : w.orch.hash (.timeoutDevicePublication result.commandId) = some metadata) {H : Half}
    (hH : IsHalf w H)
    (hkey : H.first = .timeoutDevicePublication result.commandId ∨
      H.second = .timeoutApplicationPublication result.commandId) :
    H = timeoutHalf result batch metadata := by
  cases hH with
  | config _ _ _ _ _ _ => rcases hkey with hkey | hkey <;> cases hkey
  | result _ _ _ _ => rcases hkey with hkey | hkey <;> cases hkey
  | timeout hrun' hdevice' _ _ =>
      have hresult := ht.unique hrun.pending hrun'.pending
      subst hresult
      obtain ⟨payload, hatt, hdec⟩ := hrun.attempt
      obtain ⟨payload', hatt', hdec'⟩ := hrun'.attempt
      rw [hatt] at hatt'
      cases hatt'
      rw [hdec] at hdec'
      cases hdec'
      rw [hdevice] at hdevice'
      cases hdevice'
      rfl
  | retry _ _ _ _ _ => rcases hkey with hkey | hkey <;> cases hkey

theorem Copies.timeoutDevice (h : Copies w) (ho : Orderly w) (ht : Tidy w)
    (hrun : TimeoutRun w n result batch) (hcur : AllCurrent w result batch)
    (hnone : w.orch.hash (.timeoutDevicePublication result.commandId) = none)
    (happl : w.orch.hash (.timeoutApplicationPublication result.commandId) = none)
    (hv : ∀ c ∈ batch.commands, c.desiredVersion = metadata.desiredVersion)
    (hcond : Undisturbed w (.putVersionedHashes .device
      (.timeoutDevicePublication result.commandId) metadata metadata.desiredVersion
      (timeoutHashes w.orch.appl result metadata batch.commands))) :
    Copies (w.stage .device (.timeoutDevicePublication result.commandId) metadata
      metadata.desiredVersion (timeoutHashes w.orch.appl result metadata batch.commands)) := by
  have hnd := hrun.nodup ho
  have hversion : ∀ c ∈ batch.commands, currentVersion w.orch.appl[c.id]? = metadata.desiredVersion := by
    intro c hc
    obtain ⟨a, ha, hav, -⟩ := isCurrent_some (hcur c hc)
    rw [ha]
    exact hav.trans (hv c hc)
  have hput : ∀ c ∈ batch.commands, (w.stage .device (.timeoutDevicePublication result.commandId)
      metadata metadata.desiredVersion
      (timeoutHashes w.orch.appl result metadata batch.commands)).orch.device[c.id]? =
        (w.orch.appl[c.id]?).map (timeoutApplication result metadata) := by
    intro c hc
    refine getElem?_putVersioned_of_mem ?_ (List.mem_map.mpr ⟨c, hc, rfl⟩) fun existing hex => ?_
    · rw [fst_timeoutHashes]; exact hnd
    · rw [← hversion c hc]
      exact h.behind _ _ hex
  have hfits : Fits (w.stage .device (.timeoutDevicePublication result.commandId) metadata
      metadata.desiredVersion (timeoutHashes w.orch.appl result metadata batch.commands))
      (timeoutHalf result batch metadata) := by
    intro id hid
    obtain ⟨c, hc, rfl⟩ := List.mem_map.mp hid
    exact ⟨c, hc, rfl, hcur c hc, hput c hc⟩
  have hself : (w.stage .device (.timeoutDevicePublication result.commandId) metadata
      metadata.desiredVersion (timeoutHashes w.orch.appl result metadata batch.commands)).orch.hash
        (.timeoutDevicePublication result.commandId) = some metadata := by simp
  have htidy : Tidy (w.stage .device (.timeoutDevicePublication result.commandId) metadata
      metadata.desiredVersion (timeoutHashes w.orch.appl result metadata batch.commands)) :=
    ht.staged trivial fun hcopy => by cases hcopy
  refine h.publish hcond hnone (by simp) ?_ ?_ ?_ ?_ ?_ ?_
  · intro id hid
    rw [fst_timeoutHashes] at hid
    obtain ⟨c, hc, rfl⟩ := List.mem_map.mp hid
    exact Nat.le_of_eq (hversion c hc).symm
  · intro id hid
    rw [fst_timeoutHashes] at hid
    refine .inr ⟨timeoutHalf result batch metadata, .timeout hrun.stage hself ?_ hv, hfits, hid⟩
    rw [World.stage_hash_of_ne _ _ _ _ _ _ (by simp)]
    exact happl
  · intro H hH hfirst
    rw [timeoutHalf_own htidy hrun.stage hself hH (.inl hfirst)]
    exact hfits
  · intro H hH hsecond
    cases hH <;> cases hsecond
  · intro id hid d hd
    rw [fst_timeoutHashes] at hid
    obtain ⟨c, hc, rfl⟩ := List.mem_map.mp hid
    rw [hput c hc] at hd
    obtain ⟨a, ha, rfl⟩ := Option.map_eq_some_iff.mp hd
    rw [World.stage_device_appl, ha]
    exact Nat.le_refl _
  · intro c metadata' hk hset
    cases hk
    rw [hself] at hset
    cases hset
    exact ⟨n, result, batch, hrun, rfl, hv⟩

theorem Copies.timeoutApplication (h : Copies w) (ho : Orderly w) (ht : Tidy w)
    (hrun : TimeoutRun w n result batch) (hcur : AllCurrent w result batch)
    (hdevice : w.orch.hash (.timeoutDevicePublication result.commandId) = some metadata)
    (hnone : w.orch.hash (.timeoutApplicationPublication result.commandId) = none)
    (hv : ∀ c ∈ batch.commands, c.desiredVersion = metadata.desiredVersion)
    (hcond : Undisturbed w (.putVersionedHashes .appl
      (.timeoutApplicationPublication result.commandId) metadata metadata.desiredVersion
      (timeoutHashes w.orch.appl result metadata batch.commands))) :
    Copies (w.stage .appl (.timeoutApplicationPublication result.commandId) metadata
      metadata.desiredVersion (timeoutHashes w.orch.appl result metadata batch.commands)) := by
  have hnd := hrun.nodup ho
  have hversion : ∀ c ∈ batch.commands, currentVersion w.orch.appl[c.id]? = metadata.desiredVersion := by
    intro c hc
    obtain ⟨a, ha, hav, -⟩ := isCurrent_some (hcur c hc)
    rw [ha]
    exact hav.trans (hv c hc)
  have hput : ∀ c ∈ batch.commands, (w.stage .appl (.timeoutApplicationPublication result.commandId)
      metadata metadata.desiredVersion
      (timeoutHashes w.orch.appl result metadata batch.commands)).orch.appl[c.id]? =
        (w.orch.appl[c.id]?).map (Orch.timeoutApplication result metadata) :=
    fun c hc => getElem?_timeoutHashes hnd hcur hv hc
  have hput' : ∀ c ∈ batch.commands, currentVersion (w.stage .appl
      (.timeoutApplicationPublication result.commandId) metadata metadata.desiredVersion
      (timeoutHashes w.orch.appl result metadata batch.commands)).orch.appl[c.id]? =
        currentVersion w.orch.appl[c.id]? := by
    intro c hc
    rw [hput c hc]
    cases w.orch.appl[c.id]? <;> rfl
  have hfits : ∀ c ∈ batch.commands, w.orch.device[c.id]? =
      (w.orch.appl[c.id]?).map (Orch.timeoutApplication result metadata) := by
    intro c hc
    have hmem : c.id ∈ batchIds batch := List.mem_map.mpr ⟨c, hc, rfl⟩
    rcases h.halves _ (.timeout hrun hdevice hnone hv) with hfits | hN
    · obtain ⟨-, -, -, -, heq⟩ := hfits c.id hmem
      exact heq
    · exact absurd (hversion c hc).symm (Nat.ne_of_lt (hN c.id hmem))
  refine h.publish hcond hnone (by simp) ?_ ?_ ?_ ?_ ?_ (by simp)
  · intro id hid
    rw [fst_timeoutHashes] at hid
    obtain ⟨c, hc, rfl⟩ := List.mem_map.mp hid
    rw [hput' c hc, hversion c hc]
  · intro id hid
    rw [fst_timeoutHashes] at hid
    obtain ⟨c, hc, rfl⟩ := List.mem_map.mp hid
    rw [hput c hc, World.stage_appl_device, hfits c hc]
    exact .inl (.inl rfl)
  · intro H hH hfirst
    cases hH <;> cases hfirst
  · intro H hH hsecond
    rw [timeoutHalf_own ht hrun hdevice hH (.inr hsecond), fst_timeoutHashes]
    exact fun id hid => hid
  · intro id hid d hd
    rw [fst_timeoutHashes] at hid
    obtain ⟨c, hc, rfl⟩ := List.mem_map.mp hid
    rw [hput' c hc]
    exact h.behind _ d hd

end Timeouts

/-! ### Retries -/

section Retries

variable {w : World} {n : Nat} {retry : RetryEvent} {batch : DeviceCommandBatch}

theorem retryHalf_own (ht : Tidy w) (hrun : RetryRun w n retry batch) {H : Half} (hH : IsHalf w H)
    (hkey : H.first = .retryApplicationPublication retry.id ∨
      H.second = .retryDevicePublication retry.id) : H = retryHalf retry batch := by
  cases hH with
  | config _ _ _ _ _ _ => rcases hkey with hkey | hkey <;> cases hkey
  | result _ _ _ _ => rcases hkey with hkey | hkey <;> cases hkey
  | timeout _ _ _ _ => rcases hkey with hkey | hkey <;> cases hkey
  | retry hp hdec _ _ _ =>
      have hretry := ht.unique hrun.pending hp
      subst hretry
      have hdec' := hrun.decoded
      rw [hdec] at hdec'
      cases hdec'
      rfl

theorem Copies.retryApplication (h : Copies w) (ho : Orderly w) (ht : Tidy w)
    (hrun : RetryRun w n retry batch) (hcur : RetryCurrent w retry false batch)
    (hnone : w.orch.hash (.retryApplicationPublication retry.id) = none)
    (hdevice : w.orch.hash (.retryDevicePublication retry.id) = none)
    (hv : ∀ c ∈ batch.commands, c.desiredVersion = retry.desiredVersion)
    (hcond : Undisturbed w (.putVersionedHashes .appl (.retryApplicationPublication retry.id) ()
      retry.desiredVersion (retryHashes w.orch.appl retry false batch.commands))) :
    Copies (w.stage .appl (.retryApplicationPublication retry.id) () retry.desiredVersion
      (retryHashes w.orch.appl retry false batch.commands)) := by
  have hnd := hrun.nodup ho
  have hput : ∀ c ∈ batch.commands, (w.stage .appl (.retryApplicationPublication retry.id) ()
      retry.desiredVersion (retryHashes w.orch.appl retry false batch.commands)).orch.appl[c.id]? =
        (w.orch.appl[c.id]?).map (Orch.retryApplication retry false c) :=
    fun c hc => getElem?_retryHashes hnd hcur hv hc
  have hput' : ∀ c ∈ batch.commands, currentVersion (w.stage .appl
      (.retryApplicationPublication retry.id) () retry.desiredVersion
      (retryHashes w.orch.appl retry false batch.commands)).orch.appl[c.id]? =
        currentVersion w.orch.appl[c.id]? := by
    intro c hc
    rw [hput c hc]
    cases w.orch.appl[c.id]? <;> rfl
  have hfits : Fits (w.stage .appl (.retryApplicationPublication retry.id) () retry.desiredVersion
      (retryHashes w.orch.appl retry false batch.commands)) (retryHalf retry batch) := by
    intro id hid
    obtain ⟨c, hc, rfl⟩ := List.mem_map.mp hid
    refine ⟨c, hc, rfl, retryCurrent_again hnd hcur hv hc, ?_⟩
    rw [hput c hc]
    cases w.orch.appl[c.id]? <;> rfl
  have haction : Action {} w _ _ := .retryApplication hrun hcur hnone hdevice hv
  have htidy := ht.action haction
  have hrun' : RetryRun (w.stage .appl (.retryApplicationPublication retry.id) ()
      retry.desiredVersion (retryHashes w.orch.appl retry false batch.commands)) n retry batch :=
    hrun.stage (by simp)
  refine h.publish hcond hnone (by simp) ?_ ?_ ?_ ?_ ?_ (by simp)
  · intro id hid
    rw [fst_retryHashes] at hid
    obtain ⟨c, hc, rfl⟩ := List.mem_map.mp hid
    obtain ⟨a, ha, hav, -, -⟩ := isCurrentRetry_some (hcur c hc)
    rw [hput' c hc, ha, ← hv c hc]
    exact Nat.le_of_eq hav.symm
  · intro id hid
    rw [fst_retryHashes] at hid
    refine .inr ⟨retryHalf retry batch, .retry hrun'.pending hrun'.decoded (by simp) ?_ hv,
      hfits, hid⟩
    rw [World.stage_hash_of_ne _ _ _ _ _ _ (by simp)]
    exact hdevice
  · intro H hH hfirst
    rw [retryHalf_own htidy hrun' hH (.inl hfirst)]
    exact hfits
  · intro H hH hsecond
    cases hH <;> cases hsecond
  · intro id hid d hd
    rw [fst_retryHashes] at hid
    obtain ⟨c, hc, rfl⟩ := List.mem_map.mp hid
    rw [hput' c hc]
    exact h.behind _ d hd

theorem Copies.retryDevice (h : Copies w) (ho : Orderly w) (ht : Tidy w)
    (hrun : RetryRun w n retry batch) (hcur : RetryCurrent w retry true batch)
    (happl : (w.orch.hash (.retryApplicationPublication retry.id)).isSome)
    (hnone : w.orch.hash (.retryDevicePublication retry.id) = none)
    (hv : ∀ c ∈ batch.commands, c.desiredVersion = retry.desiredVersion)
    (hcond : Undisturbed w (.putVersionedHashes .device (.retryDevicePublication retry.id) ()
      retry.desiredVersion (retryHashes w.orch.appl retry true batch.commands))) :
    Copies (w.stage .device (.retryDevicePublication retry.id) () retry.desiredVersion
      (retryHashes w.orch.appl retry true batch.commands)) := by
  have hnd := hrun.nodup ho
  have hversion : ∀ c ∈ batch.commands, currentVersion w.orch.appl[c.id]? = retry.desiredVersion := by
    intro c hc
    obtain ⟨a, ha, hav, -, -⟩ := isCurrentRetry_some (hcur c hc)
    rw [ha]
    exact hav.trans (hv c hc)
  have hsame : ∀ c ∈ batch.commands,
      (w.orch.appl[c.id]?).map (Orch.retryApplication retry true c) = w.orch.appl[c.id]? := by
    intro c hc
    have hmem : c.id ∈ batchIds batch := List.mem_map.mpr ⟨c, hc, rfl⟩
    rcases h.halves _ (.retry hrun.pending hrun.decoded happl hnone hv) with hfits | hN
    · obtain ⟨c', hc', hid, -, heq⟩ := hfits c.id hmem
      rw [command_of_id hnd hc' hc hid] at heq
      exact heq
    · exact absurd (hversion c hc).symm (Nat.ne_of_lt (hN c.id hmem))
  have hput : ∀ c ∈ batch.commands, (w.stage .device (.retryDevicePublication retry.id) ()
      retry.desiredVersion (retryHashes w.orch.appl retry true batch.commands)).orch.device[c.id]? =
        w.orch.appl[c.id]? := by
    intro c hc
    rw [← hsame c hc]
    refine getElem?_putVersioned_of_mem ?_ (List.mem_map.mpr ⟨c, hc, rfl⟩) fun existing hex => ?_
    · rw [fst_retryHashes]; exact hnd
    · rw [← hversion c hc]
      exact h.behind _ _ hex
  refine h.publish hcond hnone (by simp) ?_ ?_ ?_ ?_ ?_ (by simp)
  · intro id hid
    rw [fst_retryHashes] at hid
    obtain ⟨c, hc, rfl⟩ := List.mem_map.mp hid
    exact Nat.le_of_eq (hversion c hc).symm
  · intro id hid
    rw [fst_retryHashes] at hid
    obtain ⟨c, hc, rfl⟩ := List.mem_map.mp hid
    rw [hput c hc, World.stage_device_appl]
    exact .inl (.inl rfl)
  · intro H hH hfirst
    cases hH <;> cases hfirst
  · intro H hH hsecond
    rw [retryHalf_own ht hrun hH (.inr hsecond), fst_retryHashes]
    exact fun id hid => hid
  · intro id hid d hd
    rw [fst_retryHashes] at hid
    obtain ⟨c, hc, rfl⟩ := List.mem_map.mp hid
    rw [hput c hc] at hd
    rw [World.stage_device_appl, hd]
    exact Nat.le_refl _

end Retries

/-! ## The other actions -/

/-- Actions that publish nothing: the half published entries are the same. -/
theorem Copies.congr {w w' : World} (h : Copies w) (happl : w'.orch.appl = w.orch.appl)
    (hdevice : w'.orch.device = w.orch.device)
    (hatt : ∀ c (batch : DeviceCommandBatch), w.syncd.hash (.applyAttempt c) = some batch →
      w'.syncd.hash (.applyAttempt c) = some batch)
    (htimeout : ∀ c, w'.orch.hash (.timeoutDevicePublication c) =
      w.orch.hash (.timeoutDevicePublication c))
    (htimeout' : ∀ c, w'.orch.hash (.timeoutApplicationPublication c) =
      w.orch.hash (.timeoutApplicationPublication c))
    (hpending : ∀ n (result : ResultEvent), Pending w .results n result →
      Pending w' .results n result)
    (hhalf : ∀ H, IsHalf w' H ↔ IsHalf w H) : Copies w' := by
  have hfits : ∀ H, Fits w' H ↔ Fits w H := fun H => by unfold Fits; rw [happl, hdevice]
  have hnewer : ∀ ids version, Newer w' ids version ↔ Newer w ids version :=
    fun ids version => by unfold Newer; rw [happl]
  refine ⟨?_, ?_, fun H hH => ?_, fun id => ?_⟩
  · rw [happl, hdevice]
    exact h.behind
  · intro c metadata hfirst hsecond
    rw [htimeout] at hfirst
    rw [htimeout'] at hsecond
    obtain ⟨payload, batch, ha, hdec, hv, hcase⟩ := h.dormant c metadata hfirst hsecond
    refine ⟨payload, batch, hatt _ _ ha, hdec, hv, ?_⟩
    refine hcase.imp (fun ⟨n, result, hrun, hc⟩ => ⟨n, result, ?_, hc⟩) (hnewer _ _).mpr
    obtain ⟨payload', ha', hdec'⟩ := hrun.attempt
    exact ⟨hpending _ _ hrun.pending, hrun.timeout, payload', hatt _ _ ha', hdec'⟩
  · exact (h.halves H ((hhalf H).mp hH)).imp (hfits H).mpr (hnewer _ _).mpr
  · rw [happl, hdevice]
    refine (h.agree id).imp_right fun ⟨H, hH, hf, hid⟩ => ⟨H, (hhalf H).mpr hH, (hfits H).mpr hf, hid⟩

/-- Markers that no half published entry depends on. -/
def isSideKey : OrchKey → Bool
  | .configBatch (.config _) | .applicationPublication _ | .deviceStatePublication _
  | .resultApplicationPublication _ | .resultDevicePublication _
  | .timeoutApplicationPublication _ | .timeoutDevicePublication _
  | .retryApplicationPublication _ | .retryDevicePublication _ => false
  | _ => true

theorem isHalf_keys {w : World} {H : Half} (h : IsHalf w H) :
    isSideKey H.first = false ∧ isSideKey H.second = false := by
  cases h <;> exact ⟨rfl, rfl⟩

theorem isHalf_congr {w w' : World}
    (hp : ∀ g n (event : g.Entry), Pending w' g n event ↔ Pending w g n event)
    (hsyncd : w'.syncd = w.syncd)
    (hhash : ∀ k, isSideKey k = false → w'.orch.hash k = w.orch.hash k) (H : Half) :
    IsHalf w' H ↔ IsHalf w H := by
  constructor
  · intro h
    refine h.transport (fun n event => (hp _ n event).mp) (fun c batch hb => ?_)
      (fun e _ => (hhash _ rfl).symm) (hhash _ (isHalf_keys h).1).symm (hhash _ (isHalf_keys h).2).symm
    rw [← hsyncd]
    exact hb
  · intro h
    refine h.transport (fun n event => (hp _ n event).mpr) (fun c batch hb => ?_)
      (fun e _ => hhash _ rfl) (hhash _ (isHalf_keys h).1) (hhash _ (isHalf_keys h).2)
    rw [hsyncd]
    exact hb

theorem Copies.side {w w' : World} (h : Copies w) (happl : w'.orch.appl = w.orch.appl)
    (hdevice : w'.orch.device = w.orch.device) (hsyncd : w'.syncd = w.syncd)
    (hp : ∀ g n (event : g.Entry), Pending w' g n event ↔ Pending w g n event)
    (hhash : ∀ k, isSideKey k = false → w'.orch.hash k = w.orch.hash k) : Copies w' :=
  h.congr happl hdevice (fun c batch hb => by rw [hsyncd]; exact hb) (fun _ => hhash _ rfl)
    (fun _ => hhash _ rfl) (fun n result => (hp .results n result).mpr)
    (isHalf_congr hp hsyncd hhash)

theorem pending_mark {w : World} {k : OrchKey} {v : OrchHash k} {g : OrchGroup} {n : Nat}
    {event : g.Entry} : Pending (w.mark k v) g n event ↔ Pending w g n event :=
  pending_congr (by simp) (by simp)

theorem Copies.sideMark {w : World} (h : Copies w) {k : OrchKey} {v : OrchHash k}
    (hk : isSideKey k = true) : Copies (w.mark k v) := by
  refine h.side rfl rfl rfl (fun g n event => pending_mark) fun k' hk' =>
    World.mark_hash_of_ne _ _ _ ?_
  rintro rfl
  rw [hk] at hk'
  cases hk'

theorem Copies.commandMark {w : World} (h : Copies w) {commands : List CommandEvent} {k : OrchKey}
    {v : OrchHash k} (hk : isSideKey k = true) : Copies ({ w with commands := commands }.mark k v) := by
  have hmid : Copies { w with commands := commands } :=
    h.side rfl rfl rfl (fun g _ _ => pending_congr rfl (by cases g <;> rfl)) fun _ _ => rfl
  exact hmid.sideMark hk

/-- A new batch belongs to an event that has published nothing. -/
theorem Copies.prepare {w : World} (h : Copies w) (ho : Orderly w) {e : Nat}
    {payload : DeviceCommandBatch} (hnone : w.orch.hash (.configBatch (.config e)) = none) :
    Copies (w.mark (.configBatch (.config e)) payload) := by
  have hhash : ∀ k', k' ≠ .configBatch (.config e) →
      (w.mark (.configBatch (.config e)) payload).orch.hash k' = w.orch.hash k' :=
    fun k' hk' => World.mark_hash_of_ne _ _ _ hk'
  have hp : ∀ g n (event : g.Entry),
      Pending (w.mark (.configBatch (.config e)) payload) g n event ↔ Pending w g n event :=
    fun _ _ _ => pending_mark
  have hkeys : ∀ H, (∃ w, IsHalf w H) → H.first ≠ .configBatch (.config e) ∧
      H.second ≠ .configBatch (.config e) := by
    rintro H ⟨w, hH⟩
    cases hH <;> exact ⟨by simp [configHalf, resultHalf, timeoutHalf, retryHalf],
      by simp [configHalf, resultHalf, timeoutHalf, retryHalf]⟩
  refine h.congr rfl rfl (fun _ _ h => h) (fun _ => hhash _ (by simp)) (fun _ => hhash _ (by simp))
    (fun n result => (hp .results n result).mpr) fun H => ⟨fun hH => ?_, fun hH => ?_⟩
  · have hf := hhash _ (hkeys H ⟨_, hH⟩).1
    have hs := hhash _ (hkeys H ⟨_, hH⟩).2
    cases hH with
    | @config n event batch payload' hpend hprep hdec hfirst hsecond hv =>
        have hfirst' : (w.orch.hash (.applicationPublication event.eventId)).isSome := hf ▸ hfirst
        have hne : OrchKey.configBatch (configCommandId event) ≠ .configBatch (.config e) := by
          intro heq
          have hset := ho.prepared event.eventId hfirst'
          rw [show OrchKey.configBatch (.config event.eventId) = .configBatch (.config e) from heq,
            hnone] at hset
          cases hset
        rw [hhash _ hne] at hprep
        exact .config ((hp _ _ _).mp hpend) hprep hdec hfirst' (hs ▸ hsecond) hv
    | result hpend hplain hfirst hsecond =>
        exact .result ((hp _ _ _).mp hpend) hplain (hf ▸ hfirst) (hs ▸ hsecond)
    | timeout hrun hfirst hsecond hv =>
        exact .timeout ⟨(hp _ _ _).mp hrun.pending, hrun.timeout, hrun.attempt⟩ (hf ▸ hfirst)
          (hs ▸ hsecond) hv
    | retry hpend hdec hfirst hsecond hv =>
        exact .retry ((hp _ _ _).mp hpend) hdec (hf ▸ hfirst) (hs ▸ hsecond) hv
  · refine hH.transport (fun n event => (hp _ n event).mpr) (fun _ _ h => h) (fun e' hset => ?_)
      (hhash _ (hkeys H ⟨_, hH⟩).1) (hhash _ (hkeys H ⟨_, hH⟩).2)
    refine hhash _ ?_
    intro heq
    rw [heq, hnone] at hset
    cases hset

/-- A delivered entry is new: no marker of its own is set. -/
theorem Copies.deliver {w : World} (h : Copies w) (ht : Tidy w) {g : OrchGroup}
    {n : Nat} (hempty : (w.orch.group g).pending = []) (hn : (w.orch.group g).delivered = n) :
    Copies (w.setOrch (w.orch.setGroup g ⟨n + 1, [n]⟩)) := by
  have hhash : ∀ k, (w.setOrch (w.orch.setGroup g ⟨n + 1, [n]⟩)).orch.hash k = w.orch.hash k :=
    fun k => by cases g <;> rfl
  have happl : (w.setOrch (w.orch.setGroup g ⟨n + 1, [n]⟩)).orch.appl = w.orch.appl := by
    cases g <;> rfl
  have hdevice : (w.setOrch (w.orch.setGroup g ⟨n + 1, [n]⟩)).orch.device = w.orch.device := by
    cases g <;> rfl
  have hold : ∀ g' m (event : g'.Entry),
      Pending (w.setOrch (w.orch.setGroup g ⟨n + 1, [n]⟩)) g' m event →
      (g' ≠ g ∧ Pending w g' m event) ∨ (g' = g ∧ m = n ∧ (w.stream g')[m]? = some event) := by
    rintro g' m event ⟨hm, hg⟩
    cases g <;> cases g' <;>
      first
      | exact .inl ⟨by simp, hm, hg⟩
      | exact .inr ⟨rfl, List.mem_singleton.mp hm, hg⟩
  have hkeep : ∀ g' m (event : g'.Entry), Pending w g' m event →
      Pending (w.setOrch (w.orch.setGroup g ⟨n + 1, [n]⟩)) g' m event := by
    rintro g' m event ⟨hm, hg⟩
    by_cases hgg : g' = g
    · subst hgg
      rw [hempty] at hm
      cases hm
    · cases g <;> cases g' <;> first | exact absurd rfl hgg | exact ⟨hm, hg⟩
  have hhalf : ∀ H, IsHalf (w.setOrch (w.orch.setGroup g ⟨n + 1, [n]⟩)) H →
      IsHalf w H ∨ Newer w H.ids H.version := by
    intro H hH
    cases hH with
    | @config m event batch payload hp hprep hdec hf hs hv =>
        rw [hhash] at hprep hf hs
        rcases hold _ _ _ hp with ⟨-, hp⟩ | ⟨rfl, rfl, hget⟩
        · exact .inl (.config hp hprep hdec hf hs hv)
        · obtain ⟨m', event', hlt, hget', hid, -⟩ := ht.prepared _ _ hprep
          have hm := ht.log.ids m' m event' event hget' hget hid
          have hdel : w.orch.configGroup.delivered = m := hn
          omega
    | @result m result hp hplain hf hs =>
        rw [hhash] at hf hs
        rcases hold _ _ _ hp with ⟨-, hp⟩ | ⟨rfl, rfl, hget⟩
        · exact .inl (.result hp hplain hf hs)
        · obtain ⟨m', result', hlt, hget', hid⟩ := ht.knownResult _ hf
          have hm := ht.resultIds m' m result' result hget' hget hid
          have hdel : w.orch.resultGroup.delivered = m := hn
          omega
    | @timeout m result batch metadata hrun hf hs hv =>
        rw [hhash] at hf hs
        rcases hold _ _ _ hrun.pending with ⟨-, hp⟩ | ⟨rfl, rfl, hget⟩
        · exact .inl (.timeout ⟨hp, hrun.timeout, hrun.attempt⟩ hf hs hv)
        · obtain ⟨payload, batch', hatt, hdec, -, hcase⟩ := h.dormant _ _ hf hs
          obtain ⟨payload', hatt', hdec'⟩ := hrun.attempt
          have hsame : some payload = some payload' := hatt.symm.trans hatt'
          cases hsame
          rw [hdec] at hdec'
          cases hdec'
          rcases hcase with ⟨m', result', hrun', -⟩ | hN
          · have hmem := hrun'.pending.mem
            rw [hempty] at hmem
            cases hmem
          · exact .inr hN
    | @retry m retry batch hp hdec hf hs hv =>
        rw [hhash] at hf hs
        rcases hold _ _ _ hp with ⟨-, hp⟩ | ⟨rfl, rfl, hget⟩
        · exact .inl (.retry hp hdec hf hs hv)
        · obtain ⟨m', retry', hlt, hget', hid⟩ := ht.knownRetry _ hf
          have hm := ht.retryIds m' m retry' retry hget' hget (by rw [hid])
          have hdel : w.orch.retryGroup.delivered = m := hn
          omega
  have hfits : ∀ H, Fits (w.setOrch (w.orch.setGroup g ⟨n + 1, [n]⟩)) H ↔ Fits w H :=
    fun H => by unfold Fits; rw [happl, hdevice]
  have hnewer : ∀ ids version, Newer (w.setOrch (w.orch.setGroup g ⟨n + 1, [n]⟩)) ids version ↔
      Newer w ids version := fun ids version => by unfold Newer; rw [happl]
  refine ⟨?_, ?_, fun H hH => ?_, fun id => ?_⟩
  · rw [happl, hdevice]; exact h.behind
  · intro c metadata hf hs
    rw [hhash] at hf hs
    obtain ⟨payload, batch, ha, hdec, hv, hcase⟩ := h.dormant c metadata hf hs
    refine ⟨payload, batch, ha, hdec, hv, hcase.imp ?_ (hnewer _ _).mpr⟩
    exact fun ⟨m, result, hrun, hc⟩ =>
      ⟨m, result, ⟨hkeep _ _ _ hrun.pending, hrun.timeout, hrun.attempt⟩, hc⟩
  · rcases hhalf H hH with hH | hN
    · exact (h.halves H hH).imp (hfits H).mpr (hnewer _ _).mpr
    · exact .inr ((hnewer _ _).mpr hN)
  · rw [happl, hdevice]
    refine (h.agree id).imp_right fun ⟨H, hH, hf, hid⟩ => ⟨H, ?_, (hfits H).mpr hf, hid⟩
    exact hH.transport (fun m event => hkeep _ m event) (fun _ _ h => h) (fun _ _ => hhash _)
      (hhash _) (hhash _)

/-! ## Acknowledgements -/

theorem pending_of_acknowledge {w : World} {g g' : OrchGroup} {n m : Nat} {event : g'.Entry}
    (h : Pending (w.acknowledge g n) g' m event) : Pending w g' m event := by
  obtain ⟨hm, hg⟩ := h
  rw [World.acknowledge_stream] at hg
  rw [World.acknowledge_group] at hm
  split_ifs at hm with hgg
  · subst hgg
    exact ⟨(List.mem_filter.mp hm).1, hg⟩
  · exact ⟨hm, hg⟩

theorem pending_acknowledge_of_ne {w : World} {g g' : OrchGroup} {n m : Nat} {event : g'.Entry}
    (h : Pending w g' m event) (hne : g' ≠ g) : Pending (w.acknowledge g n) g' m event :=
  ⟨by rw [World.acknowledge_group, if_neg hne]; exact h.mem,
    by rw [World.acknowledge_stream]; exact h.get⟩

/-- An entry may be acknowledged when no member relies on its second publication. -/
theorem Copies.ack {w : World} (h : Copies w) {g : OrchGroup} {n : Nat}
    (hdone : ∀ H, IsHalf w H → Fits w H → markerGroup H.first ≠ g) :
    Copies (w.acknowledge g n) := by
  have hfits : ∀ H, Fits (w.acknowledge g n) H ↔ Fits w H := fun H => by unfold Fits; simp
  have hnewer : ∀ ids version, Newer (w.acknowledge g n) ids version ↔ Newer w ids version :=
    fun ids version => by unfold Newer; simp
  refine ⟨by simpa using h.behind, ?_, fun H hH => ?_, fun id => ?_⟩
  · intro c metadata hf hs
    rw [World.acknowledge_hash] at hf hs
    obtain ⟨payload, batch, ha, hdec, hv, hcase⟩ := h.dormant c metadata hf hs
    refine ⟨payload, batch, ha, hdec, hv, ?_⟩
    rcases hcase with ⟨m, result, hrun, rfl⟩ | hN
    · rcases h.halves _ (.timeout hrun hf hs hv) with hfit | hN
      · refine .inl ⟨m, result, ?_, rfl⟩
        have hne := hdone _ (.timeout hrun hf hs hv) hfit
        exact ⟨pending_acknowledge_of_ne hrun.pending hne, hrun.timeout, hrun.attempt⟩
      · exact .inr ((hnewer _ _).mpr hN)
    · exact .inr ((hnewer _ _).mpr hN)
  · have hold : IsHalf w H := hH.transport (fun m event => pending_of_acknowledge)
      (fun _ _ h => h) (fun _ _ => by simp) (by simp) (by simp)
    exact (h.halves H hold).imp (hfits H).mpr (hnewer _ _).mpr
  · simp only [World.acknowledge_appl, World.acknowledge_device]
    refine (h.agree id).imp_right fun ⟨H, hH, hf, hid⟩ => ⟨H, ?_, (hfits H).mpr hf, hid⟩
    exact hH.transport (fun m event hp => pending_acknowledge_of_ne hp (hdone H hH hf))
      (fun _ _ h => h) (fun _ _ => by simp) (by simp) (by simp)

section Acks

variable {w : World} {n : Nat}

theorem Copies.ackConfig (h : Copies w) (ho : Orderly w) (ht : Tidy w) {event : Gnmi.ConfigEvent}
    (hp : Pending w .config n event) (hd : ConfigDone w event) :
    Copies (w.acknowledge .config n) := by
  refine h.ack fun H hH _ => ?_
  cases hH with
  | config hp' hprep _ _ hs _ =>
      have hevent := ht.unique hp hp'
      subst hevent
      rcases hd with hset | ⟨-, hnone, -⟩
      · have hdevice := ho.deviceState _ hset
        rw [hs] at hdevice
        cases hdevice
      · rw [hprep] at hnone
        cases hnone
  | result _ _ _ _ => simp [markerGroup, resultHalf]
  | timeout _ _ _ _ => simp [markerGroup, timeoutHalf]
  | retry _ _ _ _ _ => simp [markerGroup, retryHalf]

theorem Copies.ackResult (h : Copies w) (ht : Tidy w) {result : ResultEvent}
    (hp : Pending w .results n result) (hplain : isTimeout result = false)
    (hd : ResultDone w result) : Copies (w.acknowledge .results n) := by
  refine h.ack fun H hH hfits => ?_
  cases hH with
  | config _ _ _ _ _ _ => simp [markerGroup, configHalf]
  | result hp' _ hf hs =>
      have hresult := ht.unique hp hp'
      subst hresult
      obtain ⟨a, next, ha, hdec, -⟩ := hfits _ (List.mem_singleton.mpr rfl)
      rcases hd with ⟨hset, -⟩ | hnone | ⟨a', ha', hstale⟩
      · rw [hs] at hset
        cases hset
      · rw [ha] at hnone
        cases hnone
      · rw [ha] at ha'
        cases ha'
        rw [hdec] at hstale
        cases hstale
  | timeout hrun _ _ _ =>
      have hresult := ht.unique hp hrun.pending
      subst hresult
      rw [hrun.timeout] at hplain
      cases hplain
  | retry _ _ _ _ _ => simp [markerGroup, retryHalf]

theorem Copies.ackTimeout (h : Copies w) (ht : Tidy w) {result : ResultEvent}
    (hp : Pending w .results n result) (htimeout : isTimeout result = true)
    (hd : TimeoutDone w n result) : Copies (w.acknowledge .results n) := by
  refine h.ack fun H hH hfits => ?_
  cases hH with
  | config _ _ _ _ _ _ => simp [markerGroup, configHalf]
  | result hp' hplain _ _ =>
      have hresult := ht.unique hp hp'
      subst hresult
      rw [htimeout] at hplain
      cases hplain
  | @timeout m result' batch metadata hrun hf hs hv =>
      have hresult := ht.unique hp hrun.pending
      subst hresult
      obtain ⟨payload, hatt, hdec⟩ := hrun.attempt
      cases hd with
      | malformed hbad =>
          obtain ⟨payload', message, hatt', hbad⟩ := hbad
          rw [hatt] at hatt'
          cases hatt'
          rw [hdec] at hbad
          cases hbad
      | first _ _ _ hnone _ =>
          rw [hf] at hnone
          cases hnone
      | superseded hrun' hnot =>
          obtain ⟨payload', hatt', hdec'⟩ := hrun'.attempt
          rw [hatt] at hatt'
          cases hatt'
          rw [hdec] at hdec'
          cases hdec'
          refine absurd (fun c hc => ?_) hnot
          obtain ⟨c', hc', hid, hcur, -⟩ := hfits c.id (List.mem_map.mpr ⟨c, hc, rfl⟩)
          obtain ⟨a, ha, hav, hcmd⟩ := isCurrent_some hcur
          rw [ha]
          simp [isCurrent, hav, hcmd, hv c hc, hv c' hc']
      | complete _ hset _ =>
          rw [hs] at hset
          cases hset
  | retry _ _ _ _ _ => simp [markerGroup, retryHalf]

theorem Copies.ackRetry (h : Copies w) (ho : Orderly w) (ht : Tidy w) {retry : RetryEvent}
    (hp : Pending w .retries n retry) (hd : RetryDone w n retry) :
    Copies (w.acknowledge .retries n) := by
  refine h.ack fun H hH hfits => ?_
  cases hH with
  | config _ _ _ _ _ _ => simp [markerGroup, configHalf]
  | result _ _ _ _ => simp [markerGroup, resultHalf]
  | timeout _ _ _ _ => simp [markerGroup, timeoutHalf]
  | @retry m retry' batch hp' hdec hf hs hv =>
      have hretry := ht.unique hp hp'
      subst hretry
      rcases hd with hset | ⟨batch', hrun, hnot⟩
      · have hdevice := ho.retryDevice _ hset
        rw [hs] at hdevice
        cases hdevice
      · have hdec' := hrun.decoded
        rw [hdec] at hdec'
        cases hdec'
        have hstarted : retryStarted w retry' = true := by simp [retryStarted, hf]
        refine absurd (fun c hc => ?_) hnot
        obtain ⟨c', hc', hid, hcur, -⟩ := hfits c.id (List.mem_map.mpr ⟨c, hc, rfl⟩)
        have hnd := hrun.nodup ho
        rw [hstarted, ← command_of_id hnd hc' hc hid, hid]
        exact hcur

end Acks

theorem Copies.action {policy : ApplyRetryPolicy} {w w' : World} {o : OrchOp} (h : Copies w)
    (ho : Orderly w) (ht : Tidy w) (hcond : Undisturbed w o) (ha : Action policy w o w') :
    Copies w' := by
  cases ha with
  | idle _ => exact h
  | raise _ => exact h
  | alarm _ hstep =>
      have halarm := hstep.only
      refine h.side halarm.appl halarm.device halarm.syncd (fun g n event => ?_) fun k hk => ?_
      · refine pending_congr (halarm.group g) ?_
        cases g
        · exact congrArg (·.events) halarm.config
        · exact congrArg (·.results) halarm.syncd
        · exact halarm.retries
      · refine halarm.hash k ?_
        cases k <;> first | rfl | cases hk
  | deliver hempty hn _ => exact h.deliver ht hempty hn
  | prepare _ _ hbatch _ _ _ => exact h.prepare ho hbatch
  | stageApplication hrun hnone hv _ => exact h.stageApplication ho ht hrun hnone hv hcond
  | stageDevice hrun happl hnone hv => exact h.stageDevice ht hrun happl hnone hv hcond
  | publishCommand _ _ => exact h.commandMark rfl
  | ackConfig hp hd => exact h.ackConfig ho ht hp hd
  | resultDevice hrun hnone happl => exact h.resultDevice ht hrun hnone happl hcond
  | resultApplication hrun hdevice hnone => exact h.resultApplication ht hrun hdevice hnone hcond
  | ackResult hp hplain hd _ => exact h.ackResult ht hp hplain hd
  | timeoutDevice hrun hcur _ hnone happl hv =>
      exact h.timeoutDevice ho ht hrun hcur hnone happl hv hcond
  | timeoutApplication hrun hcur hdevice hnone hv =>
      exact h.timeoutApplication ho ht hrun hcur hdevice hnone hv hcond
  | @scheduleRetry n result batch metadata _ _ _ _ _ =>
      have hmid : Copies (w.setOrch { w.orch with
          retries := w.orch.retries ++ [retryEvent result batch metadata] }) := by
        refine h.side rfl rfl rfl (fun g m event => ?_) fun _ _ => rfl
        cases g with
        | config => exact pending_congr rfl rfl
        | results => exact pending_congr rfl rfl
        | retries =>
            constructor
            · rintro ⟨hm, hg⟩
              refine ⟨hm, ?_⟩
              rcases getElem?_concat hg with hg | ⟨hlen, -⟩
              · exact hg
              · have hdel := (ht.serial .retries m hm).2
                have hin := ht.within .retries
                rw [hdel] at hin
                exact absurd hlen (Nat.ne_of_lt hin)
            · rintro ⟨hm, hg⟩
              exact ⟨hm, Gnmi.getElem?_of_prefix (List.prefix_append _ _) hg⟩
      exact hmid.sideMark rfl
  | ackTimeout hp htimeout hd => exact h.ackTimeout ht hp htimeout hd
  | retryApplication hrun hcur hnone hdevice hv =>
      exact h.retryApplication ho ht hrun hcur hnone hdevice hv hcond
  | retryDevice hrun hcur happl hnone hv =>
      exact h.retryDevice ho ht hrun hcur happl hnone hv hcond
  | retryBatch _ _ => exact h.sideMark rfl
  | retryCommand _ _ => exact h.commandMark rfl
  | ackRetry hp hd => exact h.ackRetry ho ht hp hd

/-! ## Interference -/

/-- Streams that only grow do not change what is pending. -/
theorem pending_frame {s t : World} (ht : Tidy s) (hst : Frame s t) {g : OrchGroup} {n : Nat}
    {event : g.Entry} : Pending t g n event ↔ Pending s g n event := by
  refine ⟨fun h => ?_, fun h => h.near hst.near⟩
  have hmem : n ∈ (s.orch.group g).pending := by
    have hm := h.mem
    rwa [hst.orch] at hm
  have hlt : n < (s.stream g).length := by
    have hin := ht.within g
    rw [(ht.serial g n hmem).2] at hin
    exact hin
  have hpend : Pending s g n (s.stream g)[n] := ⟨hmem, List.getElem?_eq_getElem hlt⟩
  have hget := (hpend.near hst.near).get
  rw [h.get] at hget
  exact ⟨hmem, by rw [Option.some.inj hget]; exact List.getElem?_eq_getElem hlt⟩

theorem timeoutRun_frame {s t : World} (ho : Orderly s) (ht : Tidy s) (hst : Frame s t) {n : Nat}
    {result : ResultEvent} {batch : DeviceCommandBatch} (h : TimeoutRun t n result batch) :
    TimeoutRun s n result batch := by
  have hp := (pending_frame ht hst).mp h.pending
  obtain ⟨payload, hatt⟩ := Option.isSome_iff_exists.mp
    (ho.recorded result (List.mem_of_getElem? hp.get) h.timeout)
  obtain ⟨payload', hatt', hdec⟩ := h.attempt
  rw [hst.attempts _ _ hatt] at hatt'
  cases hatt'
  exact ⟨hp, h.timeout, payload, hatt, hdec⟩

theorem Copies.frame {s t : World} (h : Copies s) (ho : Orderly s) (ht : Tidy s)
    (hst : Frame s t) : Copies t := by
  refine h.congr (by rw [hst.orch]) (by rw [hst.orch]) hst.attempts (fun _ => by rw [hst.orch])
    (fun _ => by rw [hst.orch]) (fun n result hp => hp.near hst.near) fun H => ⟨fun hH => ?_, fun hH => ?_⟩
  · cases hH with
    | config hp hprep hdec hf hs hv =>
        rw [hst.orch] at hprep hf hs
        exact .config ((pending_frame ht hst).mp hp) hprep hdec hf hs hv
    | result hp hplain hf hs =>
        rw [hst.orch] at hf hs
        exact .result ((pending_frame ht hst).mp hp) hplain hf hs
    | timeout hrun hf hs hv =>
        rw [hst.orch] at hf hs
        exact .timeout (timeoutRun_frame ho ht hst hrun) hf hs hv
    | retry hp hdec hf hs hv =>
        rw [hst.orch] at hf hs
        exact .retry ((pending_frame ht hst).mp hp) hdec hf hs hv
  · exact hH.transport (fun _ _ hp => hp.near hst.near) hst.attempts (fun _ _ => by rw [hst.orch])
      (by rw [hst.orch]) (by rw [hst.orch])

end MiniOcs.Orch
