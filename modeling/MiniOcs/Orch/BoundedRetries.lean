import MiniOcs.Orch.Alone
import MiniOcs.Orch.Behind

/-!
# Every run is bounded

A single orchestrator under a fixed policy, among Sets that commit and a syncd that issues
commands of its own, records the batches it attempts and publishes any results.
-/
namespace MiniOcs.Orch
open Std Concurrent CommandId

/-- What happens around the orchestrator. An attempt records the members that its command
carries. -/
inductive Outside (s : World) : World → Prop
  | commit {db : Gnmi.ConfigDb} : Gnmi.Commits s.inventory s.config db →
      Outside s { s with config := db }
  | issue {command : CommandEvent} : command.id.root = none →
      Outside s { s with commands := s.commands ++ [command] }
  | attempt {command : CommandEvent} {batch : DeviceCommandBatch} : command ∈ s.commands →
      (∀ decoded, decodeDeviceCommand command.payload = .ok decoded →
        batch.commands = decoded.commands) →
      s.syncd.hash (.applyAttempt command.id) = none → (batchIds batch).Nodup →
      Outside s (s.setSyncd (s.syncd.setHash (.applyAttempt command.id) batch))
  | result {r : ResultEvent} : (∀ r' ∈ s.syncd.results, r'.id ≠ r.id) →
      (isTimeout r = true → (s.syncd.hash (.applyAttempt r.commandId)).isSome) →
      Outside s (s.setSyncd { s.syncd with results := s.syncd.results ++ [r] })

/-- Crashes and restarts cut the handlers anywhere. -/
def retrying (policy : ApplyRetryPolicy) : System Op Op.Reply Raised Bool World Unit where
  exec := exec
  init w := ∃ inventory hwsim, w = { inventory := inventory, hwsim := hwsim }
  starts _ _ p := handlers policy p
  crash _ w := w
  env := Outside
  allow _ _ _ _ := True

/-- But for the commands that syncd issues itself, these are the surroundings. -/
theorem Outside.cases {s t : World} (h : Outside s t) :
    Surroundings s t ∨ ∃ command : CommandEvent, command.id.root = none ∧
      t = { s with commands := s.commands ++ [command] } := by
  cases h with
  | commit hc => exact .inl (.commit hc)
  | issue hroot => exact .inr ⟨_, hroot, rfl⟩
  | attempt _ _ hnone hnd => exact .inl (.attempt hnone hnd)
  | result hnew hrec => exact .inl (.result hnew hrec)

theorem Outside.frame {s t : World} (h : Outside s t) : Frame s t := by
  rcases h.cases with h | ⟨command, -, rfl⟩
  · exact h.frame
  · exact ⟨rfl, List.prefix_rfl, List.prefix_rfl, fun _ _ h => h⟩

theorem Orderly.outside {s t : World} (h : Orderly s) (ht : Outside s t) : Orderly t := by
  rcases ht.cases with hs | ⟨command, -, rfl⟩
  · exact h.surroundings hs
  · exact ⟨h.prepared, h.application, h.deviceState, h.result, h.timeout, h.retry, h.retryDevice,
      h.attempts, h.retries, h.recorded⟩

theorem Tidy.outside {s t : World} (h : Tidy s) (ht : Outside s t) : Tidy t := by
  rcases ht.cases with hs | ⟨command, -, rfl⟩
  · exact h.surroundings hs
  · refine ⟨h.log, h.serial, fun g => ?_, h.resultIds, h.retryIds, h.retryPublished, h.prepared,
      h.knownResult, h.knownRetry, h.clock⟩
    cases g
    · exact h.within .config
    · exact h.within .results
    · exact h.within .retries

theorem Bounded.outside {limit : Nat} {s t : World} (h : Bounded limit s) (ho : Orderly s)
    (ht : Outside s t) : Bounded limit t := by
  cases ht with
  | commit _ =>
      exact ⟨h.appl, h.device, h.decided, h.recorded,
        fun y hy => (h.retries y hy).mono (List.Subset.refl _),
        fun c hc e he => (h.commands c hc e he).mono (List.Subset.refl _), h.published, h.once,
        h.attempts, h.timedOut⟩
  | @issue command hroot =>
      have hsub : s.commands ⊆ s.commands ++ [command] := List.subset_append_left _ _
      have hold : ∀ c ∈ s.commands ++ [command], c.id.root.isSome → c ∈ s.commands := by
        intro c hc hsome
        rcases List.mem_append.mp hc with hc | hc
        · exact hc
        · rw [List.mem_singleton.mp hc, hroot] at hsome
          cases hsome
      refine ⟨h.appl, h.device, h.decided, h.recorded, fun y hy => (h.retries y hy).mono hsub,
        fun c hc e he => ?_, fun c hc hsome => h.published c (hold c hc hsome) hsome, ?_,
        fun c batch hbatch hsome => ?_, h.timedOut⟩
      · exact (h.commands c (hold c hc (by rw [he]; rfl)) e he).mono hsub
      · simpa [chained, hroot] using h.once
      · obtain ⟨old, hmem, hid, hcommands⟩ := h.attempts c batch hbatch hsome
        exact ⟨old, hsub hmem, hid, hcommands⟩
  | @attempt command batch hmem hmembers hnone hnd =>
      have hattempt : ∀ c (batch' : DeviceCommandBatch),
          (s.setSyncd (s.syncd.setHash (.applyAttempt command.id) batch)).syncd.hash
            (.applyAttempt c) = some batch' →
          (c = command.id ∧ batch' = batch) ∨ s.syncd.hash (.applyAttempt c) = some batch' := by
        intro c batch' hb
        by_cases hc : c = command.id
        · subst hc
          simp only [World.setSyncd, SyncdState.setHash, Function.update_self, Option.some.injEq]
            at hb
          exact .inl ⟨rfl, hb.symm⟩
        · have hne : SyncdKey.applyAttempt c ≠ .applyAttempt command.id := by simpa using hc
          simp only [World.setSyncd, SyncdState.setHash, Function.update_of_ne hne] at hb
          exact .inr hb
      refine ⟨h.appl, h.device, h.decided, fun c metadata hm => ?_,
        fun y hy => (h.retries y hy).mono (List.Subset.refl _),
        fun c hc e he => (h.commands c hc e he).mono (List.Subset.refl _), h.published, h.once,
        fun c batch' hb hsome => ?_, fun c hc batch' hb => ?_⟩
      · obtain ⟨old, hold, hversions⟩ := h.recorded c metadata hm
        exact ⟨old, (Outside.attempt hmem hmembers hnone hnd).frame.attempts c old hold, hversions⟩
      · rcases hattempt c batch' hb with ⟨rfl, rfl⟩ | hb
        · obtain ⟨e, he⟩ := Option.isSome_iff_exists.mp hsome
          exact ⟨command, hmem, rfl, hmembers _ (h.commands command hmem e he).decodes⟩
        · exact h.attempts c batch' hb hsome
      · rcases hattempt c batch' hb with ⟨rfl, rfl⟩ | hb
        · -- a command times out only after its attempt
          obtain ⟨metadata, hm⟩ := Option.isSome_iff_exists.mp hc
          obtain ⟨old, hold, -⟩ := h.recorded _ metadata (ho.timeout _ metadata hm)
          rw [hnone] at hold
          cases hold
        · exact h.timedOut c hc batch' hb
  | result _ _ =>
      exact ⟨h.appl, h.device, h.decided, h.recorded,
        fun y hy => (h.retries y hy).mono (List.Subset.refl _),
        fun c hc e he => (h.commands c hc e he).mono (List.Subset.refl _), h.published, h.once,
        h.attempts, h.timedOut⟩

theorem Behind.outside {s t : World} (h : Behind s) (ht : Outside s t) : Behind t := by
  have horch := ht.frame.orch
  exact h.congr (by rw [horch]) (by rw [horch]) (fun e => by rw [horch]) fun e _ => by rw [horch]

theorem retrying_verified (policy : ApplyRetryPolicy) :
    Verified (retrying policy)
      (fun w => Orderly w ∧ Tidy w ∧ Bounded policy.maxRetries w ∧ Behind w)
      (fun _ => contract policy) (fun _ _ _ _ => True) where
  inv _ _ h := h.1
  allow _ _ _ _ _ := trivial
  init := by
    rintro _ ⟨inventory, hwsim, rfl⟩
    exact ⟨orderly_init _ _, tidy_init _ _, bounded_init _ _ _, behind_init _ _⟩
  starts _ s p _ hp := safe_handlers hp s
  call := by
    rintro i o ch w ⟨ho, ht, hb, hd⟩ hguard _
    cases o with
    | syncd o => exact hguard.elim
    | orch o =>
        exact ⟨⟨ho.action (hguard ch), ht.action (hguard ch), hb.action ho ht (hguard ch),
          hd.action ho ht (hguard ch)⟩, fun j hj => absurd rfl hj⟩
  crash i s h _ := ⟨h, fun j hj => absurd rfl hj⟩
  env := by
    rintro s t ⟨ho, ht, hb, hd⟩ henv
    exact ⟨⟨ho.outside henv, ht.outside henv, hb.outside ho henv, hd.outside henv⟩,
      fun _ => henv.frame⟩

/-! ## The last time-out -/

section Last

variable {policy : ApplyRetryPolicy} {pick : Op → World → Nat} {w : World} {result : ResultEvent}
  {batch : DeviceCommandBatch} {metadata : TimeoutMetadata}

/-- Every member still executes the command. -/
def StillCurrent (w : World) (result : ResultEvent) (batch : DeviceCommandBatch) : Prop :=
  ∀ m ∈ batch.commands, ∃ a, w.orch.appl[m.id]? = some a ∧ a.desiredVersion = m.desiredVersion ∧
    a.commandId = result.commandId ∧ Executing a

theorem StillCurrent.all (h : StillCurrent w result batch) : AllCurrent w result batch := by
  intro m hm
  obtain ⟨a, ha, hv, hc, -⟩ := h m hm
  rw [ha]
  exact isCurrent_iff.mpr ⟨hv, hc⟩

theorem versionsMatch_timeout (h : AllCurrent w result batch)
    (hv : ∀ c ∈ batch.commands, c.desiredVersion = metadata.desiredVersion) :
    versionsMatch metadata.desiredVersion
      (timeoutHashes w.orch.appl result metadata batch.commands) = true := by
  simp only [versionsMatch, timeoutHashes, List.all_map, List.all_eq_true, Function.comp_def]
  intro c hc
  obtain ⟨a, ha, hav, -⟩ := isCurrent_some (h c hc)
  rw [ha]
  exact decide_eq_true (hav.trans (hv c hc))

/-- Publishing the end: both tables, and no retry. -/
theorem alone_publishTimeout (hcur : AllCurrent w result batch)
    (hv : ∀ c ∈ batch.commands, c.desiredVersion = metadata.desiredVersion)
    (happl : w.orch.hash (.timeoutApplicationPublication result.commandId) = none)
    (hend : metadata.retryScheduled = false) :
    ∃ w', (publishTimeout result batch metadata).alone exec pick w = (.ok (), w') ∧
      w'.orch.appl = putVersioned w.orch.appl metadata.desiredVersion
        (timeoutHashes w.orch.appl result metadata batch.commands) ∧
      (w.orch.hash (.timeoutDevicePublication result.commandId) = none →
        w'.orch.device = putVersioned w.orch.device metadata.desiredVersion
          (timeoutHashes w.orch.appl result metadata batch.commands)) ∧
      w'.orch.retries = w.orch.retries := by
  have hmatch := versionsMatch_timeout hcur hv
  have hhashes : (timeoutApplications result metadata [] batch.commands).alone exec pick w =
      (.ok (some (timeoutHashes w.orch.appl result metadata batch.commands)), w) :=
    alone_timeoutApplications hcur
  have hdevice : ∃ w₁, (publish .device (.timeoutDevicePublication result.commandId) metadata
      metadata.desiredVersion (timeoutHashes w.orch.appl result metadata batch.commands)).alone
        exec pick w = (.ok (), w₁) ∧ w₁.orch.appl = w.orch.appl ∧
      w₁.orch.retries = w.orch.retries ∧
      w₁.orch.hash (.timeoutApplicationPublication result.commandId) = none ∧
      (w.orch.hash (.timeoutDevicePublication result.commandId) = none →
        w₁.orch.device = putVersioned w.orch.device metadata.desiredVersion
          (timeoutHashes w.orch.appl result metadata batch.commands)) := by
    cases hset : w.orch.hash (.timeoutDevicePublication result.commandId) with
    | some old =>
        exact ⟨w, alone_publish_again (Option.isSome_of_eq_some hset), rfl, rfl, happl,
          fun h => by cases h⟩
    | none =>
        refine ⟨_, alone_publish hset hmatch, rfl, by simp, ?_, fun _ => rfl⟩
        rw [World.stage_hash_of_ne _ _ _ _ _ _ (by simp)]
        exact happl
  obtain ⟨w₁, hfirst, happl₁, hretries₁, hnone₁, hdevice₁⟩ := hdevice
  obtain ⟨w₂, halarms, honly⟩ := alone_raiseTimeoutAlarms result batch.commands
  refine ⟨w₂, ?_, ?_, fun hnone => ?_, ?_⟩
  · unfold publishTimeout
    rw [Prog.alone_bind_ok hhashes]
    dsimp only
    rw [Prog.alone_bind_ok hfirst, Prog.alone_bind_ok (alone_publish hnone₁ hmatch),
      Prog.alone_bind_ok halarms, scheduleRetry, hend]
    rfl
  · rw [honly.appl, World.stage_appl_appl, happl₁]
  · rw [honly.device, World.stage_appl_device, hdevice₁ hnone]
  · rw [honly.retries, World.stage_retries, hretries₁]

theorem alone_firstTimeout {first : Application}
    (hcur : isCurrent result.desiredVersion result.commandId (some first) = true)
    (hexec : Executing first) (hlast : first.retryAttempt = policy.maxRetries) :
    (firstTimeout policy result (some first)).alone exec pick w =
      (.ok (some (timeoutMetadata policy result 0 first)), w) := by
  have hfail : require first.applyStatus .failed = .pure () := by
    rcases hexec with h | h <;> rw [h] <;> rfl
  unfold firstTimeout
  dsimp only
  rw [hcur, Bool.not_true, if_neg (by simp), if_neg (by rcases hexec with h | h <;> simp [h]), hfail,
    if_neg (by omega)]
  rfl

theorem retries_chain (e k : Nat) : Orch.retries (chain e k) = k := by
  induction k with
  | zero => rfl
  | succ k ih => exact congrArg (· + 1) ih

/-- The members of an attempted command of a chain are at one version. -/
theorem Attempted.uniform (hb : Bounded policy.maxRetries w)
    (hatt : Attempted w result.commandId batch) (hroot : result.commandId.root.isSome) :
    ∃ version, ∀ m ∈ batch.commands, m.desiredVersion = version := by
  obtain ⟨payload, hpayload, hdec⟩ := hatt
  obtain ⟨command, hmem, hid, hcommands⟩ := hb.attempts _ _ hpayload hroot
  obtain ⟨e, he⟩ := Option.isSome_iff_exists.mp hroot
  have hderived := hb.commands command hmem e (by rw [hid]; exact he)
  rw [hderived.decoded hcommands hdec]
  exact hderived.uniform

/-- What the last time-out of a chain leads to. -/
structure Failed (w : World) (result : ResultEvent) (batch : DeviceCommandBatch) (w' : World) :
    Prop where
  appl : ∀ m ∈ batch.commands, ∃ a, w'.orch.appl[m.id]? = some a ∧ a.applyStatus = .failed
  device : w.orch.hash (.timeoutDevicePublication result.commandId) = none →
    ∀ m ∈ batch.commands, ∃ d, w'.orch.device[m.id]? = some d ∧ d.applyStatus = .failed
  retries : w'.orch.retries = w.orch.retries

/-- What is published, once the metadata are known. -/
theorem alone_publishFailure (hd : Behind w) (hnd : (batchIds batch).Nodup)
    (hcur : AllCurrent w result batch)
    (hv : ∀ c ∈ batch.commands, c.desiredVersion = metadata.desiredVersion)
    (happl : w.orch.hash (.timeoutApplicationPublication result.commandId) = none)
    (hend : metadata.retryScheduled = false) (hstatus : metadata.applyStatus = .failed) :
    ∃ w', (publishTimeout result batch metadata).alone exec pick w = (.ok (), w') ∧
      Failed w result batch w' := by
  obtain ⟨w', hrun, htable, hdevice, hretries⟩ := alone_publishTimeout hcur hv happl hend
  have hmember : ∀ m ∈ batch.commands, ∃ a, w.orch.appl[m.id]? = some a ∧
      a.desiredVersion = metadata.desiredVersion ∧
      (m.id, some (timeoutApplication result metadata a)) ∈
        timeoutHashes w.orch.appl result metadata batch.commands := by
    intro m hm
    obtain ⟨a, ha, hav, -⟩ := isCurrent_some (hcur m hm)
    exact ⟨a, ha, hav.trans (hv m hm), List.mem_map.mpr ⟨m, hm, by rw [ha]; rfl⟩⟩
  have hids : ((timeoutHashes w.orch.appl result metadata batch.commands).map Prod.fst).Nodup := by
    rw [fst_timeoutHashes]
    exact hnd
  refine ⟨w', hrun, fun m hm => ?_, fun hnone m hm => ?_, hretries⟩
  · obtain ⟨a, ha, hav, hmem⟩ := hmember m hm
    refine ⟨timeoutApplication result metadata a, ?_, hstatus⟩
    rw [htable]
    refine getElem?_putVersioned_of_mem hids hmem fun existing hex => ?_
    rw [ha] at hex
    cases hex
    exact hav.le
  · obtain ⟨a, ha, hav, hmem⟩ := hmember m hm
    refine ⟨timeoutApplication result metadata a, ?_, hstatus⟩
    rw [hdevice hnone]
    refine getElem?_putVersioned_of_mem hids hmem fun existing hex => ?_
    have hle := hd.device m.id existing hex
    rw [ha] at hle
    exact hle.trans hav.le

theorem Decided.last {c : CommandId} (h : Decided policy.maxRetries c metadata)
    (hlast : Orch.retries c = policy.maxRetries) :
    metadata.retryScheduled = false ∧ metadata.applyStatus = .failed := by
  cases h with
  | @retry e k hc hk _ _ _ =>
      rw [hc, retries_chain] at hlast
      omega
  | fail _ hend _ hstatus => exact ⟨hend, hstatus⟩

/-- A command that is executed has not published a time-out. -/
theorem StillCurrent.open (hb : Bounded policy.maxRetries w)
    (hatt : Attempted w result.commandId batch) (hcur : StillCurrent w result batch) :
    w.orch.hash (.timeoutApplicationPublication result.commandId) = none := by
  obtain ⟨payload, hpayload, hdec⟩ := hatt
  by_contra hne
  obtain ⟨m, hm⟩ := List.exists_mem_of_ne_nil _ (decodeDeviceCommand_ok hdec).2.1
  have hmem : decodeCommand m ∈ batch.commands := by
    rw [(decodeDeviceCommand_ok hdec).1]
    exact List.mem_map.mpr ⟨m, hm, rfl⟩
  have hid : (decodeCommand m).id = m.id := by
    unfold decodeCommand
    cases m.operation <;> rfl
  obtain ⟨a, ha, -, hc, hexec⟩ := hcur _ hmem
  rw [hid] at ha
  exact hb.timedOut _ (Option.ne_none_iff_isSome.mp hne) payload hpayload m hm a ha hc hexec

/-- The command of an application on its chain. -/
theorem Counted.last {a : Application} (h : Counted policy.maxRetries a)
    (hlast : Orch.retries a.commandId = policy.maxRetries) :
    a.commandId.root.isSome ∧ (Executing a → a.retryAttempt = policy.maxRetries) := by
  obtain ⟨e, k, -, hc, hcount⟩ := h.command
  rw [hc, retries_chain] at hlast
  exact ⟨by rw [hc, root_chain]; rfl, fun hexec => (hcount hexec).trans hlast⟩

/-- The last command of a chain times out: all members have failed, and no retry is scheduled. -/
theorem alone_last_timeout (hb : Bounded policy.maxRetries w) (ho : Orderly w) (hd : Behind w)
    (hatt : Attempted w result.commandId batch)
    (hlast : Orch.retries result.commandId = policy.maxRetries)
    (hmember : ∃ m ∈ batch.commands, m.desiredVersion = result.desiredVersion)
    (hcur : StillCurrent w result batch) :
    ∃ w', (handleTimeoutResult policy result).alone exec pick w = (.ok (), w') ∧
      Failed w result batch w' := by
  have happl := hcur.open hb hatt
  obtain ⟨payload, hpayload, hdec⟩ := id hatt
  have hnd : (batchIds batch).Nodup := by
    rw [batchIds_decode hdec]
    exact ho.attempts _ _ hpayload
  obtain ⟨m₀, hm₀, hresult⟩ := hmember
  obtain ⟨front, rest, hfront⟩ : ∃ front rest, batch.commands = front :: rest := by
    cases hcommands : batch.commands with
    | nil => rw [hcommands] at hm₀; cases hm₀
    | cons front rest => exact ⟨front, rest, rfl⟩
  have hfrontMem : front ∈ batch.commands := by rw [hfront]; exact List.mem_cons_self
  obtain ⟨first, hfirst, hv, hc, hexec⟩ := hcur front hfrontMem
  obtain ⟨hroot, hcount⟩ := (hb.appl _ _ hfirst).last (by rw [hc]; exact hlast)
  have hversion : ∀ m ∈ batch.commands, m.desiredVersion = result.desiredVersion := by
    obtain ⟨version, huniform⟩ := hatt.uniform hb (by rw [← hc]; exact hroot)
    exact fun m hm => (huniform m hm).trans ((huniform m₀ hm₀).symm.trans hresult)
  have hhandle : (handleTimeoutResult policy result).alone exec pick w =
      (handleTimeout policy result batch front).alone exec pick w := by
    unfold handleTimeoutResult
    rw [alone_send]
    simp only [OrchOp.exec, hpayload, hdec, hfront]
  rw [hhandle]
  unfold handleTimeout
  rw [alone_send]
  simp only [OrchOp.exec, happl]
  rw [alone_send]
  simp only [OrchOp.exec]
  cases hdevice : w.orch.hash (.timeoutDevicePublication result.commandId) with
  | some metadata =>
      -- a time-out was cut between its two publications
      obtain ⟨hend, hstatus⟩ := (hb.decided _ _ hdevice).last hlast
      refine alone_publishFailure hd hnd hcur.all (fun m hm => ?_) happl hend hstatus
      obtain ⟨payload', hpayload', hversions⟩ := hb.recorded _ _ hdevice
      rw [hpayload] at hpayload'
      cases hpayload'
      rw [(decodeDeviceCommand_ok hdec).1] at hm
      obtain ⟨m', hm', rfl⟩ := List.mem_map.mp hm
      rw [decodeCommand_desiredVersion]
      exact hversions m' hm'
  | none =>
      have hdecided : Decided policy.maxRetries result.commandId
          (timeoutMetadata policy result 0 first) := by
        rw [← hc]
        exact (hb.appl _ _ hfirst).decided hexec result 0
      obtain ⟨hend, hstatus⟩ := hdecided.last hlast
      have hcurrent : isCurrent result.desiredVersion result.commandId (some first) = true :=
        isCurrent_iff.mpr ⟨hv.trans (hversion front hfrontMem), hc⟩
      have hmetadata : (timeoutMetadata policy result 0 first).desiredVersion =
          result.desiredVersion := by
        unfold timeoutMetadata
        split_ifs <;> rfl
      dsimp only
      rw [alone_getAppl, hfirst, Prog.alone_bind_ok (alone_firstTimeout hcurrent hexec (hcount hexec))]
      exact alone_publishFailure hd hnd hcur.all
        (fun m hm => (hversion m hm).trans hmetadata.symm) happl hend hstatus

end Last

/-! ## The bounds -/

/-- The commands that go back to the event. -/
def derived (w : World) (e : Nat) : List CommandEvent :=
  w.commands.filter fun command => command.id.root = some e

structure WithinPolicy (policy : ApplyRetryPolicy) (w : World) : Prop where
  commands : ∀ e, (derived w e).length ≤ 1 + policy.maxRetries
  members : ∀ e, ∀ command ∈ derived w e, ∃ original ∈ w.commands, original.id = .config e ∧
    command.payload.commands = original.payload.commands
  /-- One retry event for a command. -/
  retryEvents : ∀ (i j : Nat) (a b : RetryEvent), w.orch.retries[i]? = some a →
    w.orch.retries[j]? = some b → a.id.failed = b.id.failed → i = j
  /-- One command for a retry event. -/
  retryCommands : ∀ y ∈ w.orch.retries, ∀ (i j : Nat) (a b : CommandEvent),
    w.commands[i]? = some a → w.commands[j]? = some b → a.id = y.id.command →
    b.id = y.id.command → i = j
  applAttempts : ∀ (id : String) (a : Application), w.orch.appl[id]? = some a →
    a.retryAttempt ≤ policy.maxRetries
  deviceAttempts : ∀ (id : String) (d : Application), w.orch.device[id]? = some d →
    d.retryAttempt ≤ policy.maxRetries
  /-- The last command of a chain is not retried. -/
  unscheduled : ∀ y ∈ w.orch.retries, Orch.retries y.id.failed < policy.maxRetries
  /-- A time-out of the last command, reported for a member of the batch that is still current. -/
  last : ∀ (result : ResultEvent) (batch : DeviceCommandBatch), isTimeout result = true →
    Attempted w result.commandId batch → Orch.retries result.commandId = policy.maxRetries →
    (∃ m ∈ batch.commands, m.desiredVersion = result.desiredVersion) →
    StillCurrent w result batch → ∀ pick, ∃ w',
      (handleTimeoutResult policy result).alone exec pick w = (.ok (), w') ∧
        Failed w result batch w'

theorem derived_length {limit : Nat} {w : World} (h : Bounded limit w) (e : Nat) :
    (derived w e).length ≤ 1 + limit := by
  have hsub : ((derived w e).map (·.id)).Sublist (chained w) := by
    have hfilter : (derived w e).map (·.id) =
        (w.commands.map (·.id)).filter fun id => id.root = some e := by
      rw [List.filter_map]
      rfl
    rw [hfilter]
    refine List.monotone_filter_right _ fun id hid => ?_
    simp only [decide_eq_true_eq] at hid
    simp [hid]
  have hchain : (derived w e).map (·.id) ⊆ (List.range (limit + 1)).map (chain e) := by
    intro id hid
    obtain ⟨command, hmem, rfl⟩ := List.mem_map.mp hid
    obtain ⟨hmem, hroot⟩ := List.mem_filter.mp hmem
    obtain ⟨k, hk, hid⟩ := (h.commands command hmem e (by simpa using hroot)).chain
    exact List.mem_map.mpr ⟨k, List.mem_range.mpr (by omega), hid.symm⟩
  have hle := (List.subperm_of_subset (hsub.nodup h.once) hchain).length_le
  simp only [List.length_map, List.length_range] at hle
  omega

/-- Two commands of a chain with one id are the same entry. -/
theorem command_unique {limit : Nat} {w : World} (h : Bounded limit w) {i j : Nat}
    {a b : CommandEvent} (hi : w.commands[i]? = some a) (hj : w.commands[j]? = some b)
    (hab : a.id = b.id) (hroot : a.id.root.isSome) : i = j := by
  have hpairs := List.pairwise_map.mp (List.pairwise_filter.mp h.once)
  have hlt : ∀ {i j : Nat} {a b : CommandEvent}, w.commands[i]? = some a →
      w.commands[j]? = some b → a.id = b.id → a.id.root.isSome → ¬ i < j := by
    intro i j a b hi hj hab hroot hlt
    obtain ⟨hilt, rfl⟩ := List.getElem?_eq_some_iff.mp hi
    obtain ⟨hjlt, rfl⟩ := List.getElem?_eq_some_iff.mp hj
    exact List.pairwise_iff_getElem.mp hpairs i j hilt hjlt hlt hroot (hab ▸ hroot) hab
  have hnot := hlt hi hj hab hroot
  have hnot' := hlt hj hi hab.symm (hab ▸ hroot)
  omega

/-- Bounded retries of whole batches, in every run of one orchestrator. -/
theorem retries_bounded {policy : ApplyRetryPolicy}
    {c : Config Op Op.Reply Raised Bool World Unit} (h : Reachable (retrying policy) c) :
    WithinPolicy policy c.world := by
  obtain ⟨ho, ht, hb, hd⟩ := (retrying_verified policy).invariant h
  refine ⟨derived_length hb, fun e command hmem => ?_, ht.retryIds, fun y hy i j a b hi hj ha hjb => ?_,
    fun id a ha => (hb.appl id a ha).attempt, hb.device, fun y hy => ?_,
    fun result batch _ hatt hlast hmember hcur pick =>
      alone_last_timeout hb ho hd hatt hlast hmember hcur⟩
  · obtain ⟨hmem, hroot⟩ := List.mem_filter.mp hmem
    exact (hb.commands command hmem e (by simpa using hroot)).original
  · obtain ⟨e, k, -, hid⟩ := (hb.retries y hy).chain
    refine command_unique hb hi hj (ha.trans hjb.symm) ?_
    rw [ha, hid]
    exact Option.isSome_of_eq_some (root_chain e k)
  · obtain ⟨e, k, hk, hid⟩ := (hb.retries y hy).chain
    rw [hid, retries_chain]
    exact hk

/-- Without retries, the time-out of two connections is the last one. -/
theorem retries_bounded_pairTimedOut :
    Reachable (retrying { maxRetries := 0 }) (quiet pairTimedOut) ∧
      Attempted pairTimedOut pairTimeout.commandId pairBatch ∧
      StillCurrent pairTimedOut pairTimeout pairBatch ∧
      WithinPolicy { maxRetries := 0 } pairTimedOut := by
  have hset : Reachable (retrying { maxRetries := 0 }) (quiet (afterSet 0
      [Gnmi.connect Gnmi.idA 1 1, Gnmi.connect Gnmi.idB 2 2] smallWorld)) := by
    have hinit : Reachable (retrying { maxRetries := 0 }) (quiet smallWorld) := .init ⟨_, _, rfl⟩
    unfold afterSet
    split
    · rename_i db hdb
      exact hinit.step (.env _ (.commit (Gnmi.commits_commitSet hdb)))
    · exact hinit
  have happlying : Reachable (retrying { maxRetries := 0 }) (quiet pairApplying) :=
    hset.cut (i := ()) rfl (.inl rfl) (List.replicate 40 0)
      (Prog.along_of_forall (fun _ _ _ => trivial) _ _ _) trivial
  obtain ⟨command, hmem, hid, hdec⟩ : ∃ command ∈ pairApplying.commands, command.id = .config 0 ∧
      decodeDeviceCommand command.payload = .ok pairBatch := by decide +kernel
  have hattempted : Reachable (retrying { maxRetries := 0 }) (quiet pairAttempted) := by
    refine happlying.step (.env _ ?_)
    unfold pairAttempted
    rw [← hid]
    refine .attempt hmem (fun decoded hd => ?_) (by rw [hid]; decide +kernel) (by decide)
    rw [hdec] at hd
    cases hd
    rfl
  have htimedOut : Reachable (retrying { maxRetries := 0 }) (quiet pairTimedOut) :=
    hattempted.step (.env _ (.result (by decide +kernel) fun _ => by decide +kernel))
  refine ⟨htimedOut, ⟨pairBatch, by decide +kernel, by decide⟩, ?_, retries_bounded htimedOut⟩
  have hcurrent : ∀ m ∈ pairBatch.commands, ∃ a ∈ pairTimedOut.orch.appl[m.id]?,
      a.desiredVersion = m.desiredVersion ∧ a.commandId = pairTimeout.commandId ∧
        a.applyStatus = .applying := by decide +kernel
  intro m hm
  obtain ⟨a, ha, hv, hc, hs⟩ := hcurrent m hm
  exact ⟨a, ha, hv, hc, .inl hs⟩

end MiniOcs.Orch
