import MiniOcs.Orch.Connections
import MiniOcs.Orch.TimeoutAlarms

/-!
# Bounded retries

The commands of a configuration event form a chain: its own command, the retry of that, the retry
of the retry. Every phase of every handler stays on the chain and within the policy.
-/
namespace MiniOcs

/-- The configuration event that a command goes back to. -/
def CommandId.root : CommandId → Option Nat
  | .config eventId => some eventId
  | .retry failed _ => failed.root
  | .recovery _ => none
  | .reconcile _ => none

/-- The command of an event after a number of retries. -/
def CommandId.chain (eventId : Nat) : Nat → CommandId
  | 0 => .config eventId
  | k + 1 => .retry (chain eventId k) (k + 1)

theorem CommandId.root_chain (eventId k : Nat) : (chain eventId k).root = some eventId := by
  induction k with
  | zero => rfl
  | succ k ih => exact ih

namespace Orch
open Std Concurrent CommandId

/-- The status of an application whose command is being executed. -/
def Executing (a : Application) : Prop := a.applyStatus = .applying ∨ a.applyStatus = .removing

/-- The application is on the chain of an event, as far along it as it has been retried. -/
structure Counted (limit : Nat) (a : Application) : Prop where
  attempt : a.retryAttempt ≤ limit
  command : ∃ e k, k ≤ limit ∧ a.commandId = chain e k ∧ (Executing a → a.retryAttempt = k)

/-- What was decided when a command of the chain timed out: one more retry, or the end. -/
inductive Decided (limit : Nat) (c : CommandId) (metadata : TimeoutMetadata) : Prop
  | retry {e k} : c = chain e k → k < limit → metadata.retryScheduled = true →
      metadata.retryAttempt = k + 1 → metadata.applyStatus = .retryWait → Decided limit c metadata
  | fail {e} : c = chain e limit → metadata.retryScheduled = false →
      metadata.retryAttempt = limit → metadata.applyStatus = .failed → Decided limit c metadata

theorem Decided.attempt_le {limit : Nat} {c : CommandId} {metadata : TimeoutMetadata}
    (h : Decided limit c metadata) : metadata.retryAttempt ≤ limit := by
  cases h with
  | retry _ hk _ ha _ => omega
  | fail _ _ ha _ => omega

theorem Decided.waits {limit : Nat} {c : CommandId} {metadata : TimeoutMetadata}
    (h : Decided limit c metadata) :
    metadata.applyStatus ≠ .applying ∧ metadata.applyStatus ≠ .removing := by
  cases h with
  | retry _ _ _ _ hs => rw [hs]; exact ⟨by decide, by decide⟩
  | fail _ _ _ hs => rw [hs]; exact ⟨by decide, by decide⟩

/-- A command of the event carries the members of the event's own command. -/
structure Derived (limit : Nat) (w : World) (e : Nat) (command : CommandEvent) : Prop where
  chain : ∃ k ≤ limit, command.id = chain e k
  original : ∃ original ∈ w.commands, original.id = .config e ∧
    command.payload.commands = original.payload.commands
  decodes : decodeDeviceCommand command.payload = .ok command.payload
  uniform : ∃ version, ∀ c ∈ command.payload.commands, c.desiredVersion = version

/-- The marker under which a command of a chain is published. -/
def commandMarker : CommandId → OrchKey
  | .config e => .deviceCommandPublication e
  | .retry failed attempt => .retryCommandPublication ⟨failed, attempt⟩
  | c => .configBatch c

/-- The retry of a command of the chain, with the members of that command. -/
structure Scheduled (limit : Nat) (w : World) (y : RetryEvent) : Prop where
  chain : ∃ e k, k < limit ∧ y.id = ⟨chain e k, k + 1⟩
  batch : ∃ command ∈ w.commands, command.id = y.id.failed ∧
    y.batch.commands = command.payload.commands

/-- The attempt of a command that timed out. -/
def Recorded (w : World) (c : CommandId) (metadata : TimeoutMetadata) : Prop :=
  ∃ batch : DeviceCommandBatch, w.syncd.hash (.applyAttempt c) = some batch ∧
    ∀ m ∈ batch.commands, m.desiredVersion = metadata.desiredVersion

/-- The ids of the commands that go back to a configuration event. -/
def chained (w : World) : List CommandId := (w.commands.map (·.id)).filter (·.root.isSome)

structure Bounded (limit : Nat) (w : World) : Prop where
  appl : ∀ (id : String) (a : Application), w.orch.appl[id]? = some a → Counted limit a
  device : ∀ (id : String) (d : Application), w.orch.device[id]? = some d → d.retryAttempt ≤ limit
  decided : ∀ c (metadata : TimeoutMetadata),
    w.orch.hash (.timeoutDevicePublication c) = some metadata → Decided limit c metadata
  recorded : ∀ c (metadata : TimeoutMetadata),
    w.orch.hash (.timeoutDevicePublication c) = some metadata → Recorded w c metadata
  retries : ∀ y ∈ w.orch.retries, Scheduled limit w y
  commands : ∀ command ∈ w.commands, ∀ e, command.id.root = some e → Derived limit w e command
  published : ∀ command ∈ w.commands, command.id.root.isSome →
    (w.orch.hash (commandMarker command.id)).isSome
  once : (chained w).Nodup
  attempts : ∀ c (batch : DeviceCommandBatch), w.syncd.hash (.applyAttempt c) = some batch →
    c.root.isSome → ∃ command ∈ w.commands, command.id = c ∧
      batch.commands = command.payload.commands
  timedOut : ∀ c, (w.orch.hash (.timeoutApplicationPublication c)).isSome →
    ∀ batch : DeviceCommandBatch, w.syncd.hash (.applyAttempt c) = some batch →
      ∀ m ∈ batch.commands, ∀ a, w.orch.appl[m.id]? = some a → a.commandId = c → ¬Executing a

theorem bounded_init (limit : Nat) (inventory : Gnmi.Inventory)
    (hwsim : SimulatedOcsDevice CommandId) :
    Bounded limit { inventory := inventory, hwsim := hwsim } := by
  refine ⟨?_, ?_, ?_, ?_, ?_, ?_, ?_, List.nodup_nil, ?_, ?_⟩ <;> intros <;> simp_all

/-! ## Steps that issue nothing -/

section Keep

variable {limit : Nat} {w w' : World}

theorem Derived.mono {e : Nat} {command : CommandEvent} (h : Derived limit w e command)
    (hsub : w.commands ⊆ w'.commands) : Derived limit w' e command := by
  obtain ⟨original, hmem, horiginal⟩ := h.original
  exact ⟨h.chain, ⟨original, hsub hmem, horiginal⟩, h.decodes, h.uniform⟩

theorem Scheduled.mono {y : RetryEvent} (h : Scheduled limit w y)
    (hsub : w.commands ⊆ w'.commands) : Scheduled limit w' y := by
  obtain ⟨command, hmem, hcommand⟩ := h.batch
  exact ⟨h.chain, command, hsub hmem, hcommand⟩

theorem Bounded.kept (h : Bounded limit w) (hcommands : w'.commands = w.commands)
    (hsyncd : w'.syncd = w.syncd) (hretries : w'.orch.retries = w.orch.retries)
    (hmarkers : ∀ k, (w.orch.hash (commandMarker k)).isSome →
      (w'.orch.hash (commandMarker k)).isSome)
    (happl : ∀ (id : String) (a : Application), w'.orch.appl[id]? = some a → Counted limit a)
    (hdevice : ∀ (id : String) (d : Application), w'.orch.device[id]? = some d →
      d.retryAttempt ≤ limit)
    (hdecided : ∀ c (metadata : TimeoutMetadata),
      w'.orch.hash (.timeoutDevicePublication c) = some metadata →
        Decided limit c metadata ∧ Recorded w c metadata)
    (htimedOut : ∀ c, (w'.orch.hash (.timeoutApplicationPublication c)).isSome →
      ∀ batch : DeviceCommandBatch, w.syncd.hash (.applyAttempt c) = some batch →
        ∀ m ∈ batch.commands, ∀ a, w'.orch.appl[m.id]? = some a → a.commandId = c →
          ¬Executing a) : Bounded limit w' where
  appl := happl
  device := hdevice
  decided c metadata hm := (hdecided c metadata hm).1
  recorded c metadata hm := by
    unfold Recorded
    rw [hsyncd]
    exact (hdecided c metadata hm).2
  retries y hy := by
    rw [hretries] at hy
    exact (h.retries y hy).mono (by rw [hcommands]; exact List.Subset.refl _)
  commands command hmem e he := by
    rw [hcommands] at hmem
    exact (h.commands command hmem e he).mono (by rw [hcommands]; exact List.Subset.refl _)
  published command hmem hroot := by
    rw [hcommands] at hmem
    exact hmarkers _ (h.published command hmem hroot)
  once := by
    unfold chained
    rw [hcommands]
    exact h.once
  attempts := by
    rw [hsyncd, hcommands]
    exact h.attempts
  timedOut := by
    rw [hsyncd]
    exact htimedOut

/-- Nothing that the chains depend on changes, but for markers of other kinds. -/
theorem Bounded.congr (h : Bounded limit w) (hcommands : w'.commands = w.commands)
    (hsyncd : w'.syncd = w.syncd) (hretries : w'.orch.retries = w.orch.retries)
    (happl : w'.orch.appl = w.orch.appl) (hdevice : w'.orch.device = w.orch.device)
    (hmarkers : ∀ k, (w.orch.hash (commandMarker k)).isSome →
      (w'.orch.hash (commandMarker k)).isSome)
    (htd : ∀ c, w'.orch.hash (.timeoutDevicePublication c) =
      w.orch.hash (.timeoutDevicePublication c))
    (hta : ∀ c, w'.orch.hash (.timeoutApplicationPublication c) =
      w.orch.hash (.timeoutApplicationPublication c)) : Bounded limit w' := by
  refine h.kept hcommands hsyncd hretries hmarkers (by rw [happl]; exact h.appl)
    (by rw [hdevice]; exact h.device) (fun c metadata hm => ?_) fun c hc => ?_
  · rw [htd] at hm
    exact ⟨h.decided c metadata hm, h.recorded c _ hm⟩
  · rw [hta] at hc
    rw [happl]
    exact h.timedOut c hc

variable {copy : Copy} {k : OrchKey} {v : OrchHash k} {version : Nat}
  {hashes : List (String × Option Application)}

theorem isSome_stage {k' : OrchKey} (h : (w.orch.hash k').isSome) :
    ((w.stage copy k v version hashes).orch.hash k').isSome := by
  by_cases hk : k' = k
  · subst hk
    rw [World.stage_hash_self]
    rfl
  · rw [World.stage_hash_of_ne _ _ _ _ _ _ hk]
    exact h

/-- What a publication into APPL_DB leaves under an id. -/
theorem stage_appl_cases {id : String} {a : Application}
    (h : (w.stage .appl k v version hashes).orch.appl[id]? = some a) :
    w.orch.appl[id]? = some a ∨ (id, some a) ∈ hashes := by
  rw [World.stage_appl_appl] at h
  rcases getElem?_putVersioned_cases w.orch.appl version hashes id with heq | ⟨hash, hm, -, heq⟩
  · exact .inl (heq ▸ h)
  · rw [heq] at h
    exact .inr (h ▸ hm)

theorem stage_device_cases {id : String} {d : Application}
    (h : (w.stage .device k v version hashes).orch.device[id]? = some d) :
    w.orch.device[id]? = some d ∨ (id, some d) ∈ hashes := by
  rw [World.stage_device_device] at h
  rcases getElem?_putVersioned_cases w.orch.device version hashes id with heq | ⟨hash, hm, -, heq⟩
  · exact .inl (heq ▸ h)
  · rw [heq] at h
    exact .inr (h ▸ hm)

/-- A publication into DEVICE_DB. -/
theorem Bounded.stageDevice (h : Bounded limit w)
    (hhashes : ∀ entry ∈ hashes, ∀ d, entry.2 = some d → d.retryAttempt ≤ limit)
    (hta : ∀ c, k ≠ .timeoutApplicationPublication c)
    (htd : ∀ c (metadata : TimeoutMetadata),
      (w.stage .device k v version hashes).orch.hash (.timeoutDevicePublication c) = some metadata →
        Decided limit c metadata ∧ Recorded w c metadata) :
    Bounded limit (w.stage .device k v version hashes) := by
  refine h.kept (by simp) (by simp) (by simp) (fun _ => isSome_stage) h.appl
    (fun id d hd => ?_) htd fun c hc => ?_
  · rcases stage_device_cases hd with hd | hmem
    · exact h.device id d hd
    · exact hhashes _ hmem d rfl
  · rw [World.stage_hash_of_ne _ _ _ _ _ _ (hta c).symm] at hc
    exact h.timedOut c hc

/-- A publication into APPL_DB that is no time-out: nothing is executed under a command that has
timed out. -/
theorem Bounded.stageAppl (h : Bounded limit w)
    (hhashes : ∀ entry ∈ hashes, ∀ a, entry.2 = some a → Counted limit a)
    (hleft : ∀ entry ∈ hashes, ∀ a, entry.2 = some a → Executing a →
      (w.syncd.hash (.applyAttempt a.commandId)).isSome → False)
    (hta : ∀ c, k ≠ .timeoutApplicationPublication c)
    (htd : ∀ c, k ≠ .timeoutDevicePublication c) :
    Bounded limit (w.stage .appl k v version hashes) := by
  refine h.kept (by simp) (by simp) (by simp) (fun _ => isSome_stage) (fun id a ha => ?_) h.device
    (fun c metadata hm => ?_) fun c hc batch hbatch m hm a ha hcommand hexec => ?_
  · rcases stage_appl_cases ha with ha | hmem
    · exact h.appl id a ha
    · exact hhashes _ hmem a rfl
  · rw [World.stage_hash_of_ne _ _ _ _ _ _ (htd c).symm] at hm
    exact ⟨h.decided c metadata hm, h.recorded c _ hm⟩
  · rw [World.stage_hash_of_ne _ _ _ _ _ _ (hta c).symm] at hc
    rcases stage_appl_cases ha with ha | hmem
    · exact h.timedOut c hc batch hbatch m hm a ha hcommand hexec
    · exact hleft _ hmem a rfl hexec (by rw [hcommand]; exact Option.isSome_of_eq_some hbatch)

end Keep

/-! ## What the handlers publish -/

section Act

variable {limit : Nat} {policy : ApplyRetryPolicy} {w : World}

theorem Bounded.unattempted (h : Bounded limit w) {c : CommandId} (hroot : c.root.isSome)
    (hnone : w.orch.hash (commandMarker c) = none) :
    ¬ (w.syncd.hash (.applyAttempt c)).isSome := by
  intro hsome
  obtain ⟨batch, hbatch⟩ := Option.isSome_iff_exists.mp hsome
  obtain ⟨command, hmem, rfl, -⟩ := h.attempts c batch hbatch hroot
  have hset := h.published command hmem hroot
  rw [hnone] at hset
  cases hset

theorem counted_configApplication (limit : Nat) (event : Gnmi.ConfigEvent)
    (command : ConnectionCommand) : Counted limit (configApplication event command) :=
  ⟨Nat.zero_le _, event.eventId, 0, Nat.zero_le _, rfl, fun _ => rfl⟩

theorem mem_configHashes {event : Gnmi.ConfigEvent} {commands : List ConnectionCommand}
    {entry : String × Option Application} (hmem : entry ∈ configHashes event commands)
    {a : Application} (ha : entry.2 = some a) :
    ∃ command ∈ commands, a = configApplication event command := by
  obtain ⟨command, hcommand, rfl⟩ := List.mem_map.mp hmem
  cases ha
  exact ⟨command, hcommand, rfl⟩

theorem Bounded.stageConfig (h : Bounded limit w) {n : Nat} {event : Gnmi.ConfigEvent}
    {batch : DeviceCommandBatch} (hrun : ConfigRun w n event batch) :
    Bounded limit (w.stage .appl (.applicationPublication event.eventId) () event.desiredVersion
      (configHashes event batch.commands)) := by
  refine h.stageAppl (fun entry hmem a ha => ?_) (fun entry hmem a ha _ hattempt => ?_) (by simp)
    (by simp)
  · obtain ⟨command, -, rfl⟩ := mem_configHashes hmem ha
    exact counted_configApplication limit event command
  · obtain ⟨command, -, rfl⟩ := mem_configHashes hmem ha
    have hmarker : w.orch.hash (commandMarker (configCommandId event)) = none := hrun.unpublished
    exact h.unattempted rfl hmarker hattempt

/-- A result moves the status off the execution. -/
theorem resultStatus_settles (result : ResultEvent) (application : Application) :
    resultStatus result application = .absent ∨ resultStatus result application = .active ∨
      resultStatus result application = .failed := by
  unfold resultStatus
  split_ifs
  · exact .inl rfl
  · exact .inr (.inl rfl)
  · exact .inr (.inr rfl)

theorem resultApplication_fields (result : ResultEvent) (next : ConnectionApplyStatus)
    (a : Application) : (resultApplication result next a).applyStatus = next ∧
      (resultApplication result next a).commandId = a.commandId ∧
      ((resultApplication result next a).retryAttempt = 0 ∨
        (resultApplication result next a).retryAttempt = a.retryAttempt) := by
  unfold resultApplication
  by_cases hsuccess : result.success = true
  · rw [if_pos hsuccess]
    exact ⟨rfl, rfl, .inl rfl⟩
  · rw [if_neg hsuccess]
    exact ⟨rfl, rfl, .inr rfl⟩

theorem resultApplication_settles {result : ResultEvent} {application : Application}
    {next : ConnectionApplyStatus} (hnext : resultDecision result application = .publish next) :
    ¬Executing (resultApplication result next application) := by
  have hstatus := (resultApplication_fields result next application).1
  rintro (hexec | hexec)
  all_goals
    rw [hstatus, (resultDecision_publish hnext).2.1] at hexec
    rcases resultStatus_settles result application with h | h | h <;> rw [h] at hexec <;> cases hexec

theorem Counted.result {a : Application} (h : Counted limit a) {result : ResultEvent}
    {next : ConnectionApplyStatus} (hnext : resultDecision result a = .publish next) :
    Counted limit (resultApplication result next a) := by
  obtain ⟨-, hcommand, hattempt⟩ := resultApplication_fields result next a
  constructor
  · have := h.attempt
    omega
  · obtain ⟨e, k, hk, hc, -⟩ := h.command
    exact ⟨e, k, hk, hcommand.trans hc, fun hexec => absurd hexec (resultApplication_settles hnext)⟩

theorem Bounded.stageResult (h : Bounded limit w) {n : Nat} {result : ResultEvent}
    {application : Application} {next : ConnectionApplyStatus}
    (hrun : ResultRun w n result application next) :
    Bounded limit (w.stage .appl (.resultApplicationPublication result.id) () result.desiredVersion
      [(result.resourceId, some (resultApplication result next application))]) := by
  refine h.stageAppl (fun entry hmem a ha => ?_) (fun entry hmem a ha hexec _ => ?_) (by simp)
    (by simp)
  · cases List.mem_singleton.mp hmem
    cases ha
    exact (h.appl _ _ hrun.found).result hrun.decided
  · cases List.mem_singleton.mp hmem
    cases ha
    exact resultApplication_settles hrun.decided hexec

theorem Bounded.stageResultDevice (h : Bounded limit w) {n : Nat} {result : ResultEvent}
    {application : Application} {next : ConnectionApplyStatus}
    (hrun : ResultRun w n result application next) :
    Bounded limit (w.stage .device (.resultDevicePublication result.id) () result.desiredVersion
      [(result.resourceId, resultDeviceHash result next application)]) := by
  refine h.stageDevice (fun entry hmem d hd => ?_) (by simp) fun c metadata hm => ?_
  · cases List.mem_singleton.mp hmem
    simp only [resultDeviceHash] at hd
    split_ifs at hd
    cases hd
    exact ((h.appl _ _ hrun.found).result hrun.decided).attempt
  · rw [World.stage_hash_of_ne _ _ _ _ _ _ (by simp)] at hm
    exact ⟨h.decided c metadata hm, h.recorded c _ hm⟩

/-! ### Time-outs -/

theorem decodeCommand_desiredVersion (c : ConnectionCommand) :
    (decodeCommand c).desiredVersion = c.desiredVersion := by
  unfold decodeCommand
  cases c.operation <;> rfl

/-- The decision stands on the attempt count of the first member, which is executing. -/
theorem Counted.decided {application : Application} (h : Counted policy.maxRetries application)
    (hexec : Executing application) (result : ResultEvent) (now : Nat) :
    Decided policy.maxRetries application.commandId
      (timeoutMetadata policy result now application) := by
  obtain ⟨e, k, hk, hc, hcount⟩ := h.command
  have hattempt := hcount hexec
  unfold timeoutMetadata
  split_ifs with hlt
  · exact .retry hc (by omega) rfl (by dsimp only; omega) rfl
  · have hkl : k = policy.maxRetries := by omega
    subst hkl
    exact .fail hc rfl (by dsimp only; omega) rfl

theorem Bounded.stageTimeoutDevice (h : Bounded policy.maxRetries w) {n : Nat}
    {result : ResultEvent} {batch : DeviceCommandBatch} {front : ConnectionCommand}
    {application : Application} {metadata : TimeoutMetadata} (hrun : TimeoutRun w n result batch)
    (hfirst : FirstTimeout policy w result batch front application metadata)
    (hv : ∀ c ∈ batch.commands, c.desiredVersion = metadata.desiredVersion) :
    Bounded policy.maxRetries (w.stage .device (.timeoutDevicePublication result.commandId) metadata
      metadata.desiredVersion (timeoutHashes w.orch.appl result metadata batch.commands)) := by
  have hcommand := (isCurrent_iff.mp hfirst.current).2
  have hdecided : Decided policy.maxRetries result.commandId metadata := by
    obtain ⟨now, rfl⟩ := hfirst.decided
    rw [← hcommand]
    exact (h.appl _ _ hfirst.found).decided hfirst.executing result now
  refine h.stageDevice (fun entry hmem d hd => ?_) (by simp) fun c metadata' hm => ?_
  · obtain ⟨c, -, rfl⟩ := List.mem_map.mp hmem
    obtain ⟨a, -, rfl⟩ := Option.map_eq_some_iff.mp hd
    exact hdecided.attempt_le
  · by_cases hc : c = result.commandId
    · subst hc
      rw [World.stage_hash_self, Option.some.injEq] at hm
      subst hm
      obtain ⟨payload, hpayload, hdec⟩ := hrun.attempt
      refine ⟨hdecided, payload, hpayload, fun m hm => ?_⟩
      rw [← decodeCommand_desiredVersion]
      refine hv _ ?_
      rw [(decodeDeviceCommand_ok hdec).1]
      exact List.mem_map.mpr ⟨m, hm, rfl⟩
    · rw [World.stage_hash_of_ne _ _ _ _ _ _ (by simpa using hc)] at hm
      exact ⟨h.decided c metadata' hm, h.recorded c _ hm⟩

/-- The members that a time-out publishes wait or have failed. -/
theorem timeoutApplication_settles {metadata : TimeoutMetadata} {c : CommandId}
    (h : Decided limit c metadata) (result : ResultEvent) (a : Application) :
    ¬Executing (timeoutApplication result metadata a) := by
  rintro (hexec | hexec)
  · exact h.waits.1 hexec
  · exact h.waits.2 hexec

theorem Bounded.stageTimeout (h : Bounded limit w) (ho : Orderly w) {n : Nat} {result : ResultEvent}
    {batch : DeviceCommandBatch} {metadata : TimeoutMetadata} (hrun : TimeoutRun w n result batch)
    (hcur : AllCurrent w result batch)
    (hdevice : w.orch.hash (.timeoutDevicePublication result.commandId) = some metadata)
    (hv : ∀ c ∈ batch.commands, c.desiredVersion = metadata.desiredVersion) :
    Bounded limit (w.stage .appl (.timeoutApplicationPublication result.commandId) metadata
      metadata.desiredVersion (timeoutHashes w.orch.appl result metadata batch.commands)) := by
  have hdecided := h.decided _ _ hdevice
  have hentry : ∀ entry ∈ timeoutHashes w.orch.appl result metadata batch.commands,
      ∀ a, entry.2 = some a → ¬Executing a := by
    intro entry hmem a ha
    obtain ⟨c, -, rfl⟩ := List.mem_map.mp hmem
    obtain ⟨old, -, rfl⟩ := Option.map_eq_some_iff.mp ha
    exact timeoutApplication_settles hdecided result old
  refine h.kept (by simp) (by simp) (by simp) (fun _ => isSome_stage) (fun id a ha => ?_) h.device
    (fun c metadata' hm => ?_) fun c hc payload hpayload m hm a ha hcommand => ?_
  · rcases stage_appl_cases ha with ha | hmem
    · exact h.appl id a ha
    · obtain ⟨c, -, heq⟩ := List.mem_map.mp hmem
      obtain ⟨-, hentry'⟩ := Prod.mk.inj heq
      obtain ⟨old, hold, rfl⟩ := Option.map_eq_some_iff.mp hentry'
      obtain ⟨e, k, hk, hchain, -⟩ := (h.appl _ _ hold).command
      exact ⟨hdecided.attempt_le, e, k, hk, hchain,
        fun hexec => absurd hexec (timeoutApplication_settles hdecided result old)⟩
  · rw [World.stage_hash_of_ne _ _ _ _ _ _ (by simp)] at hm
    exact ⟨h.decided c metadata' hm, h.recorded c _ hm⟩
  · by_cases hnew : c = result.commandId
    · -- every member of the batch that timed out was published now
      subst hnew
      obtain ⟨payload', hpayload', hdec⟩ := hrun.attempt
      rw [hpayload'] at hpayload
      cases hpayload
      have hids : m.id ∈ batchIds batch := by
        rw [batchIds_decode hdec]
        exact List.mem_map.mpr ⟨m, hm, rfl⟩
      obtain ⟨m', hm', hid⟩ := List.mem_map.mp hids
      rw [World.stage_appl_appl, ← hid, getElem?_timeoutHashes (hrun.nodup ho) hcur hv hm'] at ha
      obtain ⟨old, -, rfl⟩ := Option.map_eq_some_iff.mp ha
      exact timeoutApplication_settles hdecided result old
    · rw [World.stage_hash_of_ne _ _ _ _ _ _ (by simpa using hnew)] at hc
      rcases stage_appl_cases ha with ha | hmem
      · exact h.timedOut c hc payload hpayload m hm a ha hcommand
      · exact hentry _ hmem a rfl

/-! ### Retries -/

theorem Derived.fixed {e : Nat} {command : CommandEvent} (h : Derived limit w e command) :
    command.payload.commands.map decodeCommand = command.payload.commands := by
  have heq := (decodeDeviceCommand_ok h.decodes).1
  exact (congrArg DeviceCommandBatch.commands heq).symm

/-- What a record with the members of a command of the chain decodes to. -/
theorem Derived.decoded {e : Nat} {command : CommandEvent} (h : Derived limit w e command)
    {payload batch : DeviceCommandBatch} (hpayload : payload.commands = command.payload.commands)
    (hdec : decodeDeviceCommand payload = .ok batch) :
    batch.commands = command.payload.commands := by
  rw [(decodeDeviceCommand_ok hdec).1]
  dsimp only
  rw [hpayload]
  exact h.fixed

theorem TimeoutRun.members (h : Bounded limit w) {n : Nat} {result : ResultEvent}
    {batch : DeviceCommandBatch} (hrun : TimeoutRun w n result batch)
    (hroot : result.commandId.root.isSome) :
    ∃ command ∈ w.commands, command.id = result.commandId ∧
      batch.commands = command.payload.commands := by
  obtain ⟨payload, hpayload, hdec⟩ := hrun.attempt
  obtain ⟨command, hmem, hid, hcommands⟩ := h.attempts _ _ hpayload hroot
  obtain ⟨e, he⟩ := Option.isSome_iff_exists.mp hroot
  refine ⟨command, hmem, hid, ?_⟩
  exact (h.commands command hmem e (by rw [hid]; exact he)).decoded hcommands hdec

theorem Bounded.scheduleRetry (h : Bounded limit w) (ho : Orderly w) {n : Nat}
    {result : ResultEvent} {batch : DeviceCommandBatch} {metadata : TimeoutMetadata}
    (hrun : TimeoutRun w n result batch)
    (hmarked : w.orch.hash (.timeoutApplicationPublication result.commandId) = some metadata)
    (hscheduled : metadata.retryScheduled = true) :
    Bounded limit ((w.setOrch { w.orch with
      retries := w.orch.retries ++ [retryEvent result batch metadata] }).mark
        (.retryPublication result.commandId) ()) := by
  have hhash : ∀ k' ≠ OrchKey.retryPublication result.commandId, ((w.setOrch { w.orch with
      retries := w.orch.retries ++ [retryEvent result batch metadata] }).mark
        (.retryPublication result.commandId) ()).orch.hash k' = w.orch.hash k' :=
    fun k' hk => World.mark_hash_of_ne _ _ _ hk
  have hnew : Scheduled limit w (retryEvent result batch metadata) := by
    cases h.decided _ _ (ho.timeout _ _ hmarked) with
    | @retry e k hc hk _ ha _ =>
        refine ⟨⟨e, k, hk, by simp only [retryEvent, hc, ha]⟩, ?_⟩
        exact hrun.members h (by rw [hc, root_chain]; rfl)
    | fail _ hf _ _ =>
        rw [hscheduled] at hf
        cases hf
  refine ⟨h.appl, h.device, fun c metadata hm => ?_, fun c metadata hm => ?_, fun y hy => ?_,
    fun command hmem e he => (h.commands command hmem e he).mono (List.Subset.refl _),
    fun command hmem hroot => ?_, h.once, h.attempts, fun c hc => ?_⟩
  · rw [hhash _ (by simp)] at hm
    exact h.decided c metadata hm
  · rw [hhash _ (by simp)] at hm
    exact h.recorded c metadata hm
  · rcases List.mem_append.mp hy with hy | hy
    · exact (h.retries y hy).mono (List.Subset.refl _)
    · rw [List.mem_singleton.mp hy]
      exact hnew.mono (List.Subset.refl _)
  · have hset := h.published command hmem hroot
    rw [hhash _ (by cases command.id <;> simp [commandMarker])]
    exact hset
  · rw [hhash _ (by simp)] at hc
    exact h.timedOut c hc

theorem RetryRun.scheduled (h : Bounded limit w) {n : Nat} {retry : RetryEvent}
    {batch : DeviceCommandBatch} (hrun : RetryRun w n retry batch) : Scheduled limit w retry :=
  h.retries retry (List.mem_of_getElem? hrun.pending.get)

theorem Bounded.stageRetry (h : Bounded limit w) {n : Nat} {retry : RetryEvent}
    {batch : DeviceCommandBatch} (hrun : RetryRun w n retry batch) :
    Bounded limit (w.stage .appl (.retryApplicationPublication retry.id) () retry.desiredVersion
      (retryHashes w.orch.appl retry false batch.commands)) := by
  obtain ⟨e, k, hk, hid⟩ := (hrun.scheduled h).chain
  have hcommand : retry.id.command = chain e (k + 1) := by
    rw [hid]
    rfl
  refine h.stageAppl (fun entry hmem a ha => ?_) (fun entry hmem a ha _ hattempt => ?_) (by simp)
    (by simp)
  · obtain ⟨c, -, rfl⟩ := List.mem_map.mp hmem
    obtain ⟨old, -, rfl⟩ := Option.map_eq_some_iff.mp ha
    refine ⟨?_, e, k + 1, hk, hcommand, fun _ => ?_⟩
    · simp only [retryApplication, hid]
      omega
    · simp only [retryApplication, hid]
  · obtain ⟨c, -, rfl⟩ := List.mem_map.mp hmem
    obtain ⟨old, -, rfl⟩ := Option.map_eq_some_iff.mp ha
    have hmarker : w.orch.hash (commandMarker retry.id.command) = none := hrun.unpublished
    refine h.unattempted ?_ hmarker hattempt
    rw [hcommand, root_chain]
    rfl

theorem Bounded.stageRetryDevice (h : Bounded limit w) {n : Nat} {retry : RetryEvent}
    {batch : DeviceCommandBatch} (hrun : RetryRun w n retry batch) :
    Bounded limit (w.stage .device (.retryDevicePublication retry.id) () retry.desiredVersion
      (retryHashes w.orch.appl retry true batch.commands)) := by
  obtain ⟨e, k, hk, hid⟩ := (hrun.scheduled h).chain
  refine h.stageDevice (fun entry hmem d hd => ?_) (by simp) fun c metadata hm => ?_
  · obtain ⟨c, -, rfl⟩ := List.mem_map.mp hmem
    obtain ⟨old, -, rfl⟩ := Option.map_eq_some_iff.mp hd
    simp only [retryApplication, hid]
    omega
  · rw [World.stage_hash_of_ne _ _ _ _ _ _ (by simp)] at hm
    exact ⟨h.decided c metadata hm, h.recorded c _ hm⟩

/-! ### Commands -/

/-- A command of a chain, under its marker. -/
theorem Bounded.issue (h : Bounded limit w) (command : CommandEvent) {e : Nat}
    (hroot : command.id.root = some e)
    (hnone : w.orch.hash (commandMarker command.id) = none)
    (hderived : Derived limit { w with commands := w.commands ++ [command] } e command)
    {v : OrchHash (commandMarker command.id)}
    (htd : ∀ c, commandMarker command.id ≠ .timeoutDevicePublication c)
    (hta : ∀ c, commandMarker command.id ≠ .timeoutApplicationPublication c) :
    Bounded limit (({ w with commands := w.commands ++ [command] } : World).mark
      (commandMarker command.id) v) := by
  have hsub : w.commands ⊆ w.commands ++ [command] := List.subset_append_left _ _
  have hhash : ∀ k' ≠ commandMarker command.id,
      (({ w with commands := w.commands ++ [command] } : World).mark
        (commandMarker command.id) v).orch.hash k' = w.orch.hash k' :=
    fun k' hk => World.mark_hash_of_ne _ _ _ hk
  have hfresh : command.id ∉ chained w := by
    intro hmem
    obtain ⟨hmem, hsome⟩ := List.mem_filter.mp hmem
    obtain ⟨old, hold, hid⟩ := List.mem_map.mp hmem
    have hset := h.published old hold (by rw [hid]; exact hsome)
    rw [hid, hnone] at hset
    cases hset
  refine ⟨h.appl, h.device, fun c metadata hm => ?_, fun c metadata hm => ?_,
    fun y hy => (h.retries y hy).mono hsub, fun c hmem e' he => ?_, fun c hmem hsome => ?_, ?_,
    fun c batch hbatch hsome => ?_, fun c hc => ?_⟩
  · rw [hhash _ (htd c).symm] at hm
    exact h.decided c metadata hm
  · rw [hhash _ (htd c).symm] at hm
    exact h.recorded c metadata hm
  · rcases List.mem_append.mp hmem with hmem | hmem
    · exact (h.commands c hmem e' he).mono hsub
    · rw [List.mem_singleton.mp hmem] at he ⊢
      rw [hroot, Option.some.injEq] at he
      subst he
      exact hderived.mono (List.Subset.refl _)
  · rcases List.mem_append.mp hmem with hmem | hmem
    · by_cases hk : commandMarker c.id = commandMarker command.id
      · rw [hk, World.mark_hash_self]
        rfl
      · rw [hhash _ hk]
        exact h.published c hmem hsome
    · rw [List.mem_singleton.mp hmem, World.mark_hash_self]
      rfl
  · have hchained : chained (({ w with commands := w.commands ++ [command] } : World).mark
        (commandMarker command.id) v) = chained w ++ [command.id] := by
      simp [chained, hroot]
    rw [hchained]
    exact List.nodup_append.mpr ⟨h.once, List.nodup_singleton _, fun a ha b hb heq =>
      hfresh (by rw [← List.mem_singleton.mp hb, ← heq]; exact ha)⟩
  · obtain ⟨old, hold, hid, hcommands⟩ := h.attempts c batch hbatch hsome
    exact ⟨old, hsub hold, hid, hcommands⟩
  · rw [hhash _ (hta c).symm] at hc
    exact h.timedOut c hc

theorem Bounded.publishCommand (h : Bounded limit w) (ht : Tidy w) {n : Nat}
    {event : Gnmi.ConfigEvent} {batch : DeviceCommandBatch} (hrun : ConfigRun w n event batch) :
    Bounded limit (({ w with commands := w.commands ++ [configCommandEvent event batch] } : World).mark
      (.deviceCommandPublication event.eventId) ()) := by
  obtain ⟨payload, -, hdec⟩ := hrun.prepared
  have hderived : Derived limit { w with commands := w.commands ++ [configCommandEvent event batch] }
      event.eventId (configCommandEvent event batch) :=
    ⟨⟨0, Nat.zero_le _, rfl⟩,
      ⟨configCommandEvent event batch, List.mem_append_right _ (List.mem_singleton_self _), rfl, rfl⟩,
      decodeDeviceCommand_decoded hdec, n + 1, fun c hc =>
        (ht.version hrun.pending).2.2 c ((hrun.part ht).1.subset hc)⟩
  exact h.issue (configCommandEvent event batch) (v := ()) rfl hrun.unpublished hderived
    (fun c hc => by cases hc) fun c hc => by cases hc

theorem Bounded.retryCommand (h : Bounded limit w) {n : Nat} {retry : RetryEvent}
    {batch : DeviceCommandBatch} (hrun : RetryRun w n retry batch) :
    Bounded limit (({ w with commands := w.commands ++ [retryCommandEvent retry batch] } : World).mark
      (.retryCommandPublication retry.id) ()) := by
  obtain ⟨⟨e, k, hk, hid⟩, failed, hmem, hfailed, hcommands⟩ := hrun.scheduled h
  have hroot : failed.id.root = some e := by
    rw [hfailed, hid, root_chain]
  have hold := h.commands failed hmem e hroot
  obtain ⟨original, horiginal, hoid, hpayload⟩ := hold.original
  have hderived : Derived limit { w with commands := w.commands ++ [retryCommandEvent retry batch] }
      e (retryCommandEvent retry batch) := by
    have hbatch := hold.decoded hcommands hrun.decoded
    refine ⟨⟨k + 1, hk, ?_⟩, ⟨original, List.mem_append_left _ horiginal, hoid, ?_⟩,
      decodeDeviceCommand_decoded hrun.decoded, ?_⟩
    · simp only [retryCommandEvent, RetryId.command, hid]
      rfl
    · exact hbatch.trans hpayload
    · simp only [retryCommandEvent, hbatch]
      exact hold.uniform
  refine h.issue (retryCommandEvent retry batch) (v := ()) ?_ hrun.unpublished hderived
    (fun c hc => by cases hc) fun c hc => by cases hc
  simp only [retryCommandEvent, RetryId.command, CommandId.root, hid]
  exact root_chain e k

/-- A marker of another kind. -/
theorem Bounded.mark (h : Bounded limit w) {k : OrchKey} {v : OrchHash k}
    (htd : ∀ c, .timeoutDevicePublication c ≠ k) (hta : ∀ c, .timeoutApplicationPublication c ≠ k) :
    Bounded limit (w.mark k v) := by
  refine h.congr rfl rfl rfl rfl rfl (fun c hc => ?_) (fun c => w.mark_hash_of_ne k v (htd c))
    fun c => w.mark_hash_of_ne k v (hta c)
  by_cases hk : commandMarker c = k
  · subst hk
    rw [World.mark_hash_self]
    rfl
  · rw [World.mark_hash_of_ne _ _ _ hk]
    exact hc

theorem Bounded.acknowledged (h : Bounded limit w) (g : OrchGroup) (n : Nat) :
    Bounded limit (w.acknowledge g n) :=
  h.congr rfl rfl (by simp) (by simp) (by simp) (fun c hc => by simpa using hc) (fun c => by simp)
    fun c => by simp

theorem Bounded.action {w' : World} {o : OrchOp} (h : Bounded policy.maxRetries w) (ho : Orderly w)
    (ht : Tidy w) (ha : Action policy w o w') : Bounded policy.maxRetries w' := by
  cases ha with
  | idle _ => exact h
  | raise _ => exact h
  | alarm _ hstep =>
      have halarm := hstep.only
      refine h.congr halarm.commands halarm.syncd halarm.retries halarm.appl halarm.device
        (fun c hc => ?_) (fun c => halarm.hash _ rfl) fun c => halarm.hash _ rfl
      rw [halarm.hash _ (by cases c <;> rfl)]
      exact hc
  | @deliver g n _ _ _ =>
      exact h.congr rfl rfl (by cases g <;> rfl) (by cases g <;> rfl) (by cases g <;> rfl)
        (fun c hc => by cases g <;> exact hc) (fun c => by cases g <;> rfl)
        fun c => by cases g <;> rfl
  | prepare _ _ _ _ _ _ => exact h.mark (by simp) (by simp)
  | stageApplication hrun _ _ _ => exact h.stageConfig hrun
  | stageDevice hrun _ _ _ =>
      refine h.stageDevice (fun entry hmem d hd => ?_) (by simp) fun c metadata hm => ?_
      · obtain ⟨command, -, rfl⟩ := mem_configHashes hmem hd
        exact Nat.zero_le _
      · rw [World.stage_hash_of_ne _ _ _ _ _ _ (by simp)] at hm
        exact ⟨h.decided c metadata hm, h.recorded c _ hm⟩
  | publishCommand hrun _ => exact h.publishCommand ht hrun
  | @ackConfig n _ _ _ => exact h.acknowledged .config n
  | resultDevice hrun _ _ => exact h.stageResultDevice hrun
  | resultApplication hrun _ _ => exact h.stageResult hrun
  | @ackResult n _ _ _ _ _ => exact h.acknowledged .results n
  | timeoutDevice hrun _ hfirst _ _ hv => exact h.stageTimeoutDevice hrun hfirst hv
  | timeoutApplication hrun hcur hdevice _ hv => exact h.stageTimeout ho hrun hcur hdevice hv
  | scheduleRetry hrun _ hmarked hscheduled _ => exact h.scheduleRetry ho hrun hmarked hscheduled
  | @ackTimeout n _ _ _ _ => exact h.acknowledged .results n
  | retryApplication hrun _ _ _ _ => exact h.stageRetry hrun
  | retryDevice hrun _ _ _ _ => exact h.stageRetryDevice hrun
  | retryBatch _ _ => exact h.mark (by simp) (by simp)
  | retryCommand hrun _ => exact h.retryCommand hrun
  | @ackRetry n _ _ _ => exact h.acknowledged .retries n

end Act

end Orch
end MiniOcs
