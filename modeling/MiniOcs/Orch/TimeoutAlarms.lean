import MiniOcs.Orch.Agreement

/-!
# Time-out alarms and success

One alarm is shared by all versions and commands of a connection. It is raised for a command
whose members wait or have failed, and a success takes it back before its result is
acknowledged, so no alarm outlives a success.
-/
namespace MiniOcs.Orch
open Std Concurrent

/-- How many retries lead to the command. -/
def retries : CommandId → Nat
  | .retry failed _ => retries failed + 1
  | _ => 0

/-- The application has left this version, or this command of it, for good. -/
def Beyond (version : Nat) (command : CommandId) (a : Application) : Prop :=
  version < a.desiredVersion ∨
    (version = a.desiredVersion ∧ retries command < retries a.commandId)

def Waiting (a : Application) : Prop := a.applyStatus = .retryWait ∨ a.applyStatus = .failed

def Settled (a : Application) : Prop := a.applyStatus = .active ∨ a.applyStatus = .absent

theorem Waiting.not_settled {a : Application} (h : Waiting a) : ¬Settled a := by
  rintro (hs | hs) <;> rcases h with h | h <;> rw [h] at hs <;> cases hs

theorem isCurrent_iff {version : Nat} {command : CommandId} {a : Application} :
    isCurrent version command (some a) = true ↔
      a.desiredVersion = version ∧ a.commandId = command := by
  simp [isCurrent]

theorem Beyond.not_current {version : Nat} {command : CommandId} {a : Application}
    (h : Beyond version command a) : ¬isCurrent version command (some a) = true := by
  rw [isCurrent_iff]
  rintro ⟨rfl, rfl⟩
  rcases h with h | ⟨-, h⟩
  · exact Nat.lt_irrefl _ h
  · exact Nat.lt_irrefl _ h

/-! ## How an application moves -/

/-- No time-out whose applications are published is in hand. -/
def NoTimeoutOpen (w : World) : Prop :=
  ∀ n (r : ResultEvent), Pending w .results n r → isTimeout r = true →
    w.orch.hash (.timeoutApplicationPublication r.commandId) = none

/-- What one publication does to an application. -/
inductive Moved (w : World) (a : Application) : Application → Prop
  | same : Moved w a a
  | beyond {a'} : Beyond a.desiredVersion a.commandId a' → Moved w a a'
  | status {a'} : a'.desiredVersion = a.desiredVersion → a'.commandId = a.commandId →
      NoTimeoutOpen w → Moved w a a'

theorem Beyond.moved {w : World} {version : Nat} {command : CommandId} {a a' : Application}
    (h : Beyond version command a) (hm : Moved w a a') : Beyond version command a' := by
  cases hm with
  | same => exact h
  | beyond hb =>
      unfold Beyond at *
      omega
  | status hv hc _ =>
      unfold Beyond
      rw [hv, hc]
      exact h

theorem Moved.current {w : World} {version : Nat} {command : CommandId} {a a' : Application}
    (hm : Moved w a a') (h : isCurrent version command (some a) = true) :
    isCurrent version command (some a') = true ∨ Beyond version command a' := by
  obtain ⟨rfl, rfl⟩ := isCurrent_iff.mp h
  cases hm with
  | same => exact .inl h
  | beyond hb => exact .inr hb
  | status hv hc _ => exact .inl (isCurrent_iff.mpr ⟨hv, hc⟩)

/-! ## A command that timed out -/

/-- The member of a command that timed out waits, or goes on under another command. -/
def TimedOutMember (w : World) (command : CommandId) (m : ConnectionCommand) : Prop :=
  ∃ a, w.orch.appl[m.id]? = some a ∧
    (isCurrent m.desiredVersion command (some a) = true ∨ Beyond m.desiredVersion command a)

/-- Where the alarms of a command that timed out stand: all raised, or dropped because a
member went on, or being raised while all members wait. -/
inductive AlarmsStand (w : World) (command : CommandId) (batch : DeviceCommandBatch) : Prop
  | raised : (∀ m ∈ batch.commands,
      (w.orch.hash (.alarmPublication (.timeout command m.id))).isSome) → AlarmsStand w command batch
  | dropped {m a} : m ∈ batch.commands → w.orch.appl[m.id]? = some a →
      Beyond m.desiredVersion command a → AlarmsStand w command batch
  | raising {n} {r : ResultEvent} : Pending w .results n r → isTimeout r = true →
      r.commandId = command →
      (∀ m ∈ batch.commands, ∀ a, w.orch.appl[m.id]? = some a → Waiting a) →
      AlarmsStand w command batch

structure TimedOut (w : World) (command : CommandId) (batch : DeviceCommandBatch) : Prop where
  members : ∀ m ∈ batch.commands, TimedOutMember w command m
  alarms : AlarmsStand w command batch

/-- The batch of the recorded attempt. -/
def Attempted (w : World) (command : CommandId) (batch : DeviceCommandBatch) : Prop :=
  ∃ payload : DeviceCommandBatch, w.syncd.hash (.applyAttempt command) = some payload ∧
    decodeDeviceCommand payload = .ok batch

theorem Attempted.unique {w : World} {command : CommandId} {batch batch' : DeviceCommandBatch}
    (h : Attempted w command batch) (h' : Attempted w command batch') : batch' = batch := by
  obtain ⟨payload, hp, hd⟩ := h
  obtain ⟨payload', hp', hd'⟩ := h'
  rw [hp] at hp'
  cases hp'
  rw [hd] at hd'
  cases hd'
  rfl

theorem TimedOut.moved {w w' : World} {command : CommandId} {batch : DeviceCommandBatch}
    (h : TimedOut w command batch)
    (hopen : (w.orch.hash (.timeoutApplicationPublication command)).isSome)
    (hmove : ∀ (id : String) (a : Application), w.orch.appl[id]? = some a →
      ∃ a', w'.orch.appl[id]? = some a' ∧ Moved w a a')
    (hmarker : ∀ m ∈ batch.commands,
      (w.orch.hash (.alarmPublication (.timeout command m.id))).isSome →
      (w'.orch.hash (.alarmPublication (.timeout command m.id))).isSome)
    (hpending : ∀ n (r : ResultEvent), Pending w .results n r → isTimeout r = true →
      r.commandId = command → AlarmsStand w' command batch ∨ Pending w' .results n r) :
    TimedOut w' command batch := by
  constructor
  · intro m hm
    obtain ⟨a, ha, hreach⟩ := h.members m hm
    obtain ⟨a', ha', hmoved⟩ := hmove m.id a ha
    rcases hreach with hcur | hbeyond
    · exact ⟨a', ha', hmoved.current hcur⟩
    · exact ⟨a', ha', .inr (hbeyond.moved hmoved)⟩
  cases h.alarms with
  | raised hall => exact .raised fun m hm => hmarker m hm (hall m hm)
  | dropped hm ha hbeyond =>
      obtain ⟨a', ha', hmoved⟩ := hmove _ _ ha
      exact .dropped hm ha' (hbeyond.moved hmoved)
  | @raising n r hp htimeout hcommand hwait =>
      rcases hpending n r hp htimeout hcommand with hstand | hp'
      · exact hstand
      -- a member that goes on drops the alarms, else all members are as they were
      by_cases hgone : ∃ m ∈ batch.commands, ∃ a', w'.orch.appl[m.id]? = some a' ∧
          Beyond m.desiredVersion command a'
      · obtain ⟨m, hm, a', ha', hbeyond⟩ := hgone
        exact .dropped hm ha' hbeyond
      · refine .raising hp' htimeout hcommand fun m hm a' ha' => ?_
        obtain ⟨a, ha, hreach⟩ := h.members m hm
        obtain ⟨b, hb, hmoved⟩ := hmove m.id a ha
        rw [ha'] at hb
        cases hb
        cases hmoved with
        | same => exact hwait m hm _ ha
        | beyond hbeyond =>
            refine absurd ⟨m, hm, _, ha', ?_⟩ hgone
            rcases hreach with hcur | hreach
            · obtain ⟨hv, hc⟩ := isCurrent_iff.mp hcur
              rw [← hv, ← hc]
              exact hbeyond
            · exact hreach.moved (w := w) (.beyond hbeyond)
        | status _ _ hno =>
            have hnone := hno n r hp htimeout
            rw [hcommand] at hnone
            rw [hnone] at hopen
            cases hopen

/-! ## The invariant -/

/-- A success that is published to both copies and has not taken back the alarm yet. -/
def Succeeded (w : World) (connection : String) : Prop :=
  ∃ n, ∃ r : ResultEvent, Pending w .results n r ∧ isTimeout r = false ∧ r.success = true ∧
    r.resourceId = connection ∧ (w.orch.hash (.resultDevicePublication r.id)).isSome ∧
    (w.orch.hash (.resultApplicationPublication r.id)).isSome ∧
    w.orch.hash (.alarmClearPublication r.id) = none

structure Alarmed (w : World) : Prop where
  known : ∀ (id : String) (a : Application), w.orch.appl[id]? = some a →
    ∃ n event, a.desiredVersion = n + 1 ∧ w.config.events[n]? = some event ∧
      (w.orch.hash (.applicationPublication event.eventId)).isSome
  decided : ∀ c (metadata : TimeoutMetadata),
    w.orch.hash (.timeoutDevicePublication c) = some metadata →
      metadata.applyStatus = .retryWait ∨ metadata.applyStatus = .failed
  timedOut : ∀ c, (w.orch.hash (.timeoutApplicationPublication c)).isSome →
    ∃ batch, Attempted w c batch ∧ TimedOut w c batch
  cleared : ∀ r, (w.orch.hash (.alarmClearPublication r)).isSome →
    (w.orch.hash (.resultApplicationPublication r)).isSome
  taken : ∀ n (r : ResultEvent), Pending w .results n r → isTimeout r = false →
    (w.orch.hash (.alarmClearPublication r.id)).isSome →
      w.orch.hash (.activeAlarm r.resourceId) = none
  success : ∀ (id : String) (a : Application), (w.orch.hash (.activeAlarm id)).isSome →
    w.orch.appl[id]? = some a → Settled a → Succeeded w id

theorem alarmed_init (inventory : Gnmi.Inventory) (hwsim : SimulatedOcsDevice CommandId) :
    Alarmed { inventory := inventory, hwsim := hwsim } := by
  refine ⟨?_, ?_, ?_, ?_, ?_, ?_⟩ <;> intros <;> simp_all

/-- A step that leaves the alarms alone: applications move, and a success is noted before its
application settles. -/
theorem Alarmed.moved {w w' : World} (h : Alarmed w)
    (hevents : w.config.events <+: w'.config.events)
    (hattempts : ∀ c (batch : DeviceCommandBatch), w.syncd.hash (.applyAttempt c) = some batch →
      w'.syncd.hash (.applyAttempt c) = some batch)
    (hpending : ∀ n (r : ResultEvent), Pending w' .results n r ↔ Pending w .results n r)
    (hset : ∀ k, (∀ id, k ≠ .activeAlarm id) → (w.orch.hash k).isSome → (w'.orch.hash k).isSome)
    (halarm : ∀ id, w'.orch.hash (.activeAlarm id) = w.orch.hash (.activeAlarm id))
    (hclear : ∀ r, w'.orch.hash (.alarmClearPublication r) = w.orch.hash (.alarmClearPublication r))
    (hdecided : ∀ c (metadata : TimeoutMetadata),
      w'.orch.hash (.timeoutDevicePublication c) = some metadata →
        w.orch.hash (.timeoutDevicePublication c) = some metadata ∨
          metadata.applyStatus = .retryWait ∨ metadata.applyStatus = .failed)
    (hopen : ∀ c, (w'.orch.hash (.timeoutApplicationPublication c)).isSome →
      (w.orch.hash (.timeoutApplicationPublication c)).isSome ∨
        ∃ batch, Attempted w' c batch ∧ TimedOut w' c batch)
    (hmove : ∀ (id : String) (a : Application), w.orch.appl[id]? = some a →
      ∃ a', w'.orch.appl[id]? = some a' ∧ Moved w a a')
    (hnew : ∀ (id : String) (a : Application), w'.orch.appl[id]? = some a →
      w.orch.appl[id]? = some a ∨
        ((∃ n event, a.desiredVersion = n + 1 ∧ w'.config.events[n]? = some event ∧
          (w'.orch.hash (.applicationPublication event.eventId)).isSome) ∧
        (Settled a → Succeeded w' id))) : Alarmed w' := by
  constructor
  · intro id a ha
    rcases hnew id a ha with ha | ⟨hknown, -⟩
    · obtain ⟨n, event, hv, hget, hp⟩ := h.known id a ha
      exact ⟨n, event, hv, Gnmi.getElem?_of_prefix hevents hget, hset _ nofun hp⟩
    · exact hknown
  · intro c metadata hm
    exact (hdecided c metadata hm).elim (h.decided c metadata) id
  · intro c hc
    rcases hopen c hc with hold | hnew
    · obtain ⟨batch, ⟨payload, hp, hd⟩, htimed⟩ := h.timedOut c hold
      refine ⟨batch, ⟨payload, hattempts _ _ hp, hd⟩, htimed.moved hold hmove
        (fun m _ hm => hset _ nofun hm) fun n r hp _ _ => .inr ((hpending n r).mpr hp)⟩
    · exact hnew
  · intro r hr
    rw [hclear] at hr
    exact hset _ nofun (h.cleared r hr)
  · intro n r hp hplain hr
    rw [hclear] at hr
    rw [halarm]
    exact h.taken n r ((hpending n r).mp hp) hplain hr
  · intro id a hactive ha hsettled
    rcases hnew id a ha with hold | ⟨-, hsucceeded⟩
    · rw [halarm] at hactive
      obtain ⟨n, r, hp, hplain, hsuccess, hid, hd, happl, hnone⟩ :=
        h.success id a hactive hold hsettled
      exact ⟨n, r, (hpending n r).mpr hp, hplain, hsuccess, hid, hset _ nofun hd,
        hset _ nofun happl, by rw [hclear]; exact hnone⟩
    · exact hsucceeded hsettled

/-- Keys that say where alarms and time-outs stand. -/
def isStandingKey : OrchKey → Bool
  | .activeAlarm _ | .alarmClearPublication _ | .timeoutDevicePublication _
  | .timeoutApplicationPublication _ => true
  | _ => false

/-- A step that moves no application. -/
theorem Alarmed.kept {w w' : World} (h : Alarmed w) (happl : w'.orch.appl = w.orch.appl)
    (hevents : w.config.events <+: w'.config.events)
    (hattempts : ∀ c (batch : DeviceCommandBatch), w.syncd.hash (.applyAttempt c) = some batch →
      w'.syncd.hash (.applyAttempt c) = some batch)
    (hpending : ∀ n (r : ResultEvent), Pending w' .results n r ↔ Pending w .results n r)
    (hset : ∀ k, (∀ id, k ≠ .activeAlarm id) → (w.orch.hash k).isSome → (w'.orch.hash k).isSome)
    (hhash : ∀ k, isStandingKey k = true → w'.orch.hash k = w.orch.hash k) : Alarmed w' := by
  refine h.moved hevents hattempts hpending hset (fun _ => hhash _ rfl) (fun _ => hhash _ rfl)
    (fun c metadata hm => .inl ?_) (fun c hc => .inl ?_) (fun id a ha => ⟨a, ?_, .same⟩)
    fun id a ha => .inl ?_
  · rw [hhash _ rfl] at hm; exact hm
  · rw [hhash _ rfl] at hc; exact hc
  · rw [happl]; exact ha
  · rw [happl] at ha; exact ha

/-- Nothing but another group differs. -/
theorem Alarmed.regrouped {w : World} (h : Alarmed w) (orch : OrchState)
    (happl : orch.appl = w.orch.appl) (hhash : orch.hash = w.orch.hash)
    (hgroup : orch.resultGroup = w.orch.resultGroup) : Alarmed (w.setOrch orch) := by
  refine h.kept happl List.prefix_rfl (fun _ _ hb => hb) (fun _ _ => pending_congr hgroup rfl)
    (fun k _ hk => ?_) fun k _ => congrFun hhash k
  change (orch.hash k).isSome
  rw [hhash]
  exact hk

theorem isSome_mark {w w' : World} {k : OrchKey} {v : OrchHash k}
    (hself : w'.orch.hash k = some v) (hne : ∀ k', k' ≠ k → w'.orch.hash k' = w.orch.hash k')
    (k' : OrchKey) (hset : (w.orch.hash k').isSome) : (w'.orch.hash k').isSome := by
  by_cases hk : k' = k
  · subst hk; rw [hself]; rfl
  · rw [hne k' hk]; exact hset

/-- A step that sets one marker and moves no application. -/
theorem Alarmed.marked {w w' : World} (h : Alarmed w) {k : OrchKey} {v : OrchHash k}
    (hk : isStandingKey k = false) (hself : w'.orch.hash k = some v)
    (hne : ∀ k', k' ≠ k → w'.orch.hash k' = w.orch.hash k') (happl : w'.orch.appl = w.orch.appl)
    (hconfig : w'.config = w.config) (hsyncd : w'.syncd = w.syncd)
    (hgroup : w'.orch.resultGroup = w.orch.resultGroup) : Alarmed w' := by
  refine h.kept happl (by rw [hconfig]) (fun c batch hb => by rw [hsyncd]; exact hb)
    (fun n r => pending_congr hgroup ?_) (fun k' _ => isSome_mark hself hne k') fun k' hk' => ?_
  · change w'.syncd.results = w.syncd.results
    rw [hsyncd]
  · refine hne k' ?_
    rintro rfl
    rw [hk] at hk'
    cases hk'

theorem Alarmed.mark {w : World} (h : Alarmed w) {k : OrchKey} {v : OrchHash k}
    (hk : isStandingKey k = false) : Alarmed (w.mark k v) :=
  h.marked hk (w.mark_hash_self k v) (fun _ hne => w.mark_hash_of_ne k v hne) rfl rfl rfl rfl

theorem Alarmed.stageDevice {w : World} (h : Alarmed w) {k : OrchKey} {v : OrchHash k}
    {version : Nat} {hashes : List (String × Option Application)}
    (hk : isStandingKey k = false) : Alarmed (w.stage .device k v version hashes) :=
  h.marked hk (World.stage_hash_self ..) (fun _ hne => World.stage_hash_of_ne _ _ _ _ _ _ hne)
    rfl rfl rfl rfl

/-! ## Publications -/

section Publications

variable {w : World} {n : Nat}

/-- A publication of applications that sets a marker. -/
theorem Alarmed.stageAppl (h : Alarmed w) {k : OrchKey} {v : OrchHash k} {version : Nat}
    {hashes : List (String × Option Application)}
    (hk : isStandingKey k = false ∨ ∃ c, k = .timeoutApplicationPublication c ∧
      ∃ batch, Attempted w c batch ∧ TimedOut (w.stage .appl k v version hashes) c batch)
    (hhashes : ∀ id hash, (id, hash) ∈ hashes → ∃ a', hash = some a' ∧
      (∀ a, w.orch.appl[id]? = some a → Moved w a a') ∧
      (∃ n event, a'.desiredVersion = n + 1 ∧ w.config.events[n]? = some event ∧
        ((w.stage .appl k v version hashes).orch.hash
          (.applicationPublication event.eventId)).isSome) ∧
      (Settled a' → Succeeded (w.stage .appl k v version hashes) id)) :
    Alarmed (w.stage .appl k v version hashes) := by
  have hself : (w.stage .appl k v version hashes).orch.hash k = some v := World.stage_hash_self ..
  have hne : ∀ k', k' ≠ k → (w.stage .appl k v version hashes).orch.hash k' = w.orch.hash k' :=
    fun k' hne => World.stage_hash_of_ne _ _ _ _ _ _ hne
  have hkeys : ∀ k', isStandingKey k' = true → (∀ c, k' ≠ .timeoutApplicationPublication c) →
      (w.stage .appl k v version hashes).orch.hash k' = w.orch.hash k' := by
    intro k' hk' htimeout
    refine hne k' ?_
    rintro rfl
    rcases hk with hk | ⟨c, rfl, -⟩
    · rw [hk] at hk'; cases hk'
    · exact htimeout c rfl
  refine h.moved List.prefix_rfl (fun _ _ hb => hb) (fun _ _ => pending_stage)
    (fun k' _ => isSome_mark hself hne k') (fun _ => hkeys _ rfl nofun)
    (fun _ => hkeys _ rfl nofun) (fun c metadata hm => .inl ?_) (fun c hc => ?_)
    (fun id a ha => ?_) fun id a ha => ?_
  · rw [hkeys (.timeoutDevicePublication c) rfl nofun] at hm; exact hm
  · by_cases hkc : OrchKey.timeoutApplicationPublication c = k
    · rcases hk with hk | ⟨c', rfl, hbatch⟩
      · subst hkc; cases hk
      · cases hkc
        exact .inr hbatch
    · rw [hne _ hkc] at hc
      exact .inl hc
  · rw [World.stage_appl_appl]
    rcases getElem?_putVersioned_cases w.orch.appl version hashes id with heq | ⟨hash, hm, -, heq⟩
    · rw [heq]
      exact ⟨a, ha, .same⟩
    · obtain ⟨a', rfl, hmove, -⟩ := hhashes id hash hm
      exact ⟨a', heq, hmove a ha⟩
  · rw [World.stage_appl_appl] at ha
    rcases getElem?_putVersioned_cases w.orch.appl version hashes id with heq | ⟨hash, hm, -, heq⟩
    · rw [heq] at ha
      exact .inl ha
    · obtain ⟨a', rfl, -, hknown, hsettled⟩ := hhashes id hash hm
      rw [heq] at ha
      cases ha
      exact .inr ⟨hknown, hsettled⟩

/-- A published event is the only one of its version, so its members get a newer one. -/
theorem Alarmed.stageApplication (h : Alarmed w) (ht : Tidy w) {event : Gnmi.ConfigEvent}
    {batch : DeviceCommandBatch} (hrun : ConfigRun w n event batch)
    (hnone : w.orch.hash (.applicationPublication event.eventId) = none)
    (hv : ∀ c ∈ batch.commands, c.desiredVersion = event.desiredVersion) :
    Alarmed (w.stage .appl (.applicationPublication event.eventId) () event.desiredVersion
      (configHashes event batch.commands)) := by
  obtain ⟨hversion, hdelivered, -⟩ := ht.version hrun.pending
  have hget : w.config.events[n]? = some event := hrun.pending.get
  refine h.stageAppl (.inl rfl) fun id hash hmem => ?_
  obtain ⟨c, hc, heq⟩ := List.mem_map.mp hmem
  cases heq
  have hcv : c.desiredVersion = n + 1 := (hv c hc).trans hversion
  refine ⟨_, rfl, fun a ha => .beyond (.inl ?_), ⟨n, event, hcv, hget, ?_⟩, fun hsettled => ?_⟩
  · have hle := ht.clock c.id a ha
    obtain ⟨m, event', hm, hget', hp⟩ := h.known c.id a ha
    have hlt : a.desiredVersion ≠ n + 1 := by
      intro heq
      have hmn : m = n := by omega
      rw [hmn, hget] at hget'
      cases hget'
      rw [hnone] at hp
      cases hp
    change a.desiredVersion < c.desiredVersion
    omega
  · rw [World.stage_hash_self]; rfl
  · have hstatus : (configApplication event c).applyStatus = executing c.operation := rfl
    rcases hsettled with hs | hs <;> rw [hstatus] at hs <;> cases hop : c.operation <;>
      rw [hop] at hs <;> cases hs

theorem Alarmed.stageRetry (h : Alarmed w) {retry : RetryEvent} {batch : DeviceCommandBatch}
    (hcur : RetryCurrent w retry false batch) :
    Alarmed (w.stage .appl (.retryApplicationPublication retry.id) () retry.desiredVersion
      (retryHashes w.orch.appl retry false batch.commands)) := by
  refine h.stageAppl (.inl rfl) fun id hash hmem => ?_
  obtain ⟨c, hc, heq⟩ := List.mem_map.mp hmem
  cases heq
  have hretry := hcur c hc
  cases ha : w.orch.appl[c.id]? with
  | none =>
      rw [ha] at hretry
      simp [isCurrentRetry, isCurrent] at hretry
  | some a =>
      rw [ha] at hretry
      simp only [isCurrentRetry, Bool.false_and, Bool.or_false, Bool.false_or,
        Bool.and_eq_true] at hretry
      obtain ⟨hv, hcommand⟩ := isCurrent_iff.mp hretry.1
      obtain ⟨m, event, hm, hget, hp⟩ := h.known c.id a ha
      refine ⟨_, rfl, fun b hb => .beyond (.inr ⟨?_, ?_⟩), ⟨m, event, hm, hget, ?_⟩,
        fun hsettled => ?_⟩
      · cases hb; rfl
      · cases hb
        change retries a.commandId < retries retry.id.failed + 1
        rw [hcommand]
        exact Nat.lt_succ_self _
      · rw [World.stage_hash_of_ne _ _ _ _ _ _ (by simp)]; exact hp
      · have hstatus : (retryApplication retry false c a).applyStatus = executing c.operation := rfl
        rcases hsettled with hs | hs <;> rw [hstatus] at hs <;> cases hop : c.operation <;>
          rw [hop] at hs <;> cases hs

/-- The applications of a time-out: all members wait, and their alarms are still to be raised. -/
theorem Alarmed.stageTimeout (h : Alarmed w) (ho : Orderly w) (ht : Tidy w) {result : ResultEvent}
    {batch : DeviceCommandBatch} {metadata : TimeoutMetadata}
    (hrun : TimeoutRun w n result batch) (hcur : AllCurrent w result batch)
    (hdevice : w.orch.hash (.timeoutDevicePublication result.commandId) = some metadata)
    (hnone : w.orch.hash (.timeoutApplicationPublication result.commandId) = none)
    (hv : ∀ c ∈ batch.commands, c.desiredVersion = metadata.desiredVersion) :
    Alarmed (w.stage .appl (.timeoutApplicationPublication result.commandId) metadata
      metadata.desiredVersion (timeoutHashes w.orch.appl result metadata batch.commands)) := by
  have hwaiting : ∀ a, Waiting (timeoutApplication result metadata a) :=
    fun a => h.decided _ metadata hdevice
  have hput : ∀ c ∈ batch.commands, ∃ a, w.orch.appl[c.id]? = some a ∧
      isCurrent c.desiredVersion result.commandId (some a) = true ∧
      (w.stage .appl (.timeoutApplicationPublication result.commandId) metadata
        metadata.desiredVersion
        (timeoutHashes w.orch.appl result metadata batch.commands)).orch.appl[c.id]? =
          some (timeoutApplication result metadata a) := by
    intro c hc
    obtain ⟨a, ha, hav, hcommand⟩ := isCurrent_some (hcur c hc)
    refine ⟨a, ha, isCurrent_iff.mpr ⟨hav, hcommand⟩, ?_⟩
    rw [World.stage_appl_appl, getElem?_timeoutHashes (hrun.nodup ho) hcur hv hc, ha]
    rfl
  have hno : NoTimeoutOpen w := by
    intro m r hp _
    rw [ht.unique hrun.pending hp]
    exact hnone
  refine h.stageAppl (.inr ⟨_, rfl, batch, hrun.attempt, ?_, ?_⟩) fun id hash hmem => ?_
  · intro m hm
    obtain ⟨a, -, hcurrent, ha'⟩ := hput m hm
    exact ⟨_, ha', .inl hcurrent⟩
  · refine .raising (pending_stage.mpr hrun.pending) hrun.timeout rfl fun m hm a' ha' => ?_
    obtain ⟨a, -, -, heq⟩ := hput m hm
    rw [heq] at ha'
    cases ha'
    exact hwaiting a
  · obtain ⟨c, hc, heq⟩ := List.mem_map.mp hmem
    cases heq
    obtain ⟨a, ha, -, -⟩ := hput c hc
    obtain ⟨m, event, hm, hget, hp⟩ := h.known c.id a ha
    rw [ha]
    refine ⟨_, rfl, fun b hb => ?_, ⟨m, event, hm, hget, ?_⟩,
      fun hsettled => absurd hsettled (hwaiting a).not_settled⟩
    · cases hb
      exact .status rfl rfl hno
    · rw [World.stage_hash_of_ne _ _ _ _ _ _ (by simp)]; exact hp

/-- The application of a result: a success is in hand until it is acknowledged. -/
theorem Alarmed.stageResult (h : Alarmed w) (ht : Tidy w) {result : ResultEvent}
    {application : Application} {next : ConnectionApplyStatus}
    (hrun : ResultRun w n result application next)
    (hdevice : (w.orch.hash (.resultDevicePublication result.id)).isSome)
    (hnone : w.orch.hash (.resultApplicationPublication result.id) = none) :
    Alarmed (w.stage .appl (.resultApplicationPublication result.id) () result.desiredVersion
      [(result.resourceId, some (resultApplication result next application))]) := by
  have hno : NoTimeoutOpen w := by
    intro m r hp htimeout
    rw [ht.unique hrun.pending hp, hrun.plain] at htimeout
    cases htimeout
  refine h.stageAppl (.inl rfl) fun id hash hmem => ?_
  cases List.mem_singleton.mp hmem
  obtain ⟨m, event, hm, hget, hp⟩ := h.known _ _ hrun.found
  refine ⟨_, rfl, fun a ha => ?_, ⟨m, event, ?_, hget, ?_⟩, fun hsettled => ?_⟩
  · rw [hrun.found] at ha
    cases ha
    refine .status (resultApplication_version ..) ?_ hno
    unfold resultApplication
    dsimp only
    split_ifs <;> rfl
  · rw [resultApplication_version]; exact hm
  · rw [World.stage_hash_of_ne _ _ _ _ _ _ (by simp)]; exact hp
  · refine ⟨n, result, pending_stage.mpr hrun.pending, hrun.plain, ?_, rfl, ?_, ?_, ?_⟩
    · by_contra hfailed
      have hnext := (resultDecision_publish hrun.decided).2.1
      rw [resultStatus, if_neg hfailed] at hnext
      unfold Settled at hsettled
      rw [resultApplication_status, hnext] at hsettled
      rcases hsettled with hs | hs <;> cases hs
    · rw [World.stage_hash_of_ne _ _ _ _ _ _ (by simp)]; exact hdevice
    · rw [World.stage_hash_self]; rfl
    · rw [World.stage_hash_of_ne _ _ _ _ _ _ (by simp)]
      by_contra hset
      have := h.cleared result.id (Option.isSome_iff_ne_none.mpr hset)
      rw [hnone] at this
      cases this

theorem Alarmed.timeoutDevice (h : Alarmed w) {policy : ApplyRetryPolicy} {result : ResultEvent}
    {batch : DeviceCommandBatch} {front : ConnectionCommand} {application : Application}
    {metadata : TimeoutMetadata} {version : Nat} {hashes : List (String × Option Application)}
    (hfirst : FirstTimeout policy w result batch front application metadata) :
    Alarmed (w.stage .device (.timeoutDevicePublication result.commandId) metadata
      version hashes) := by
  have hne : ∀ k', k' ≠ .timeoutDevicePublication result.commandId →
      (w.stage .device (.timeoutDevicePublication result.commandId) metadata version
        hashes).orch.hash k' = w.orch.hash k' :=
    fun k' hne => World.stage_hash_of_ne _ _ _ _ _ _ hne
  refine h.moved List.prefix_rfl (fun _ _ hb => hb) (fun _ _ => pending_stage)
    (fun k' _ => isSome_mark (World.stage_hash_self ..) hne k') (fun _ => hne _ nofun)
    (fun _ => hne _ nofun) (fun c metadata' hm => ?_) (fun c hc => .inl ?_)
    (fun id a ha => ⟨a, ha, .same⟩) fun id a ha => .inl ha
  · by_cases hc : c = result.commandId
    · subst hc
      rw [World.stage_hash_self] at hm
      cases hm
      obtain ⟨now, rfl⟩ := hfirst.decided
      unfold timeoutMetadata
      split_ifs
      · exact .inr (.inl rfl)
      · exact .inr (.inr rfl)
    · rw [hne _ (by simpa using hc)] at hm
      exact .inl hm
  · rw [hne _ (by simp)] at hc
    exact hc

end Publications

/-! ## Alarms -/

section Alarms

variable {w : World} {n : Nat} {result : ResultEvent} {batch : DeviceCommandBatch}

/-- While a time-out raises its alarms all its members wait. -/
theorem Alarmed.waiting (h : Alarmed w) (hrun : TimeoutRun w n result batch)
    (hcur : AllCurrent w result batch)
    (hopen : (w.orch.hash (.timeoutApplicationPublication result.commandId)).isSome)
    {c : ConnectionCommand} (hc : c ∈ batch.commands)
    (hnone : w.orch.hash (.alarmPublication (.timeout result.commandId c.id)) = none)
    {a : Application} (ha : w.orch.appl[c.id]? = some a) : Waiting a := by
  obtain ⟨batch', hatt, htimed⟩ := h.timedOut _ hopen
  have hbatch : batch' = batch := Attempted.unique hrun.attempt hatt
  subst hbatch
  cases htimed.alarms with
  | raised hall =>
      have hset := hall c hc
      rw [hnone] at hset
      cases hset
  | dropped hm hb hbeyond =>
      have hcurrent := hcur _ hm
      rw [hb] at hcurrent
      exact absurd hcurrent hbeyond.not_current
  | raising _ _ _ hwait => exact hwait c hc a ha

/-- Raising or taking back an alarm moves no application. -/
theorem Alarmed.put (h : Alarmed w) {k : OrchKey} {v : OrchHash k} {connection : String}
    {alarm : Option Alarm} {event : AlarmEvent} (hk : isAlarmKey k = true)
    (hcleared : ∀ r, ((putAlarm w k v connection alarm event).orch.hash
      (.alarmClearPublication r)).isSome → (w.orch.hash (.resultApplicationPublication r)).isSome)
    (htaken : ∀ m (r : ResultEvent), Pending w .results m r → isTimeout r = false →
      ((putAlarm w k v connection alarm event).orch.hash (.alarmClearPublication r.id)).isSome →
        (putAlarm w k v connection alarm event).orch.hash (.activeAlarm r.resourceId) = none)
    (hsuccess : ∀ (id : String) (a : Application),
      ((putAlarm w k v connection alarm event).orch.hash (.activeAlarm id)).isSome →
      w.orch.appl[id]? = some a → ¬Settled a) :
    Alarmed (putAlarm w k v connection alarm event) := by
  have honly : AlarmsOnly w (putAlarm w k v connection alarm event) := alarmsOnly_putAlarm hk
  constructor
  · intro id a ha
    obtain ⟨m, event', hm, hget, hp⟩ := h.known id a ha
    exact ⟨m, event', hm, hget, by rw [honly.hash _ rfl]; exact hp⟩
  · intro c metadata hm
    rw [honly.hash _ rfl] at hm
    exact h.decided c metadata hm
  · intro c hc
    rw [honly.hash _ rfl] at hc
    obtain ⟨batch, hatt, htimed⟩ := h.timedOut c hc
    refine ⟨batch, hatt, htimed.moved hc (fun id a ha => ⟨a, ha, .same⟩) (fun m _ hm => ?_)
      fun m r hp _ _ => .inr ⟨hp.mem, hp.get⟩⟩
    by_cases heq : OrchKey.alarmPublication (.timeout c m.id) = k
    · subst heq
      rw [putAlarm_hash_self]; rfl
    · rw [putAlarm_hash_of_ne heq (by simp)]; exact hm
  · intro r hr
    rw [honly.hash _ rfl]
    exact hcleared r hr
  · intro m r hp hplain hr
    exact htaken m r ⟨hp.mem, hp.get⟩ hplain hr
  · intro id a hactive ha hsettled
    exact absurd hsettled (hsuccess id a hactive ha)

theorem Alarmed.raise (h : Alarmed w) (ht : Tidy w) {alarm : Alarm} {c : ConnectionCommand}
    {marker : AlarmMarker} {event : AlarmEvent} (hrun : TimeoutRun w n result batch)
    (hcur : AllCurrent w result batch)
    (hopen : (w.orch.hash (.timeoutApplicationPublication result.commandId)).isSome)
    (hc : c ∈ batch.commands)
    (hnone : w.orch.hash (.alarmPublication (.timeout result.commandId c.id)) = none) :
    Alarmed (putAlarm w (.alarmPublication (.timeout result.commandId c.id)) marker c.id
      (some alarm) event) := by
  have htimeout : ∀ m (r : ResultEvent), Pending w .results m r → isTimeout r = false → False := by
    intro m r hp hplain
    rw [ht.unique hrun.pending hp, hrun.timeout] at hplain
    cases hplain
  refine h.put rfl (fun r hr => ?_) (fun m r hp hplain => (htimeout m r hp hplain).elim)
    fun id a hactive ha => ?_
  · rw [putAlarm_hash_of_ne (by simp) (by simp)] at hr
    exact h.cleared r hr
  · by_cases hid : id = c.id
    · subst hid
      exact (h.waiting hrun hcur hopen hc hnone ha).not_settled
    · intro hsettled
      rw [putAlarm_hash_of_ne (by simp) (by simpa using hid)] at hactive
      obtain ⟨m, r, hp, hplain, -⟩ := h.success id a hactive ha hsettled
      exact htimeout m r hp hplain

theorem Alarmed.clear (h : Alarmed w) (ht : Tidy w) {marker : AlarmMarker} {event : AlarmEvent}
    (hp : Pending w .results n result)
    (happl : (w.orch.hash (.resultApplicationPublication result.id)).isSome) :
    Alarmed (putAlarm w (.alarmClearPublication result.id) marker result.resourceId none
      event) := by
  refine h.put rfl (fun r hr => ?_) (fun m r hp' _ _ => ?_) fun id a hactive ha hsettled => ?_
  · by_cases heq : r = result.id
    · subst heq
      exact happl
    · rw [putAlarm_hash_of_ne (by simpa using heq) (by simp)] at hr
      exact h.cleared r hr
  · have hr : r = result := ht.unique hp hp'
    subst hr
    exact putAlarm_hash_alarm nofun
  · by_cases hid : id = result.resourceId
    · subst hid
      rw [putAlarm_hash_alarm (by simp)] at hactive
      cases hactive
    · rw [putAlarm_hash_of_ne (by simp) (by simpa using hid)] at hactive
      obtain ⟨m, r, hp', -, -, hr, -⟩ := h.success id a hactive ha hsettled
      rw [ht.unique hp hp'] at hr
      exact hid hr.symm

theorem Alarmed.alarm {w' : World} (h : Alarmed w) (ht : Tidy w) (hstep : AlarmStep w w') :
    Alarmed w' := by
  cases hstep with
  | raise hrun hcur hopen hc hnone _ _ => exact h.raise ht hrun hcur hopen hc hnone
  | countRaised _ _ _ _ _ =>
      exact h.marked rfl countAlarm_hash_self (fun _ hne => countAlarm_hash_of_ne hne) rfl rfl rfl
        rfl
  | clear hp _ _ happl _ _ _ => exact h.clear ht hp happl
  | countCleared _ _ _ _ =>
      exact h.marked rfl countAlarm_hash_self (fun _ hne => countAlarm_hash_of_ne hne) rfl rfl rfl
        rfl

end Alarms

/-! ## Delivery and acknowledgement of results -/

theorem Alarmed.deliver {w : World} (h : Alarmed w) (ho : Orderly w) (ht : Tidy w) {n : Nat}
    (hidle : w.orch.resultGroup.pending = []) (hdelivered : w.orch.resultGroup.delivered = n) :
    Alarmed (w.setOrch (w.orch.setGroup .results ⟨n + 1, [n]⟩)) := by
  have hnone : ∀ m (r : ResultEvent), ¬Pending w .results m r := by
    intro m r hp
    have hmem : m ∈ w.orch.resultGroup.pending := hp.mem
    rw [hidle] at hmem
    cases hmem
  refine ⟨h.known, h.decided, fun c hc => ?_, h.cleared, fun m r hp _ hr => ?_,
    fun id a hactive ha hsettled => ?_⟩
  · obtain ⟨batch, hatt, htimed⟩ := h.timedOut c hc
    exact ⟨batch, hatt, htimed.moved hc (fun id a ha => ⟨a, ha, .same⟩) (fun _ _ hm => hm)
      fun m r hp _ _ => absurd hp (hnone m r)⟩
  · -- a result that was never delivered has no marker
    obtain ⟨m', r', hlt, hget, hid⟩ :=
      ht.knownResult r.id (ho.result r.id (h.cleared r.id hr))
    have hm : m = n := List.mem_singleton.mp hp.mem
    have heq := ht.resultIds m' m r' r hget hp.get hid
    omega
  · obtain ⟨m, r, hp, -⟩ := h.success id a hactive ha hsettled
    exact absurd hp (hnone m r)

section Acknowledge

variable {w : World} {n : Nat} {result : ResultEvent}

theorem Alarmed.ack (h : Alarmed w) (ht : Tidy w) (hp : Pending w .results n result)
    (hstand : isTimeout result = true → ∀ batch, Attempted w result.commandId batch →
      TimedOut w result.commandId batch →
      (w.orch.hash (.timeoutApplicationPublication result.commandId)).isSome →
      AlarmsStand (w.acknowledge .results n) result.commandId batch)
    (hcleared : isTimeout result = false → SuccessCleared w result) :
    Alarmed (w.acknowledge .results n) := by
  refine ⟨h.known, h.decided, fun c hc => ?_, h.cleared, fun m r hp' hplain hr => ?_,
    fun id a hactive ha hsettled => ?_⟩
  · obtain ⟨batch, hatt, htimed⟩ := h.timedOut c hc
    refine ⟨batch, hatt, htimed.moved hc (fun id a ha => ⟨a, ha, .same⟩) (fun _ _ hm => hm)
      fun m r hp' htimeout hcommand => .inl ?_⟩
    rw [ht.unique hp hp'] at htimeout hcommand
    subst hcommand
    exact hstand htimeout batch hatt htimed hc
  · exact h.taken m r (pending_of_acknowledge hp') hplain hr
  · obtain ⟨m, r, hp', hplain, hsuccess, hid, hdevice, happl, hnone⟩ :=
      h.success id a hactive ha hsettled
    have hr : r = result := ht.unique hp hp'
    subst hr
    rcases hcleared hplain happl hdevice hsuccess with ⟨-, halarm⟩ | ⟨marker, hmarker, -⟩
    · have hactive' : (w.orch.hash (.activeAlarm id)).isSome := hactive
      rw [← hid, halarm] at hactive'
      cases hactive'
    · rw [hnone] at hmarker
      cases hmarker

/-- A time-out is left with its alarms raised, or with a member that went on. -/
theorem Alarmed.ackTimeout (h : Alarmed w) (ht : Tidy w) (hp : Pending w .results n result)
    (htimeout : isTimeout result = true) (hdone : TimeoutDone w n result) :
    Alarmed (w.acknowledge .results n) := by
  refine h.ack ht hp (fun _ batch hatt htimed hopen => ?_) fun hplain => ?_
  · cases hdone with
    | malformed hmalformed =>
        obtain ⟨payload, message, hp', herror⟩ := hmalformed
        obtain ⟨payload', hp'', hok⟩ := hatt
        rw [hp'] at hp''
        cases hp''
        rw [herror] at hok
        cases hok
    | first _ _ hnone _ _ =>
        rw [hnone] at hopen
        cases hopen
    | @superseded batch' hrun hnot =>
        have hbatch : batch' = batch := Attempted.unique hatt hrun.attempt
        subst hbatch
        unfold AllCurrent at hnot
        push Not at hnot
        obtain ⟨m, hm, hold⟩ := hnot
        obtain ⟨a, ha, hcur | hbeyond⟩ := htimed.members m hm
        · rw [ha] at hold
          exact absurd hcur hold
        · exact .dropped hm ha hbeyond
    | @complete batch' metadata hrun _ hpublished _ =>
        have hbatch : batch' = batch := Attempted.unique hatt hrun.attempt
        subst hbatch
        refine .raised fun m hm => ?_
        obtain ⟨marker, hmarker, -⟩ := hpublished m hm
        exact Option.isSome_of_eq_some hmarker
  · rw [htimeout] at hplain
    cases hplain

end Acknowledge

/-! ## Every run -/

theorem Alarmed.action {policy : ApplyRetryPolicy} {w w' : World} {o : OrchOp} (h : Alarmed w)
    (ho : Orderly w) (ht : Tidy w) (ha : Action policy w o w') : Alarmed w' := by
  cases ha with
  | idle _ => exact h
  | raise _ => exact h
  | alarm _ hstep => exact h.alarm ht hstep
  | @deliver g n hp hd _ =>
      cases g with
      | config => exact h.regrouped _ rfl rfl rfl
      | results => exact h.deliver ho ht hp hd
      | retries => exact h.regrouped _ rfl rfl rfl
  | prepare _ _ _ _ _ _ => exact h.mark rfl
  | stageApplication hrun hnone hv _ => exact h.stageApplication ht hrun hnone hv
  | stageDevice _ _ _ _ => exact h.stageDevice rfl
  | publishCommand _ _ =>
      exact h.marked rfl (World.mark_hash_self _ _ _) (fun _ hk => World.mark_hash_of_ne _ _ _ hk)
        rfl rfl rfl rfl
  | ackConfig _ _ => exact h.regrouped _ rfl rfl rfl
  | resultDevice _ _ _ => exact h.stageDevice rfl
  | resultApplication hrun hdevice hnone => exact h.stageResult ht hrun hdevice hnone
  | ackResult hp hplain _ hcleared =>
      refine h.ack ht hp (fun htimeout => ?_) fun _ => hcleared
      rw [hplain] at htimeout
      cases htimeout
  | timeoutDevice _ _ hfirst _ _ _ => exact h.timeoutDevice hfirst
  | timeoutApplication hrun hcur hdevice hnone hv =>
      exact h.stageTimeout ho ht hrun hcur hdevice hnone hv
  | scheduleRetry _ _ _ _ _ =>
      exact h.marked rfl (World.mark_hash_self _ _ _) (fun _ hk => World.mark_hash_of_ne _ _ _ hk)
        rfl rfl rfl rfl
  | ackTimeout hp htimeout hdone => exact h.ackTimeout ht hp htimeout hdone
  | retryApplication _ hcur _ _ _ => exact h.stageRetry hcur
  | retryDevice _ _ _ _ _ => exact h.stageDevice rfl
  | retryBatch _ _ => exact h.mark rfl
  | retryCommand _ _ =>
      exact h.marked rfl (World.mark_hash_self _ _ _) (fun _ hk => World.mark_hash_of_ne _ _ _ hk)
        rfl rfl rfl rfl
  | ackRetry _ _ => exact h.regrouped _ rfl rfl rfl

theorem Alarmed.frame {s t : World} (h : Alarmed s) (ht : Tidy s) (hst : Frame s t) :
    Alarmed t := by
  refine h.kept (by rw [hst.orch]) hst.config hst.attempts (fun _ _ => pending_frame ht hst)
    (fun k _ hk => ?_) fun k _ => by rw [hst.orch]
  rw [hst.orch]
  exact hk

theorem timeoutAlarms_verified (policy : ApplyRetryPolicy) :
    Verified (orchestrator policy unrestricted) (fun w => Orderly w ∧ Tidy w ∧ Alarmed w)
      (fun _ => contract policy) (fun _ _ _ _ => True) where
  inv _ _ h := h.1
  allow _ _ _ _ _ := trivial
  init := by
    rintro _ ⟨inventory, hwsim, rfl⟩
    exact ⟨orderly_init _ _, tidy_init _ _, alarmed_init _ _⟩
  starts _ s p _ hp := safe_handlers hp s
  call := by
    rintro i o ch w ⟨ho, ht, ha⟩ hguard _
    cases o with
    | syncd o => exact hguard.elim
    | orch o =>
        exact ⟨⟨ho.action (hguard ch), ht.action (hguard ch), ha.action ho ht (hguard ch)⟩,
          fun j hj => absurd rfl hj⟩
  crash i s h _ := ⟨h, fun j hj => absurd rfl hj⟩
  env := by
    rintro s t ⟨ho, ht, ha⟩ henv
    exact ⟨⟨ho.surroundings henv, ht.surroundings henv, ha.frame ht henv.frame⟩,
      fun _ => henv.frame⟩

/-- No time-out alarm outlives a success: when no result is in hand, the application of a
connection with an active alarm is neither active nor absent. -/
theorem timeout_alarm_not_settled {policy : ApplyRetryPolicy}
    {c : Config Op Op.Reply Raised Bool World Unit}
    (h : Reachable (orchestrator policy unrestricted) c)
    (hidle : c.world.orch.resultGroup.pending = []) {id : String}
    (hactive : (c.world.orch.hash (.activeAlarm id)).isSome) {a : Application}
    (ha : c.world.orch.appl[id]? = some a) :
    a.applyStatus ≠ .active ∧ a.applyStatus ≠ .absent := by
  obtain ⟨-, -, halarmed⟩ := (timeoutAlarms_verified policy).invariant h
  rw [← not_or]
  intro hsettled
  obtain ⟨n, r, hp, -⟩ := halarmed.success id a hactive ha hsettled
  have hmem : n ∈ c.world.orch.resultGroup.pending := hp.mem
  rw [hidle] at hmem
  cases hmem

/-- The time-out of two connections is handled to its end. -/
def pairAlarmed : World := afterCalls 60 (processResultOne {}) pairTimedOut

/-- A run with an active alarm. -/
theorem timeout_alarm_not_settled_pairAlarmed :
    Reachable (orchestrator {} unrestricted) (quiet pairAlarmed) ∧
      pairAlarmed.orch.resultGroup.pending = [] ∧
      (pairAlarmed.orch.hash (.activeAlarm "a")).isSome ∧
      ∃ a, pairAlarmed.orch.appl["a"]? = some a ∧
        a.applyStatus ≠ .active ∧ a.applyStatus ≠ .absent := by
  have hreach : Reachable (orchestrator {} unrestricted) (quiet pairAlarmed) :=
    quiet_afterCalls pairTimedOut_reachable (.inr (.inl rfl)) 60 (along_unrestricted _ _ _)
  have hidle : (quiet pairAlarmed).world.orch.resultGroup.pending = [] := by decide +kernel
  have hactive : ((quiet pairAlarmed).world.orch.hash (.activeAlarm "a")).isSome := by
    decide +kernel
  have hsome : ((quiet pairAlarmed).world.orch.appl["a"]?).isSome := by decide +kernel
  obtain ⟨a, ha⟩ := Option.isSome_iff_exists.mp hsome
  exact ⟨hreach, hidle, hactive, a, ha, timeout_alarm_not_settled hreach hidle hactive ha⟩

end MiniOcs.Orch
