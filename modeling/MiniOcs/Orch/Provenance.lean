import MiniOcs.Orch.Service
import MiniOcs.Provenance

/-!
# The orchestrator passes the log on

Whatever the handlers publish, prepare, issue or schedule comes from the configuration log. The
log and the command stream are those of some later moment.
-/
namespace MiniOcs.Orch
open Concurrent

section

variable {events : List Gnmi.ConfigEvent} {commands : List CommandEvent} {α : Type}

/-! ## Rules -/

theorem Passes.send {Q : α → Prop} {o : OrchOp} {k : o.Reply → Service α}
    (ha : OrchAsks events o) (hk : ∀ r, OrchTold events o r → Passes events commands Q (k r)) :
    Passes events commands Q (Orch.send o >>= k) := ⟨ha, hk⟩

theorem Passes.last {o : OrchOp} {Q : o.Reply → Prop} (ha : OrchAsks events o)
    (hQ : ∀ r, OrchTold events o r → Q r) : Passes events commands Q (Orch.send o) := ⟨ha, hQ⟩

theorem Passes.raise {Q : α → Prop} {e : Raised} :
    Passes events commands Q (Orch.raise e : Service α) := ⟨trivial, fun _ _ => trivial⟩

theorem respects_acknowledge (g : OrchGroup) (n : Nat) :
    Respects events commands (acknowledge g n) :=
  Passes.send trivial fun _ _ => trivial

theorem passes_nextMessage (g : OrchGroup) : Passes events commands
    (fun message => ∀ n event, message = some (n, event) → EntryOk events g event)
    (nextMessage g) := by
  refine Passes.send trivial fun candidate _ => ?_
  cases candidate with
  | none => exact Passes.last trivial fun _ h => h
  | some n =>
      refine Passes.send trivial fun claimed hclaimed => ?_
      cases claimed with
      | none => exact Passes.last trivial fun _ h => h
      | some event =>
          intro n' event' heq
          cases heq
          exact hclaimed event rfl

theorem respects_publish {copy : Copy} {marker : OrchKey} {fields : OrchHash marker} {version : Nat}
    {hashes : List (String × Option Application)} (hmarker : OrchHashOk events marker fields)
    (hhashes : ∀ entry ∈ hashes, ∀ a, entry.2 = some a → Intended events entry.1 a) :
    Respects events commands (publish copy marker fields version hashes) := by
  refine Passes.send ⟨hmarker, hhashes⟩ fun published _ => ?_
  cases published with
  | none => exact Passes.raise
  | some _ => trivial

theorem respects_require (source target : ConnectionApplyStatus) :
    Respects events commands (require source target) := by
  unfold require
  cases requireTransition source target with
  | error e => exact Passes.raise
  | ok _ => trivial

/-- Decoding keeps the upserts. -/
theorem sourced_decode {payload batch : DeviceCommandBatch} (h : Sourced events payload.commands)
    (hdec : decodeDeviceCommand payload = .ok batch) : Sourced events batch.commands := by
  obtain ⟨rfl, -, -⟩ := decodeDeviceCommand_ok hdec
  have hupsert : ∀ c : ConnectionCommand, (decodeCommand c).operation = .upsert →
      decodeCommand c = c := by
    intro c hop
    unfold decodeCommand at hop ⊢
    cases hc : c.operation with
    | remove => simp [hc] at hop
    | upsert => rfl
  have hid : ∀ c : ConnectionCommand, (decodeCommand c).id = c.id := by
    intro c
    unfold decodeCommand
    cases c.operation <;> rfl
  refine ⟨fun c hc => ?_, fun c hc hop c' hc' heq => ?_⟩
  · obtain ⟨c₀, hmem, rfl⟩ := List.mem_map.mp hc
    intro hop
    have heq := hupsert c₀ hop
    rw [heq] at hop ⊢
    exact h.logged c₀ hmem hop
  · obtain ⟨c₀, hmem, rfl⟩ := List.mem_map.mp hc
    obtain ⟨c₁, hmem', rfl⟩ := List.mem_map.mp hc'
    rw [hid, hid] at heq
    have hop₀ : c₀.operation = .upsert := by rw [← hupsert c₀ hop]; exact hop
    rw [h.definite c₀ hmem hop₀ c₁ hmem' heq]

/-! ## Configuration events -/

theorem passes_selectCommands (selected rest : List ConnectionCommand) : Passes events commands
    (fun chosen => ∀ batch, chosen = some batch → batch ⊆ selected ++ rest)
    (selectCommands selected rest) := by
  induction rest generalizing selected with
  | nil =>
      rintro batch ⟨⟩
      simp
  | cons command rest ih =>
      refine Passes.send trivial fun existing _ => ?_
      split_ifs
      · nofun
      · refine (ih selected).mono fun chosen h batch hb => ?_
        exact List.Subset.trans (h batch hb) (by simp [List.subset_def]; tauto)
      · refine (ih (selected ++ [command])).mono fun chosen h batch hb => ?_
        simpa using h batch hb

theorem passes_configApplications {event : Gnmi.ConfigEvent}
    {hashes : List (String × Option Application)} {batch : List ConnectionCommand}
    (hhashes : ∀ entry ∈ hashes, ∀ a, entry.2 = some a → Intended events entry.1 a)
    (hbatch : ∀ c ∈ batch, Logged events c) : Passes events commands
      (fun hashes => ∀ entry ∈ hashes, ∀ a, entry.2 = some a → Intended events entry.1 a)
      (configApplications event hashes batch) := by
  induction batch generalizing hashes with
  | nil => exact hhashes
  | cons command rest ih =>
      refine Passes.send trivial fun existing _ => ?_
      cases startApplyTransition (currentStatus existing) command.operation with
      | error e => exact Passes.raise
      | ok status =>
          refine ih (fun entry hmem a ha => ?_) fun c hc => hbatch c (List.mem_cons_of_mem _ hc)
          rcases List.mem_append.mp hmem with hmem | hmem
          · exact hhashes entry hmem a ha
          · cases List.mem_singleton.mp hmem
            cases ha
            exact ⟨rfl, hbatch command List.mem_cons_self⟩

theorem respects_publishConfig (n : Nat) (event : Gnmi.ConfigEvent) {batch : DeviceCommandBatch}
    (hsourced : Sourced events batch.commands)
    (hdec : decodeDeviceCommand batch = .ok batch) :
    Respects events commands (publishConfig n event batch) := by
  refine (passes_configApplications (by simp) hsourced.logged).bind fun hashes hhashes => ?_
  refine Prog.Given.bind (respects_publish (by trivial) hhashes) fun _ _ => ?_
  refine Prog.Given.bind (respects_publish (by trivial) hhashes) fun _ _ => ?_
  exact Passes.send ⟨rfl, hsourced, hdec⟩ fun _ _ => respects_acknowledge _ n

theorem respects_resumePrepared (n : Nat) (event : Gnmi.ConfigEvent)
    {prepared : Option DeviceCommandBatch}
    (h : ∀ payload, prepared = some payload → Sourced events payload.commands) :
    Respects events commands (resumePrepared n event prepared) := by
  unfold resumePrepared
  cases prepared with
  | none => exact Passes.raise
  | some payload =>
      dsimp only
      cases hdec : decodeDeviceCommand payload with
      | error message => exact Passes.raise
      | ok batch =>
          exact respects_publishConfig n event (sourced_decode (h payload rfl) hdec)
            (decodeDeviceCommand_decoded hdec)

theorem respects_prepareConfig (n : Nat) (event : Gnmi.ConfigEvent) {decoded : DeviceCommandBatch}
    (h : Sourced events decoded.commands) :
    Respects events commands (prepareConfig n event decoded) := by
  refine (passes_selectCommands [] decoded.commands).bind fun selected hselected => ?_
  match selected with
  | none => exact respects_acknowledge _ n
  | some [] => exact respects_acknowledge _ n
  | some (command :: rest) =>
      have hsub : Sourced events (command :: rest) := h.subset (hselected _ rfl)
      refine Passes.send hsub fun _ _ => ?_
      exact Passes.send trivial fun prepared hprepared => respects_resumePrepared n event hprepared

theorem sourced_decodeConfigBatchEvent {event : Gnmi.ConfigEvent} (hmem : event ∈ events)
    (hdefinite : Definite event.commands) {decoded : DeviceCommandBatch}
    (hdec : decodeConfigBatchEvent event = .ok decoded) : Sourced events decoded.commands := by
  unfold decodeConfigBatchEvent at hdec
  split_ifs at hdec
  split at hdec
  · cases hdec
  rename_i batch hbatch
  split_ifs at hdec
  cases hdec
  refine sourced_decode ?_ hbatch
  exact ⟨fun c hc _ => ⟨event, hmem, hc⟩, hdefinite⟩

theorem respects_processConfigOne (hdefinite : ∀ event ∈ events, Definite event.commands) :
    Respects events commands processConfigOne := by
  refine (passes_nextMessage .config).bind fun message hmessage => ?_
  match message with
  | none => trivial
  | some (n, event) =>
      have hmem : event ∈ events := hmessage n event rfl
      refine Passes.send trivial fun published _ => ?_
      cases published with
      | some _ => exact respects_acknowledge _ n
      | none =>
          refine Passes.send trivial fun prepared hprepared => ?_
          match prepared with
          | some payload => exact respects_resumePrepared n event hprepared
          | none =>
              dsimp only
              cases hdec : decodeConfigBatchEvent event with
              | error message => exact Passes.raise
              | ok decoded =>
                  exact respects_prepareConfig n event
                    (sourced_decodeConfigBatchEvent hmem (hdefinite event hmem) hdec)

/-! ## Results and timeouts -/

theorem respects_countRaisedAlarm (connection : String) (marker : Option AlarmMarker) :
    Respects events commands (countRaisedAlarm connection marker) := by
  unfold countRaisedAlarm
  cases marker with
  | none => exact Passes.raise
  | some marker =>
      dsimp only
      split_ifs
      · exact Passes.send trivial fun _ _ => trivial
      · trivial

theorem respects_publishTimeoutAlarm (result : ResultEvent) (command : CommandId)
    (connection message : String) :
    Respects events commands (publishTimeoutAlarm result command connection message) := by
  refine Passes.send trivial fun published _ => ?_
  refine Passes.send trivial fun active _ => ?_
  cases published with
  | some marker => exact respects_countRaisedAlarm connection _
  | none =>
      refine Passes.send trivial fun now _ => ?_
      refine Passes.send trivial fun _ _ => ?_
      exact Passes.send trivial fun marker _ => respects_countRaisedAlarm connection marker

theorem respects_countClearedAlarm (connection : String) (marker : Option AlarmMarker) :
    Respects events commands (countClearedAlarm connection marker) := by
  unfold countClearedAlarm
  cases marker with
  | none => exact Passes.raise
  | some marker => exact Passes.send trivial fun _ _ => trivial

theorem respects_clearTimeoutAlarm (result : ResultEvent) :
    Respects events commands (clearTimeoutAlarm result) := by
  refine Passes.send trivial fun published _ => ?_
  refine Passes.send trivial fun active _ => ?_
  cases published with
  | some marker => exact respects_countClearedAlarm _ _
  | none =>
      cases active with
      | none => trivial
      | some alarm =>
          refine Passes.send trivial fun now _ => ?_
          refine Passes.send trivial fun _ _ => ?_
          exact Passes.send trivial fun marker _ => respects_countClearedAlarm _ marker

theorem respects_clearAfterSuccess (result : ResultEvent) :
    Respects events commands (clearAfterSuccess result) := by
  unfold clearAfterSuccess
  split_ifs
  · exact respects_clearTimeoutAlarm result
  · trivial

theorem Intended.of_intent {id : String} {a b : Application} (h : Intended events id a)
    (hid : b.id = a.id) (hintent : b.intent = a.intent) : Intended events id b :=
  ⟨hid.trans h.keyed, by rw [hintent]; exact h.logged⟩

theorem intended_resultApplication {id : String} {a : Application} (h : Intended events id a)
    (result : ResultEvent) (next : ConnectionApplyStatus) :
    Intended events id (resultApplication result next a) := by
  refine Intended.of_intent h ?_ ?_
  · unfold resultApplication
    dsimp only
    split_ifs <;> rfl
  · unfold resultApplication
    dsimp only
    split_ifs <;> rfl

theorem respects_settleResult (n : Nat) (result : ResultEvent) :
    Respects events commands (settleResult n result) := by
  refine Passes.send trivial fun existing hexisting => ?_
  cases existing with
  | none => exact respects_acknowledge _ n
  | some application =>
      dsimp only
      cases resultDecision result application with
      | stale => exact respects_acknowledge _ n
      | newer => exact Passes.raise
      | invalid e => exact Passes.raise
      | publish next =>
          have hnext := intended_resultApplication (hexisting application rfl) result next
          refine Prog.Given.bind (respects_publish (by trivial) ?_) fun _ _ => ?_
          · intro entry hmem a ha
            cases List.mem_singleton.mp hmem
            simp only [resultDeviceHash] at ha
            split_ifs at ha
            cases ha
            exact hnext
          refine Prog.Given.bind (respects_publish (by trivial) ?_) fun _ _ => ?_
          · intro entry hmem a ha
            cases List.mem_singleton.mp hmem
            cases ha
            exact hnext
          exact (respects_clearAfterSuccess result).bind fun _ _ => respects_acknowledge _ n

theorem respects_handleResult (n : Nat) (result : ResultEvent) :
    Respects events commands (handleResult n result) := by
  refine Passes.send trivial fun application _ => ?_
  cases application with
  | none => exact respects_settleResult n result
  | some _ =>
      refine Passes.send trivial fun device _ => ?_
      cases device with
      | none => exact respects_settleResult n result
      | some _ => exact (respects_clearAfterSuccess result).bind fun _ _ => respects_acknowledge _ n

/-- The hashes of a loop over a batch, when each is the update of what was read. -/
abbrev AllIntended (events : List Gnmi.ConfigEvent)
    (hashes : Option (List (String × Option Application))) : Prop :=
  ∀ entries, hashes = some entries → ∀ entry ∈ entries, ∀ a, entry.2 = some a →
    Intended events entry.1 a

theorem AllIntended.snoc {hashes : List (String × Option Application)}
    (h : AllIntended events (some hashes)) {id : String} {a : Application}
    (ha : Intended events id a) : AllIntended events (some (hashes ++ [(id, some a)])) := by
  rintro entries ⟨⟩ entry hmem b hb
  rcases List.mem_append.mp hmem with hmem | hmem
  · exact h hashes rfl entry hmem b hb
  · cases List.mem_singleton.mp hmem
    cases hb
    exact ha

theorem passes_timeoutApplications (result : ResultEvent) (metadata : TimeoutMetadata)
    (hashes : List (String × Option Application)) (batch : List ConnectionCommand)
    (h : AllIntended events (some hashes)) : Passes events commands (AllIntended events)
      (timeoutApplications result metadata hashes batch) := by
  induction batch generalizing hashes with
  | nil => exact h
  | cons command rest ih =>
      refine Passes.send trivial fun existing hexisting => ?_
      cases existing with
      | none => nofun
      | some application =>
          dsimp only
          split_ifs
          · exact ih _ (h.snoc (Intended.of_intent (hexisting application rfl) rfl rfl))
          · nofun

theorem respects_raiseTimeoutAlarms (result : ResultEvent) (batch : List ConnectionCommand) :
    Respects events commands (raiseTimeoutAlarms result batch) := by
  induction batch with
  | nil => trivial
  | cons command rest ih =>
      exact (respects_publishTimeoutAlarm result _ _ _).bind fun _ _ => ih

theorem respects_publishTimeout (result : ResultEvent) {batch : DeviceCommandBatch}
    (h : Sourced events batch.commands) (metadata : TimeoutMetadata) :
    Respects events commands (publishTimeout result batch metadata) := by
  refine (passes_timeoutApplications result metadata [] batch.commands ?_).bind
    fun hashes hhashes => ?_
  · rintro entries ⟨⟩ entry hmem
    cases hmem
  cases hashes with
  | none => trivial
  | some hashes =>
      refine Prog.Given.bind (respects_publish (by trivial) (hhashes hashes rfl)) fun _ _ => ?_
      refine Prog.Given.bind (respects_publish (by trivial) (hhashes hashes rfl)) fun _ _ => ?_
      refine (respects_raiseTimeoutAlarms result batch.commands).bind fun _ _ => ?_
      unfold scheduleRetry
      split_ifs
      · exact Passes.send ⟨trivial, h⟩ fun _ _ => trivial
      · trivial

theorem respects_firstTimeout (policy : ApplyRetryPolicy) (result : ResultEvent)
    (first : Option Application) :
    Respects events commands (firstTimeout policy result first) := by
  unfold firstTimeout
  cases first with
  | none => trivial
  | some application =>
      dsimp only
      split_ifs
      · trivial
      · trivial
      · refine (respects_require _ _).bind fun _ _ => ?_
        exact (respects_require _ _).bind fun _ _ => Passes.send trivial fun _ _ => trivial
      · exact (respects_require _ _).bind fun _ _ => trivial

theorem respects_handleTimeout (policy : ApplyRetryPolicy) (result : ResultEvent)
    {batch : DeviceCommandBatch} (h : Sourced events batch.commands) (front : ConnectionCommand) :
    Respects events commands (handleTimeout policy result batch front) := by
  refine Passes.send trivial fun published _ => ?_
  cases published with
  | some metadata => exact respects_publishTimeout result h metadata
  | none =>
      refine Passes.send trivial fun published _ => ?_
      cases published with
      | some metadata => exact respects_publishTimeout result h metadata
      | none =>
          refine Passes.send trivial fun first _ => ?_
          refine (respects_firstTimeout policy result first).bind fun metadata _ => ?_
          cases metadata with
          | none => trivial
          | some metadata => exact respects_publishTimeout result h metadata

theorem respects_handleTimeoutResult (policy : ApplyRetryPolicy) (result : ResultEvent) :
    Respects events commands (handleTimeoutResult policy result) := by
  refine Passes.send trivial fun attempt hattempt => ?_
  cases attempt with
  | none => trivial
  | some payload =>
      dsimp only
      cases hdec : decodeDeviceCommand payload with
      | error message => trivial
      | ok batch =>
          have hsourced := sourced_decode (hattempt payload rfl) hdec
          cases hcommands : batch.commands with
          | nil => simp only [hcommands]; trivial
          | cons front rest =>
              simp only [hcommands]
              exact respects_handleTimeout policy result hsourced front

theorem respects_processResultOne (policy : ApplyRetryPolicy) :
    Respects events commands (processResultOne policy) := by
  refine (passes_nextMessage .results).bind fun message _ => ?_
  match message with
  | none => trivial
  | some (n, result) =>
      dsimp only
      split_ifs
      · exact (respects_handleTimeoutResult policy result).bind fun _ _ => respects_acknowledge _ n
      · exact respects_handleResult n result

/-! ## Retries -/

theorem passes_retryApplications (retry : RetryEvent) (started : Bool)
    (hashes : List (String × Option Application)) (batch : List ConnectionCommand)
    (h : AllIntended events (some hashes)) : Passes events commands (AllIntended events)
      (retryApplications retry started hashes batch) := by
  induction batch generalizing hashes with
  | nil => exact h
  | cons command rest ih =>
      refine Passes.send trivial fun existing hexisting => ?_
      cases existing with
      | none => nofun
      | some application =>
          have hnext := ih _ (h.snoc (Intended.of_intent (b := retryApplication retry started command
            application) (hexisting application rfl) rfl rfl))
          dsimp only
          split_ifs
          · exact hnext
          · exact (respects_require _ _).bind fun _ _ => hnext
          · nofun

theorem respects_publishRetry (n : Nat) (retry : RetryEvent) {batch : DeviceCommandBatch}
    (h : Sourced events batch.commands) (hdec : decodeDeviceCommand batch = .ok batch)
    (started : Bool) : Respects events commands (publishRetry n retry batch started) := by
  refine (passes_retryApplications retry started [] batch.commands ?_).bind
    fun hashes hhashes => ?_
  · rintro entries ⟨⟩ entry hmem
    cases hmem
  cases hashes with
  | none => exact respects_acknowledge _ n
  | some hashes =>
      refine Prog.Given.bind (respects_publish (by trivial) (hhashes hashes rfl)) fun _ _ => ?_
      refine Prog.Given.bind (respects_publish (by trivial) (hhashes hashes rfl)) fun _ _ => ?_
      refine Passes.send h fun _ _ => ?_
      exact Passes.send ⟨rfl, h, hdec⟩ fun _ _ => respects_acknowledge _ n

theorem respects_processRetryOne : Respects events commands processRetryOne := by
  refine (passes_nextMessage .retries).bind fun message hmessage => ?_
  match message with
  | none => trivial
  | some (n, retry) =>
      refine Passes.send trivial fun now _ => ?_
      split_ifs
      · trivial
      · cases hdec : decodeDeviceCommand retry.batch with
        | error message => exact Passes.raise
        | ok batch =>
            have hsourced := sourced_decode (hmessage n retry rfl) hdec
            have hdecoded := decodeDeviceCommand_decoded hdec
            refine Passes.send trivial fun published _ => ?_
            cases published with
            | some _ => exact respects_acknowledge _ n
            | none =>
                refine Passes.send trivial fun application _ => ?_
                cases application with
                | some _ => exact respects_publishRetry n retry hsourced hdecoded true
                | none =>
                    exact Passes.send trivial fun device _ =>
                      respects_publishRetry n retry hsourced hdecoded _

end

end MiniOcs.Orch
