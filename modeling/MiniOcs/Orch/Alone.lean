import MiniOcs.Orch.Contract

/-!
# A handler on its own

The calls of a handler that nothing interrupts. The world of the orchestrator does not move
between them.
-/
namespace MiniOcs.Orch
open Std Concurrent

variable {pick : Op → World → Nat} {w : World} {g : OrchGroup} {n : Nat}

theorem alone_send {α : Type} (o : OrchOp) (k : o.Reply → Service α) :
    (send o >>= k).alone exec pick w =
      (k (o.exec (pick (.orch o) w) w).1).alone exec pick (o.exec (pick (.orch o) w) w).2 := rfl

theorem alone_getAppl {α : Type} (id : String) (k : Option Application → Service α) :
    (send (.getAppl id) >>= k).alone exec pick w = (k w.orch.appl[id]?).alone exec pick w := rfl

theorem alone_raise {α : Type} (e : Raised) :
    (raise e : Service α).alone exec pick w = (.error e, w) := rfl

theorem alone_acknowledge : (acknowledge g n).alone exec pick w =
    (.ok true, w.acknowledge g n) := rfl

theorem alone_publish {copy : Copy} {marker : OrchKey} {fields : OrchHash marker} {version : Nat}
    {hashes : List (String × Option Application)} (hnone : w.orch.hash marker = none)
    (hmatch : versionsMatch version hashes = true) :
    (publish copy marker fields version hashes).alone exec pick w =
      (.ok (), w.stage copy marker fields version hashes) := by
  have hexec : ∀ choice, (OrchOp.putVersionedHashes copy marker fields version hashes).exec choice w =
      (some true, w.stage copy marker fields version hashes) :=
    exec_putVersionedHashes_absent hnone hmatch
  unfold publish
  rw [alone_send, hexec]
  rfl

/-- A hash of another version is refused, and nothing is written. -/
theorem alone_publish_mismatch {copy : Copy} {marker : OrchKey} {fields : OrchHash marker}
    {version : Nat} {hashes : List (String × Option Application)}
    (hnone : w.orch.hash marker = none) (hmatch : versionsMatch version hashes = false) :
    (publish copy marker fields version hashes).alone exec pick w =
      (.error (.invalidArgument "versioned Redis hash does not match marker desired_version"), w) := by
  have hexec : ∀ choice, (OrchOp.putVersionedHashes copy marker fields version hashes).exec choice w =
      (none, w) := by
    intro choice
    simp only [OrchOp.exec, hnone, hmatch]
    rfl
  unfold publish
  rw [alone_send, hexec]
  rfl

/-- A publication that was made before. -/
theorem alone_publish_again {copy : Copy} {marker : OrchKey} {fields : OrchHash marker}
    {version : Nat} {hashes : List (String × Option Application)}
    (hsome : (w.orch.hash marker).isSome) :
    (publish copy marker fields version hashes).alone exec pick w = (.ok (), w) := by
  have hexec : ∀ choice, (OrchOp.putVersionedHashes copy marker fields version hashes).exec choice w =
      (some false, w) := by
    intro choice
    simp only [OrchOp.exec, hsome]
    rfl
  unfold publish
  rw [alone_send, hexec]
  rfl

/-! ## Alarms -/

theorem AlarmsOnly.refl (w : World) : AlarmsOnly w w :=
  ⟨rfl, rfl, rfl, rfl, rfl, rfl, rfl, rfl, fun _ => rfl, fun _ _ => rfl⟩

theorem AlarmsOnly.trans {a b c : World} (h₁ : AlarmsOnly a b) (h₂ : AlarmsOnly b c) :
    AlarmsOnly a c :=
  ⟨h₂.inventory.trans h₁.inventory, h₂.config.trans h₁.config, h₂.syncd.trans h₁.syncd,
    h₂.commands.trans h₁.commands, h₂.hwsim.trans h₁.hwsim, h₂.appl.trans h₁.appl,
    h₂.device.trans h₁.device, h₂.retries.trans h₁.retries,
    fun g => (h₂.group g).trans (h₁.group g), fun k hk => (h₂.hash k hk).trans (h₁.hash k hk)⟩

theorem alone_countRaisedAlarm (connection : String) (marker : AlarmMarker) :
    ∃ w', (countRaisedAlarm connection (some marker)).alone exec pick w = (.ok (), w') ∧
      AlarmsOnly w w' := by
  unfold countRaisedAlarm
  dsimp only
  split_ifs
  · rw [alone_send]
    simp only [OrchOp.exec]
    by_cases hset : (w.orch.hash
        (.alarmCounterPublication connection marker.activationId false)).isSome
    · rw [once_some hset]
      exact ⟨w, rfl, .refl w⟩
    · rw [once_none (by simpa using hset)]
      exact ⟨_, rfl, alarmsOnly_countAlarm rfl⟩
  · exact ⟨w, rfl, .refl w⟩

theorem alone_publishTimeoutAlarm (result : ResultEvent) (command : CommandId)
    (connection message : String) :
    ∃ w', (publishTimeoutAlarm result command connection message).alone exec pick w = (.ok (), w') ∧
      AlarmsOnly w w' := by
  unfold publishTimeoutAlarm
  dsimp only
  rw [alone_send, alone_send]
  simp only [OrchOp.exec]
  cases hmarker : w.orch.hash (.alarmPublication (.timeout command connection)) with
  | some marker => exact alone_countRaisedAlarm connection marker
  | none =>
      dsimp only
      rw [alone_send, alone_send]
      simp only [OrchOp.exec]
      rw [once_none hmarker, alone_send]
      simp only [OrchOp.exec, World.mark_hash_self]
      obtain ⟨w', hrun, honly⟩ := alone_countRaisedAlarm connection _
      exact ⟨w', hrun, (alarmsOnly_putAlarm rfl).trans honly⟩

/-- The alarms of all members, whatever was raised and counted before. -/
theorem alone_raiseTimeoutAlarms (result : ResultEvent) (commands : List ConnectionCommand) :
    ∃ w', (raiseTimeoutAlarms result commands).alone exec pick w = (.ok (), w') ∧
      AlarmsOnly w w' := by
  induction commands generalizing w with
  | nil => exact ⟨w, rfl, .refl w⟩
  | cons command rest ih =>
      obtain ⟨w₁, hone, hfirst⟩ := alone_publishTimeoutAlarm result result.commandId command.id
        result.errorMessage
      obtain ⟨w₂, hall, hrest⟩ := ih
      refine ⟨w₂, ?_, hfirst.trans hrest⟩
      unfold raiseTimeoutAlarms
      rw [Prog.alone_bind_ok hone]
      exact hall

/-! ## Time-outs -/

theorem alone_timeoutApplications {result : ResultEvent} {metadata : TimeoutMetadata}
    {hashes : List (String × Option Application)} {commands : List ConnectionCommand}
    (h : ∀ c ∈ commands,
      isCurrent c.desiredVersion result.commandId w.orch.appl[c.id]? = true) :
    (timeoutApplications result metadata hashes commands).alone exec pick w =
      (.ok (some (hashes ++ timeoutHashes w.orch.appl result metadata commands)), w) := by
  induction commands generalizing hashes with
  | nil =>
      rw [timeoutHashes, List.map_nil, List.append_nil]
      rfl
  | cons command rest ih =>
      have hcurrent := h command List.mem_cons_self
      obtain ⟨a, ha, -, -⟩ := isCurrent_some hcurrent
      unfold timeoutApplications
      rw [alone_getAppl, ha]
      dsimp only
      rw [← ha, if_pos hcurrent, ih fun c hc => h c (List.mem_cons_of_mem _ hc), List.append_assoc]
      simp only [timeoutHashes, List.map_cons, ha, Option.map_some, List.singleton_append]

end MiniOcs.Orch
