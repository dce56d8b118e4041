import MiniOcs.Concurrent.Stream
import MiniOcs.Gnmi.Serializable

/-!
# The configuration log

One committed Set as a step of CONFIG_DB, and what every event of a log of such steps
satisfies: distinct members at the version of the event, ports inside the inventory, and
removals only of what is configured.
-/
namespace MiniOcs.Gnmi
open Std Concurrent

/-- A Set that is accepted and changes something. -/
inductive Commits (inventory : Inventory) (db : ConfigDb) : ConfigDb → Prop
  | intro {plan : SetPlan} {timestampNs eventId : Nat} {candidate : CandidateMutation} :
      plan.device = inventory.device →
      evaluate inventory plan timestampNs db = .ok candidate → candidate.changes ≠ [] →
      (∀ event ∈ db.events, event.eventId ≠ eventId) →
      Commits inventory db {
        connections := applyChanges db.connections candidate.changes
        revision := some candidate.revision
        events := db.events ++
          [eventFields plan eventId candidate.revision candidate.timestampNs candidate.changes] }

/-- The batch of an accepted candidate. -/
structure Batch (table : ConnectionTable) (changes : List CandidateChange) : Prop where
  nodup : (changes.map (·.connectionId)).Nodup
  removes : ∀ change ∈ changes, change.config = none → (table[change.connectionId]?).isSome
  writes : ∀ change ∈ changes,
    (applyChanges table changes)[change.connectionId]? = change.config

theorem buildCandidate_batch {input : CandidateInput} {plan : SetPlan}
    {candidate : CandidateMutation} {table : ConnectionTable}
    (hload : input.current = ConnectionTable.load table)
    (h : buildCandidate input plan = .ok candidate) : Batch table candidate.changes := by
  unfold buildCandidate at h
  split_ifs at h
  split at h
  · cases h
  dsimp only at h
  split at h
  · cases h
  rename_i fin hfin
  cases h
  have hnodup : (touchedIds plan.operations).keys.Nodup := (touchedIds plan.operations).nodup
  refine ⟨(changeIds_sublist _ _ _).nodup hnodup, ?_, ?_⟩
  · intro change hchange hnone
    obtain ⟨id, -, hch⟩ := List.mem_filterMap.mp hchange
    have hid := (changeOf_id hch).1
    rw [hid, ← ConnectionTable.get?_load, ← hload]
    unfold changeOf at hch
    split at hch
    · cases hch
    · rename_i hcur _
      rw [hcur]; rfl
    · cases hch; cases hnone
    · rename_i hcur _
      rw [hcur]; rfl
  · intro change hchange
    obtain ⟨id, hmem, hch⟩ := List.mem_filterMap.mp hchange
    rw [getElem?_applyChanges (f := changeOf input.current fin.configs)
      (fun _ _ hch => (changeOf_id hch).1) hnodup table, (changeOf_id hch).1, if_pos hmem, hch]

/-- What a committed event carries, given the events before it. -/
structure EventOk (inventory : Inventory) (before : List ConfigEvent) (event : ConfigEvent) :
    Prop where
  device : event.device = inventory.device
  nonempty : event.commands ≠ []
  nodup : (event.commands.map (·.id)).Nodup
  named : ∀ command ∈ event.commands, command.id ≠ ""
  ports : ∀ command ∈ event.commands, command.operation = .upsert → ∃ n m,
    portCounts inventory.device inventory.fields = .ok (n, m) ∧
      (1 ≤ command.inputPort ∧ command.inputPort ≤ n) ∧
      1 ≤ command.outputPort ∧ command.outputPort ≤ m
  removes : ∀ command ∈ event.commands, command.operation = .remove →
    command.inputPort = 0 ∧ command.outputPort = 0 ∧ ((replay before)[command.id]?).isSome

/-- A log that Sets have written. -/
structure Log (inventory : Inventory) (db : ConfigDb) : Prop where
  serial : Serial inventory db
  events : ∀ n event, db.events[n]? = some event → EventOk inventory (db.events.take n) event
  ids : ∀ (i j : Nat) (a b : ConfigEvent), db.events[i]? = some a → db.events[j]? = some b →
    a.eventId = b.eventId → i = j

theorem Log.init (inventory : Inventory) : Log inventory {} where
  serial := Serial.init inventory
  events n event h := by simp at h
  ids i j a b h := by simp at h

theorem eventCommand_id (revision : Nat) (change : CandidateChange) :
    (eventCommand revision change).id = change.connectionId := by
  unfold eventCommand
  cases change.config <;> rfl

theorem eventCommand_operation (revision : Nat) (change : CandidateChange) :
    (eventCommand revision change).operation = change.operation := by
  unfold eventCommand
  cases change.config <;> rfl

theorem evaluate_ok {inventory : Inventory} {plan : SetPlan} {timestampNs : Nat} {db : ConfigDb}
    {candidate : CandidateMutation} (h : evaluate inventory plan timestampNs db = .ok candidate) :
    ∃ counts : Nat × Nat, portCounts plan.device inventory.fields = .ok counts ∧
      buildCandidate {
        current := ConnectionTable.load db.connections
        revision := db.revision.getD 0 + 1
        timestampNs := timestampNs
        inputPortCount := counts.1
        outputPortCount := counts.2 } plan = .ok candidate := by
  unfold evaluate evaluateOn at h
  split at h
  · cases h
  rename_i counts hcounts
  split at h
  · cases h
  rename_i cand hbuild
  split at h
  · cases h
  cases h
  exact ⟨counts, hcounts, hbuild⟩

theorem eventOk_eventFields {inventory : Inventory} {db : ConfigDb} (h : Serial inventory db)
    {plan : SetPlan} (hdev : plan.device = inventory.device) {timestampNs eventId : Nat}
    {candidate : CandidateMutation}
    (hcand : evaluate inventory plan timestampNs db = .ok candidate) (hne : candidate.changes ≠ []) :
    EventOk inventory db.events
      (eventFields plan eventId candidate.revision candidate.timestampNs candidate.changes) := by
  obtain ⟨counts, hcounts, hbuild⟩ := evaluate_ok hcand
  rw [hdev] at hcounts
  have hw := buildCandidate_writes h.valid.keyed rfl hbuild
  have hb := buildCandidate_batch rfl hbuild
  have hids : (candidate.changes.map (eventCommand candidate.revision)).map (·.id) =
      candidate.changes.map (·.connectionId) := by
    rw [List.map_map]
    exact List.map_congr_left fun change _ => eventCommand_id _ change
  refine ⟨hdev, by simpa [eventFields] using hne, ?_, ?_, ?_, ?_⟩
  · simp only [eventFields, hids]
    exact hb.nodup
  · simp only [eventFields, List.mem_map]
    rintro command ⟨change, hchange, rfl⟩
    rw [eventCommand_id]
    cases hc : change.config with
    | some config =>
        have hwrite := hb.writes change hchange
        rw [hc] at hwrite
        exact (hw.matching.keyed _ _ hwrite).2
    | none =>
        obtain ⟨config, hconfig⟩ := Option.isSome_iff_exists.mp (hb.removes change hchange hc)
        exact (h.valid.keyed _ _ hconfig).2
  · simp only [eventFields, List.mem_map]
    rintro command ⟨change, hchange, rfl⟩ hop
    rw [eventCommand_operation] at hop
    obtain ⟨config, hc⟩ := Option.isSome_iff_exists.mp ((hw.upsert change hchange).mp hop)
    have hwrite := hb.writes change hchange
    rw [hc] at hwrite
    refine ⟨counts.1, counts.2, hcounts, ?_⟩
    have hrange := hw.matching.range _ _ hwrite
    simpa only [eventCommand, hc] using hrange
  · simp only [eventFields, List.mem_map]
    rintro command ⟨change, hchange, rfl⟩ hop
    rw [eventCommand_operation] at hop
    have hnone : change.config = none := by
      cases hc : change.config with
      | none => rfl
      | some config =>
          have hup := (hw.upsert change hchange).mpr (by rw [hc]; rfl)
          rw [hop] at hup
          cases hup
    refine ⟨by simp [eventCommand, hnone], by simp [eventCommand, hnone], ?_⟩
    rw [eventCommand_id, ← h.replayed, Option.isSome_map]
    exact hb.removes change hchange hnone

theorem Log.commit {inventory : Inventory} {db db' : ConfigDb} (h : Log inventory db)
    (hc : Commits inventory db db') : Log inventory db' := by
  cases hc with
  | @intro plan timestampNs eventId candidate hdev hcand hne hfresh =>
      refine ⟨h.serial.commit hdev hcand, ?_, ?_⟩
      · intro n event hn
        rcases getElem?_concat hn with hn | ⟨rfl, rfl⟩
        · obtain ⟨hlt, -⟩ := List.getElem?_eq_some_iff.mp hn
          rw [List.take_append_of_le_length (Nat.le_of_lt hlt)]
          exact h.events n event hn
        · rw [List.take_left]
          exact eventOk_eventFields h.serial hdev hcand hne
      · intro i j a b hi hj hab
        rcases getElem?_concat hi with hi | ⟨rfl, rfl⟩ <;>
          rcases getElem?_concat hj with hj | ⟨rfl, rfl⟩
        · exact h.ids i j a b hi hj hab
        · exact absurd hab (hfresh a (List.mem_of_getElem? hi))
        · exact absurd hab.symm (hfresh b (List.mem_of_getElem? hj))
        · rfl

/-! ## Computing a commit -/

/-- CONFIG_DB after a Set, if it is accepted and changes something. -/
def commitSet (inventory : Inventory) (plan : SetPlan) (timestampNs eventId : Nat) (db : ConfigDb) :
    Option ConfigDb :=
  match evaluate inventory plan timestampNs db with
  | .error _ => none
  | .ok candidate =>
      if candidate.changes.isEmpty ∨ plan.device ≠ inventory.device ∨
          eventId ∈ db.events.map (·.eventId) then none
      else some {
        connections := applyChanges db.connections candidate.changes
        revision := some candidate.revision
        events := db.events ++
          [eventFields plan eventId candidate.revision candidate.timestampNs candidate.changes] }

theorem commits_commitSet {inventory : Inventory} {plan : SetPlan} {timestampNs eventId : Nat}
    {db db' : ConfigDb} (h : commitSet inventory plan timestampNs eventId db = some db') :
    Commits inventory db db' := by
  unfold commitSet at h
  cases hcand : evaluate inventory plan timestampNs db with
  | error e => rw [hcand] at h; cases h
  | ok candidate =>
      rw [hcand] at h
      dsimp only at h
      split_ifs at h with hbad
      cases h
      simp only [List.isEmpty_iff, not_or, not_not, List.mem_map, not_exists, not_and] at hbad
      exact .intro hbad.2.1 hcand hbad.1 fun event hmem => hbad.2.2 event hmem

end MiniOcs.Gnmi
