import Std.Data.ExtTreeMap
import Mathlib.Tactic.Common
import MiniOcs.Gnmi.Candidate

/-!
# An accepted candidate is a matching

What `buildCandidate` guarantees when it accepts: the connections that result from its
changes have their ports in range and share none, and untouched ids keep their entry.
-/
namespace MiniOcs.Gnmi
open Std

/-- The connection hashes of one device in CONFIG_DB. -/
abbrev ConnectionTable := ExtTreeMap String ConnectionConfig

/-- Keys and hashes as `_load_connections` collects them, in key order. -/
def ConnectionTable.load (table : ConnectionTable) : Dict String ConnectionConfig where
  entries := table.toList
  nodup := by
    rw [ExtTreeMap.map_fst_toList_eq_keys]
    exact ExtTreeMap.nodup_keys

theorem ConnectionTable.get?_load (table : ConnectionTable) (id : String) :
    (ConnectionTable.load table).get? id = table[id]? :=
  Dict.ext_get? fun _ => ExtTreeMap.mem_toList_iff_getElem?_eq_some

/-- Every connection is stored under its own nonempty id, has its ports inside the counts,
and shares none of them. -/
structure Matching (n m : Nat) (table : ConnectionTable) : Prop where
  keyed : ∀ (id : String) (c : ConnectionConfig), table[id]? = some c → c.connectionId = id ∧ id ≠ ""
  range : ∀ (id : String) (c : ConnectionConfig), table[id]? = some c →
    (1 ≤ c.inputPort ∧ c.inputPort ≤ n) ∧ 1 ≤ c.outputPort ∧ c.outputPort ≤ m
  inputs : ∀ (a b : String) (c d : ConnectionConfig), table[a]? = some c → table[b]? = some d →
    c.inputPort = d.inputPort → a = b
  outputs : ∀ (a b : String) (c d : ConnectionConfig), table[a]? = some c → table[b]? = some d →
    c.outputPort = d.outputPort → a = b

theorem Matching.empty (n m : Nat) : Matching n m ∅ := by
  refine ⟨?_, ?_, ?_, ?_⟩ <;> intros <;> simp_all

/-! ## The working copy -/

theorem get?_applyOperation_of_ne {current : Dict String ConnectionConfig} {timestampNs : Nat}
    {working working' : Dict String MutableConnection} {operation : SetOperation}
    (h : applyOperation current timestampNs working operation = .ok working') {id : String}
    (hid : id ≠ operation.connectionId.text) : working'.get? id = working.get? id := by
  unfold applyOperation at h
  cases hk : operation.kind with
  | delete =>
      simp only [hk, Except.ok.injEq] at h
      rw [← h, Dict.get?_pop, if_neg hid]
  | update =>
      simp only [hk, Except.ok.injEq] at h
      rw [← h, Dict.get?_set, if_neg hid]
  | replace =>
      simp only [hk] at h
      cases hi : operation.values.inputPort with
      | none => simp only [hi, reduceCtorEq] at h
      | some i =>
          cases ho : operation.values.outputPort with
          | none => simp only [hi, ho, reduceCtorEq] at h
          | some o =>
              simp only [hi, ho, Except.ok.injEq] at h
              rw [← h, Dict.get?_set, if_neg hid]

theorem get?_applyOperations_of_untouched {current : Dict String ConnectionConfig}
    {timestampNs : Nat} {operations : List SetOperation}
    {working working' : Dict String MutableConnection}
    (h : applyOperations current timestampNs operations working = .ok working') {id : String}
    (hid : ∀ operation ∈ operations, operation.connectionId.text ≠ id) :
    working'.get? id = working.get? id := by
  induction operations generalizing working with
  | nil => cases h; rfl
  | cons operation rest ih =>
      simp only [applyOperations] at h
      split at h
      · cases h
      · rename_i next hnext
        rw [ih h fun op hop => hid op (by simp [hop])]
        exact get?_applyOperation_of_ne hnext fun he => hid operation (by simp) he.symm

/-- Every id of the working copy is one of the loaded ids or one of the plan's. -/
theorem ids_applyOperations {current : Dict String ConnectionConfig} {timestampNs : Nat}
    {operations : List SetOperation} {working working' : Dict String MutableConnection}
    (h : applyOperations current timestampNs operations working = .ok working') {id : String}
    {m : MutableConnection} (hm : working'.get? id = some m) :
    (∃ m', working.get? id = some m') ∨ ∃ operation ∈ operations, operation.connectionId.text = id := by
  by_cases hid : ∃ operation ∈ operations, operation.connectionId.text = id
  · exact .inr hid
  · have hkeep : working'.get? id = working.get? id := get?_applyOperations_of_untouched h
      fun operation hop heq => hid ⟨operation, hop, heq⟩
    exact .inl ⟨m, hkeep ▸ hm⟩

theorem mem_keys_touchedIds {operations : List SetOperation} {id : String} :
    id ∈ (touchedIds operations).keys ↔ ∃ operation ∈ operations, operation.connectionId.text = id := by
  have hfold : ∀ (acc : Dict String Unit), id ∈ (operations.foldl (fun touched operation =>
      touched.setDefault operation.connectionId.text ()) acc).keys ↔
      id ∈ acc.keys ∨ ∃ operation ∈ operations, operation.connectionId.text = id := by
    induction operations with
    | nil => simp
    | cons operation rest ih =>
        intro acc
        rw [List.foldl_cons, ih, Dict.mem_keys_setDefault]
        simp only [List.exists_mem_cons_iff]
        constructor
        · rintro ((rfl | h) | h)
          · exact .inr (.inl rfl)
          · exact .inl h
          · exact .inr (.inr h)
        · rintro (h | rfl | h)
          · exact .inl (.inr h)
          · exact .inl (.inl rfl)
          · exact .inr h
  simpa [touchedIds, Dict.keys, Dict.empty] using hfold Dict.empty

/-! ## The validation loop -/

/-- Every finalized connection owns its two ports in the occupation maps. -/
structure Occupies (input : CandidateInput) (acc : Finalized) : Prop where
  entry : ∀ id c, acc.configs.get? id = some c → id ≠ "" ∧ c.connectionId = id ∧
    ((1 ≤ c.inputPort ∧ c.inputPort ≤ input.inputPortCount) ∧
      1 ≤ c.outputPort ∧ c.outputPort ≤ input.outputPortCount) ∧
    acc.occupiedInputs.get? c.inputPort = some id ∧
    acc.occupiedOutputs.get? c.outputPort = some id
  inputIds : ∀ p id, acc.occupiedInputs.get? p = some id → id ≠ ""
  outputIds : ∀ p id, acc.occupiedOutputs.get? p = some id → id ≠ ""

/-- What one round stores for an id. -/
structure Finalizes (input : CandidateInput) (touched : Dict String Unit) (id : String)
    (m : MutableConnection) (c : ConnectionConfig) : Prop where
  inputPort : m.inputPort = some c.inputPort
  outputPort : m.outputPort = some c.outputPort
  adminStatus : m.adminStatus = c.adminStatus
  touchedVersion : (touched.get? id).isSome → c.desiredVersion = input.revision

theorem Occupies.nil (input : CandidateInput) : Occupies input {} := by
  refine ⟨?_, ?_, ?_⟩ <;> intro _ _ h <;> cases h

theorem occupiedBy_eq_none {occupied : Dict Nat String}
    (hids : ∀ p id, occupied.get? p = some id → id ≠ "") {port : Nat}
    (h : occupiedBy occupied port = none) : occupied.get? port = none := by
  unfold occupiedBy at h
  split at h
  · rename_i previous hprev
    rw [if_neg (hids _ _ hprev)] at h
    cases h
  · assumption

theorem Occupies.store {input : CandidateInput} {acc : Finalized} (h : Occupies input acc)
    {id : String} (hid : id ≠ "") {c : ConnectionConfig} (hc : c.connectionId = id)
    (hrange : (1 ≤ c.inputPort ∧ c.inputPort ≤ input.inputPortCount) ∧
      1 ≤ c.outputPort ∧ c.outputPort ≤ input.outputPortCount)
    (hin : acc.occupiedInputs.get? c.inputPort = none)
    (hout : acc.occupiedOutputs.get? c.outputPort = none) :
    Occupies input { configs := acc.configs.set id c
                     occupiedInputs := acc.occupiedInputs.set c.inputPort id
                     occupiedOutputs := acc.occupiedOutputs.set c.outputPort id } := by
  refine ⟨?_, ?_, ?_⟩
  · intro id' c' hc'
    simp only [Dict.get?_set] at hc'
    split_ifs at hc' with heq
    · cases hc'
      subst heq
      simp [hid, hc, hrange]
    · obtain ⟨hne, hown, hr, hi, ho⟩ := h.entry id' c' hc'
      have hi' : c'.inputPort ≠ c.inputPort := by rintro he; rw [he, hin] at hi; cases hi
      have ho' : c'.outputPort ≠ c.outputPort := by rintro he; rw [he, hout] at ho; cases ho
      simp only [Dict.get?_set, if_neg hi', if_neg ho']
      exact ⟨hne, hown, hr, hi, ho⟩
  · intro p id' hp
    simp only [Dict.get?_set] at hp
    split_ifs at hp
    · cases hp; exact hid
    · exact h.inputIds p id' hp
  · intro p id' hp
    simp only [Dict.get?_set] at hp
    split_ifs at hp
    · cases hp; exact hid
    · exact h.outputIds p id' hp

/-- An accepted round stores one connection and keeps the occupation maps exact. -/
theorem finalizeOne_ok {input : CandidateInput} {touched : Dict String Unit} {acc acc' : Finalized}
    {id : String} {m : MutableConnection} (hacc : Occupies input acc) (hid : id ≠ "")
    (h : finalizeOne input touched acc id m = .ok acc') :
    Occupies input acc' ∧ ∃ c, acc'.configs = acc.configs.set id c ∧
      Finalizes input touched id m c := by
  unfold finalizeOne at h
  split at h
  · rename_i inputPort outputPort hi ho
    by_cases hir : 1 ≤ inputPort ∧ inputPort ≤ input.inputPortCount
    · by_cases hor : 1 ≤ outputPort ∧ outputPort ≤ input.outputPortCount
      · rw [if_neg (not_not.mpr hir), if_neg (not_not.mpr hor)] at h
        cases hoccIn : occupiedBy acc.occupiedInputs inputPort with
        | some previous => simp only [hoccIn, reduceCtorEq] at h
        | none =>
            cases hoccOut : occupiedBy acc.occupiedOutputs outputPort with
            | some previous => simp only [hoccIn, hoccOut, reduceCtorEq] at h
            | none =>
                have hin := occupiedBy_eq_none hacc.inputIds hoccIn
                have hout := occupiedBy_eq_none hacc.outputIds hoccOut
                simp only [hoccIn, hoccOut] at h
                by_cases ht : (touched.get? id).isSome
                · rw [if_pos ht, Except.ok.injEq] at h
                  subst h
                  exact ⟨hacc.store hid rfl ⟨hir, hor⟩ hin hout, _, rfl, hi, ho, rfl, fun _ => rfl⟩
                · rw [if_neg ht] at h
                  cases hcur : input.current.get? id with
                  | none => simp only [hcur, reduceCtorEq] at h
                  | some existing =>
                      simp only [hcur, Except.ok.injEq] at h
                      subst h
                      exact ⟨hacc.store hid rfl ⟨hir, hor⟩ hin hout, _, rfl, hi, ho, rfl,
                        fun hsome => absurd hsome ht⟩
      · rw [if_neg (not_not.mpr hir), if_pos hor] at h
        cases h
    · rw [if_pos hir] at h
      cases h
  · cases h

theorem finalizeAll_ok {input : CandidateInput} {touched : Dict String Unit}
    {entries : List (String × MutableConnection)} {acc fin : Finalized}
    (hnodup : (entries.map Prod.fst).Nodup) (hids : ∀ entry ∈ entries, entry.1 ≠ "")
    (hacc : Occupies input acc) (h : finalizeAll input touched entries acc = .ok fin) :
    Occupies input fin ∧
      (∀ id m, (id, m) ∈ entries → ∃ c, fin.configs.get? id = some c ∧
        Finalizes input touched id m c) ∧
      ∀ id, id ∉ entries.map Prod.fst → fin.configs.get? id = acc.configs.get? id := by
  induction entries generalizing acc with
  | nil =>
      cases h
      exact ⟨hacc, by simp, fun _ _ => rfl⟩
  | cons entry rest ih =>
      obtain ⟨id, m⟩ := entry
      simp only [finalizeAll] at h
      split at h
      · cases h
      · rename_i acc' hone
        obtain ⟨hacc', c, hset, hc⟩ := finalizeOne_ok hacc (hids (id, m) (by simp)) hone
        simp only [List.map_cons, List.nodup_cons] at hnodup
        obtain ⟨hfin, hmem, hkeep⟩ := ih hnodup.2 (fun e he => hids e (by simp [he])) hacc' h
        refine ⟨hfin, ?_, ?_⟩
        · intro id' m' hm'
          rcases List.mem_cons.mp hm' with heq | hrest
          · cases heq
            exact ⟨c, by rw [hkeep _ hnodup.1, hset, Dict.get?_set, if_pos rfl], hc⟩
          · exact hmem id' m' hrest
        · intro id' hid'
          simp only [List.map_cons, List.mem_cons, not_or] at hid'
          rw [hkeep id' hid'.2, hset, Dict.get?_set, if_neg hid'.1]

/-! ## Applying the changes -/

/-- The `DEL` and `HSET` of one change inside the transaction. -/
def applyChange (table : ConnectionTable) (change : CandidateChange) : ConnectionTable :=
  match change.config with
  | some config => (table.erase change.connectionId).insert change.connectionId config
  | none => table.erase change.connectionId

def applyChanges (table : ConnectionTable) (changes : List CandidateChange) : ConnectionTable :=
  changes.foldl applyChange table

theorem getElem?_applyChange (table : ConnectionTable) (change : CandidateChange) (id : String) :
    (applyChange table change)[id]? = if id = change.connectionId then change.config else table[id]? := by
  unfold applyChange
  cases hc : change.config with
  | some config =>
      rw [ExtTreeMap.getElem?_insert, ExtTreeMap.getElem?_erase]
      simp only [Std.compare_eq_iff_eq, eq_comm (a := id)]
      split_ifs <;> rfl
  | none =>
      rw [ExtTreeMap.getElem?_erase]
      simp only [Std.compare_eq_iff_eq, eq_comm (a := id)]

theorem getElem?_applyChanges {f : String → Option CandidateChange}
    (hf : ∀ id change, f id = some change → change.connectionId = id) {ids : List String}
    (hnodup : ids.Nodup) (table : ConnectionTable) (id : String) :
    (applyChanges table (ids.filterMap f))[id]? =
      if id ∈ ids then (match f id with | some change => change.config | none => table[id]?)
      else table[id]? := by
  induction ids generalizing table with
  | nil => rfl
  | cons a rest ih =>
      simp only [List.nodup_cons] at hnodup
      have hstep : ∀ t : ConnectionTable, (applyChanges t (rest.filterMap f))[id]? = _ :=
        fun t => ih hnodup.2 t
      cases hfa : f a with
      | none =>
          rw [List.filterMap_cons_none hfa, hstep]
          by_cases hid : id = a
          · subst hid; simp [hnodup.1, hfa]
          · simp [hid]
      | some change =>
          rw [List.filterMap_cons_some hfa]
          change (applyChanges (applyChange table change) (rest.filterMap f))[id]? = _
          rw [hstep, getElem?_applyChange, hf a change hfa]
          by_cases hid : id = a
          · subst hid; simp [hnodup.1, hfa]
          · simp [hid]

theorem changeOf_id {current finalized : Dict String ConnectionConfig} {id : String}
    {change : CandidateChange} (h : changeOf current finalized id = some change) :
    change.connectionId = id ∧ change.config = finalized.get? id ∧
      (change.operation = .upsert ↔ change.config.isSome) := by
  unfold changeOf at h
  split at h
  · cases h
  · rename_i hfin
    split_ifs at h
    cases h
    simp [hfin]
  · rename_i hfin
    cases h
    simp [hfin]
  · rename_i hfin
    cases h
    simp [hfin]

/-- Ids change at most once, in the order they were touched. -/
theorem changeIds_sublist (current finalized : Dict String ConnectionConfig) (ids : List String) :
    List.Sublist ((ids.filterMap (changeOf current finalized)).map (·.connectionId)) ids := by
  induction ids with
  | nil => exact List.Sublist.refl _
  | cons id rest ih =>
      cases hch : changeOf current finalized id with
      | none =>
          rw [List.filterMap_cons_none hch]
          exact ih.cons id
      | some change =>
          rw [List.filterMap_cons_some hch, List.map_cons, (changeOf_id hch).1]
          exact ih.cons_cons id

/-- An id without a change has the ports it had. -/
theorem changeOf_eq_none {current finalized : Dict String ConnectionConfig} {id : String}
    (h : changeOf current finalized id = none) :
    (current.get? id).map (fun c => (c.inputPort, c.outputPort)) =
      (finalized.get? id).map fun c => (c.inputPort, c.outputPort) := by
  unfold changeOf at h
  split at h
  · rename_i hcur hfin
    rw [hcur, hfin]
  · rename_i existing config hcur hfin
    split_ifs at h with hsame
    simp only [unchanged, Bool.and_eq_true, decide_eq_true_eq] at hsame
    rw [hcur, hfin]
    simp only [Option.map_some, hsame.1.1, hsame.1.2]
  · cases h
  · cases h

/-- What an accepted candidate writes: upserts at its revision, and a table that is again a
matching inside the port counts. -/
structure Writes (input : CandidateInput) (table : ConnectionTable) (candidate : CandidateMutation) :
    Prop where
  revision : candidate.revision = input.revision
  upsert : ∀ change ∈ candidate.changes, change.operation = .upsert ↔ change.config.isSome
  stamped : ∀ change ∈ candidate.changes, ∀ config, change.config = some config →
    config.connectionId = change.connectionId ∧ config.desiredVersion = input.revision
  matching : Matching input.inputPortCount input.outputPortCount
    (applyChanges table candidate.changes)

theorem Matching.of_ports {n m : Nat} {table : ConnectionTable}
    (finalized : Dict String ConnectionConfig)
    (hkeyed : ∀ (id : String) (c : ConnectionConfig), table[id]? = some c →
      c.connectionId = id ∧ id ≠ "")
    (hports : ∀ id : String, (table[id]?).map (fun c => (c.inputPort, c.outputPort)) =
      (finalized.get? id).map fun c => (c.inputPort, c.outputPort))
    (hrange : ∀ id c, finalized.get? id = some c →
      (1 ≤ c.inputPort ∧ c.inputPort ≤ n) ∧ 1 ≤ c.outputPort ∧ c.outputPort ≤ m)
    (hin : ∀ a b c d, finalized.get? a = some c → finalized.get? b = some d →
      c.inputPort = d.inputPort → a = b)
    (hout : ∀ a b c d, finalized.get? a = some c → finalized.get? b = some d →
      c.outputPort = d.outputPort → a = b) : Matching n m table := by
  have hget : ∀ (id : String) (c : ConnectionConfig), table[id]? = some c → ∃ c',
      finalized.get? id = some c' ∧ c'.inputPort = c.inputPort ∧ c'.outputPort = c.outputPort := by
    intro id c hc
    have heq := hports id
    rw [hc, Option.map_some] at heq
    obtain ⟨c', hc', hp⟩ := Option.map_eq_some_iff.mp heq.symm
    exact ⟨c', hc', (Prod.mk.inj hp).1, (Prod.mk.inj hp).2⟩
  refine ⟨hkeyed, ?_, ?_, ?_⟩
  · intro id c hc
    obtain ⟨c', hc', hi, ho⟩ := hget id c hc
    rw [← hi, ← ho]
    exact hrange id c' hc'
  · intro a b c d hc hd heq
    obtain ⟨c', hc', hci, -⟩ := hget a c hc
    obtain ⟨d', hd', hdi, -⟩ := hget b d hd
    exact hin a b c' d' hc' hd' (by rw [hci, hdi, heq])
  · intro a b c d hc hd heq
    obtain ⟨c', hc', -, hco⟩ := hget a c hc
    obtain ⟨d', hd', -, hdo⟩ := hget b d hd
    exact hout a b c' d' hc' hd' (by rw [hco, hdo, heq])

theorem buildCandidate_writes {input : CandidateInput} {plan : SetPlan}
    {candidate : CandidateMutation} {table : ConnectionTable}
    (hkeyed : ∀ (id : String) (c : ConnectionConfig), table[id]? = some c →
      c.connectionId = id ∧ id ≠ "")
    (hload : input.current = ConnectionTable.load table)
    (h : buildCandidate input plan = .ok candidate) : Writes input table candidate := by
  unfold buildCandidate at h
  split_ifs at h
  split at h
  · cases h
  rename_i working hwork
  dsimp only at h
  split at h
  · cases h
  rename_i fin hfin
  cases h
  have hcur : ∀ id, input.current.get? id = table[id]? := fun id => by
    rw [hload, ConnectionTable.get?_load]
  have hids : ∀ entry ∈ working.entries, entry.1 ≠ "" := by
    rintro ⟨id, m⟩ hmem
    rcases ids_applyOperations hwork (Dict.get?_eq_some.mpr hmem) with ⟨m', hm'⟩ | ⟨op, -, rfl⟩
    · rw [Dict.get?_mapValues, hcur, Option.map_eq_some_iff] at hm'
      obtain ⟨c, hc, -⟩ := hm'
      exact (hkeyed id c hc).2
    · exact op.connectionId.ne_empty
  obtain ⟨hocc, hmem, hkeep⟩ := finalizeAll_ok working.nodup hids (Occupies.nil input) hfin
  have hnodup : (touchedIds plan.operations).keys.Nodup := (touchedIds plan.operations).nodup
  have happly := getElem?_applyChanges (f := changeOf input.current fin.configs)
    (fun _ _ hch => (changeOf_id hch).1) hnodup table
  -- an id that the plan does not touch is finalized from its loaded entry
  have huntouched : ∀ id, id ∉ (touchedIds plan.operations).keys →
      (table[id]?).map (fun c => (c.inputPort, c.outputPort)) =
        (fin.configs.get? id).map fun c => (c.inputPort, c.outputPort) := by
    intro id hid
    have hsame : working.get? id = (table[id]?).map ConnectionConfig.toMutable := by
      rw [get?_applyOperations_of_untouched hwork, Dict.get?_mapValues, hcur]
      intro op hop heq
      exact hid (mem_keys_touchedIds.mpr ⟨op, hop, heq⟩)
    cases hc : table[id]? with
    | some c =>
        rw [hc] at hsame
        obtain ⟨c', hc', hfinal⟩ := hmem id _ (Dict.get?_eq_some.mp hsame)
        have hi := hfinal.inputPort
        have ho := hfinal.outputPort
        simp only [ConnectionConfig.toMutable, Option.some.injEq] at hi ho
        simp [hc', hi, ho]
    | none =>
        rw [hc] at hsame
        rw [hkeep id (Dict.get?_eq_none.mp hsame)]
        rfl
  refine ⟨rfl, ?_, ?_, Matching.of_ports fin.configs ?_ ?_ ?_ ?_ ?_⟩
  · intro change hchange
    obtain ⟨id, -, hch⟩ := List.mem_filterMap.mp hchange
    exact (changeOf_id hch).2.2
  · intro change hchange config hconfig
    obtain ⟨id, hid, hch⟩ := List.mem_filterMap.mp hchange
    obtain ⟨rfl, hcfg, -⟩ := changeOf_id hch
    rw [hconfig] at hcfg
    obtain ⟨-, hown, -⟩ := hocc.entry _ _ hcfg.symm
    refine ⟨hown, ?_⟩
    obtain ⟨m, hm⟩ : ∃ m, (change.connectionId, m) ∈ working.entries := by
      by_contra hnone
      have hnot : change.connectionId ∉ working.entries.map Prod.fst := by
        rintro hk
        obtain ⟨⟨a, m⟩, hm, rfl⟩ := List.mem_map.mp hk
        exact hnone ⟨m, hm⟩
      rw [hkeep _ hnot] at hcfg
      cases hcfg
    obtain ⟨c, hc, hfinal⟩ := hmem _ m hm
    rw [← hcfg] at hc
    cases hc
    obtain ⟨u, hu⟩ := Dict.mem_keys.mp hid
    exact hfinal.touchedVersion (by rw [hu]; rfl)
  · intro id c hc
    rw [happly] at hc
    split_ifs at hc
    · split at hc
      · rename_i change hch
        obtain ⟨-, hcfg, -⟩ := changeOf_id hch
        rw [hcfg] at hc
        obtain ⟨hne, hown, -⟩ := hocc.entry _ _ hc
        exact ⟨hown, hne⟩
      · exact hkeyed id c hc
    · exact hkeyed id c hc
  · intro id
    rw [happly]
    split_ifs with hid
    · split
      · rename_i change hch
        rw [(changeOf_id hch).2.1]
      · rename_i hch
        rw [← hcur]
        exact changeOf_eq_none hch
    · exact huntouched id hid
  · intro id c hc
    exact (hocc.entry id c hc).2.2.1
  · intro a b c d hc hd heq
    have ha := (hocc.entry a c hc).2.2.2.1
    have hb := (hocc.entry b d hd).2.2.2.1
    rw [heq, hb] at ha
    exact (Option.some.inj ha).symm
  · intro a b c d hc hd heq
    have ha := (hocc.entry a c hc).2.2.2.2
    have hb := (hocc.entry b d hd).2.2.2.2
    rw [heq, hb] at ha
    exact (Option.some.inj ha).symm

/-! ## Revision and clock only stamp -/

def ConnectionConfig.unstamped (c : ConnectionConfig) : ConnectionConfig :=
  { c with desiredVersion := 0, createdAtNs := 0, updatedAtNs := 0 }

def MutableConnection.unstamped (m : MutableConnection) : MutableConnection :=
  { m with createdAtNs := 0 }

def Finalized.unstamped (f : Finalized) : Finalized :=
  { f with configs := f.configs.mapValues ConnectionConfig.unstamped }

abbrev CandidateInput.stamp (input : CandidateInput) (revision timestampNs : Nat) : CandidateInput :=
  { input with revision := revision, timestampNs := timestampNs }

theorem unstamped_update {m m' : MutableConnection} (h : m.unstamped = m'.unstamped)
    (values : OperationValues) : (m.update values).unstamped = (m'.update values).unstamped := by
  simp_all [MutableConnection.unstamped, MutableConnection.update]

/-- Two results that differ in stamps only. -/
def SameUpTo {ε α β : Type} (f : α → β) (x y : Except ε α) : Prop := x.map f = y.map f

theorem SameUpTo.cases {ε α β : Type} {f : α → β} {x y : Except ε α} (h : SameUpTo f x y) :
    (∃ e, x = .error e ∧ y = .error e) ∨ ∃ a b, x = .ok a ∧ y = .ok b ∧ f a = f b := by
  cases x with
  | error e =>
      cases y with
      | error e' => exact .inl ⟨e, rfl, by simpa [SameUpTo, Except.map, eq_comm] using h⟩
      | ok b => simp [SameUpTo, Except.map] at h
  | ok a =>
      cases y with
      | error e' => simp [SameUpTo, Except.map] at h
      | ok b => exact .inr ⟨a, b, rfl, rfl, by simpa [SameUpTo, Except.map] using h⟩

theorem applyOperation_unstamped {current : Dict String ConnectionConfig}
    {working working' : Dict String MutableConnection}
    (h : working.mapValues MutableConnection.unstamped =
      working'.mapValues MutableConnection.unstamped) (ts ts' : Nat) (operation : SetOperation) :
    SameUpTo (fun d : Dict String MutableConnection => d.mapValues MutableConnection.unstamped)
      (applyOperation current ts working operation) (applyOperation current ts' working' operation) := by
  unfold applyOperation SameUpTo
  cases operation.kind with
  | delete => simp [Except.map, Dict.mapValues_pop, h]
  | replace =>
      cases operation.values.inputPort with
      | none => rfl
      | some i =>
          cases operation.values.outputPort with
          | none => rfl
          | some o => simp [Except.map, Dict.mapValues_set, h, MutableConnection.unstamped]
  | update =>
      have hget : ∀ id, (working.get? id).map MutableConnection.unstamped =
          (working'.get? id).map MutableConnection.unstamped := by
        intro id
        rw [← Dict.get?_mapValues, ← Dict.get?_mapValues, h]
      have hold : ∀ id, ((working.get? id).getD { createdAtNs := ts }).unstamped =
          ((working'.get? id).getD { createdAtNs := ts' }).unstamped := by
        intro id
        have := hget id
        cases h1 : working.get? id <;> cases h2 : working'.get? id <;> rw [h1, h2] at this
        · rfl
        · cases this
        · cases this
        · simpa using this
      simp only [Except.map, Dict.mapValues_set, h, unstamped_update (hold _)]

theorem applyOperations_unstamped {current : Dict String ConnectionConfig}
    {operations : List SetOperation} {working working' : Dict String MutableConnection}
    (h : working.mapValues MutableConnection.unstamped =
      working'.mapValues MutableConnection.unstamped) (ts ts' : Nat) :
    SameUpTo (fun d : Dict String MutableConnection => d.mapValues MutableConnection.unstamped)
      (applyOperations current ts operations working)
      (applyOperations current ts' operations working') := by
  induction operations generalizing working working' with
  | nil => simpa [applyOperations, SameUpTo, Except.map] using h
  | cons operation rest ih =>
      simp only [applyOperations]
      have hone : SameUpTo _ (applyOperation current ts working operation) _ :=
        applyOperation_unstamped h ts ts' operation
      rcases hone.cases with ⟨e, h1, h2⟩ | ⟨a, b, h1, h2, hab⟩
      · rw [h1, h2]; rfl
      · rw [h1, h2]; exact ih hab

theorem finalizeOne_unstamped {input : CandidateInput} {touched : Dict String Unit}
    {acc acc' : Finalized} (h : acc.unstamped = acc'.unstamped) (r r' ts ts' : Nat) (id : String)
    {m m' : MutableConnection} (hm : m.unstamped = m'.unstamped) :
    SameUpTo Finalized.unstamped (finalizeOne (input.stamp r ts) touched acc id m)
      (finalizeOne (input.stamp r' ts') touched acc' id m') := by
  obtain ⟨configs, inputs, outputs⟩ := acc
  obtain ⟨configs', inputs', outputs'⟩ := acc'
  obtain ⟨i, o, admin, created⟩ := m
  obtain ⟨i', o', admin', created'⟩ := m'
  simp only [Finalized.unstamped, Finalized.mk.injEq] at h
  simp only [MutableConnection.unstamped, MutableConnection.mk.injEq] at hm
  obtain ⟨hconfigs, rfl, rfl⟩ := h
  obtain ⟨rfl, rfl, rfl, -⟩ := hm
  unfold finalizeOne SameUpTo
  cases i with
  | none => rfl
  | some i =>
      cases o with
      | none => rfl
      | some o =>
          dsimp only [CandidateInput.stamp]
          by_cases hi : 1 ≤ i ∧ i ≤ input.inputPortCount
          · by_cases ho : 1 ≤ o ∧ o ≤ input.outputPortCount
            · rw [if_neg (not_not.mpr hi), if_neg (not_not.mpr hi), if_neg (not_not.mpr ho),
                if_neg (not_not.mpr ho)]
              cases occupiedBy inputs i with
              | some previous => rfl
              | none =>
                  cases occupiedBy outputs o with
                  | some previous => rfl
                  | none =>
                      dsimp only
                      cases touched.get? id with
                      | some _ =>
                          simp [Except.map, Finalized.unstamped, Dict.mapValues_set, hconfigs,
                            ConnectionConfig.unstamped]
                      | none =>
                          cases input.current.get? id with
                          | none => rfl
                          | some existing =>
                              simp [Except.map, Finalized.unstamped, Dict.mapValues_set, hconfigs,
                                ConnectionConfig.unstamped]
            · rw [if_neg (not_not.mpr hi), if_neg (not_not.mpr hi), if_pos ho, if_pos ho]
          · rw [if_pos hi, if_pos hi]

theorem finalizeAll_unstamped {input : CandidateInput} {touched : Dict String Unit}
    {entries entries' : List (String × MutableConnection)} {acc acc' : Finalized}
    (hentries : entries.map (fun e => (e.1, e.2.unstamped)) =
      entries'.map fun e => (e.1, e.2.unstamped))
    (h : acc.unstamped = acc'.unstamped) (r r' ts ts' : Nat) :
    SameUpTo Finalized.unstamped (finalizeAll (input.stamp r ts) touched entries acc)
      (finalizeAll (input.stamp r' ts') touched entries' acc') := by
  induction entries generalizing entries' acc acc' with
  | nil =>
      cases entries' with
      | nil => simpa [finalizeAll, SameUpTo, Except.map] using h
      | cons entry' rest' => simp at hentries
  | cons entry rest ih =>
      cases entries' with
      | nil => simp at hentries
      | cons entry' rest' =>
          obtain ⟨id, m⟩ := entry
          obtain ⟨id', m'⟩ := entry'
          simp only [List.map_cons, List.cons.injEq, Prod.mk.injEq] at hentries
          obtain ⟨⟨rfl, hm⟩, hrest⟩ := hentries
          simp only [finalizeAll]
          have hone : SameUpTo _ (finalizeOne (input.stamp r ts) touched acc id m) _ :=
            finalizeOne_unstamped h r r' ts ts' id hm
          rcases hone.cases with ⟨e, h1, h2⟩ | ⟨a, b, h1, h2, hab⟩
          · rw [h1, h2]; rfl
          · rw [h1, h2]; exact ih hrest hab

theorem changeOf_eq_none_unstamped {current fin fin' : Dict String ConnectionConfig}
    (h : fin.mapValues ConnectionConfig.unstamped = fin'.mapValues ConnectionConfig.unstamped)
    {id : String} (hnone : changeOf current fin id = none) : changeOf current fin' id = none := by
  have hid : (fin.get? id).map ConnectionConfig.unstamped =
      (fin'.get? id).map ConnectionConfig.unstamped := by
    rw [← Dict.get?_mapValues, ← Dict.get?_mapValues, h]
  unfold changeOf at hnone ⊢
  cases hc : current.get? id <;> cases hf : fin.get? id <;> cases hf' : fin'.get? id <;>
    simp_all [ConnectionConfig.unstamped, unchanged]

theorem sortedConfigs_unstamped (configs : Dict String ConnectionConfig) :
    (sortedConfigs configs).map ConnectionConfig.unstamped =
      sortedConfigs (configs.mapValues ConnectionConfig.unstamped) := by
  unfold sortedConfigs Dict.mapValues
  rw [← List.map_insertionSort (r := fun a b : String × ConnectionConfig => a.1 ≤ b.1)]
  · simp [Function.comp]
  · intro a _ b _; rfl

/-- Whatever the positive revision and the clock, the answer is the same up to stamps. -/
theorem buildCandidate_stamp (input : CandidateInput) (plan : SetPlan) {r r' : Nat} (hr : r ≠ 0)
    (hr' : r' ≠ 0) (ts ts' : Nat) :
    (∃ e, buildCandidate (input.stamp r ts) plan = .error e ∧
      buildCandidate (input.stamp r' ts') plan = .error e) ∨
    ∃ c c', buildCandidate (input.stamp r ts) plan = .ok c ∧
      buildCandidate (input.stamp r' ts') plan = .ok c' ∧
      (c.changes = [] → c'.changes = []) ∧
      c.connections.map ConnectionConfig.unstamped = c'.connections.map ConnectionConfig.unstamped := by
  simp only [buildCandidate, CandidateInput.stamp, if_neg hr, if_neg hr']
  have happly : SameUpTo _ (applyOperations input.current ts plan.operations
      (input.current.mapValues ConnectionConfig.toMutable)) _ := applyOperations_unstamped rfl ts ts'
  rcases happly.cases with ⟨e, h1, h2⟩ | ⟨working, working', h1, h2, hw⟩
  · exact .inl ⟨e, by rw [h1], by rw [h2]⟩
  · simp only [h1, h2]
    have hentries : working.entries.map (fun e => (e.1, e.2.unstamped)) =
        working'.entries.map fun e => (e.1, e.2.unstamped) := congrArg Dict.entries hw
    have hall : SameUpTo _ (finalizeAll (input.stamp r ts) (touchedIds plan.operations)
        working.entries {}) _ := finalizeAll_unstamped hentries rfl r r' ts ts'
    rcases hall.cases with ⟨e, h3, h4⟩ | ⟨fin, fin', h3, h4, hfin⟩
    · simp only [CandidateInput.stamp] at h3 h4
      exact .inl ⟨e, by rw [h3], by rw [h4]⟩
    · simp only [CandidateInput.stamp] at h3 h4
      simp only [Finalized.unstamped, Finalized.mk.injEq] at hfin
      simp only [h3, h4]
      refine .inr ⟨_, _, rfl, rfl, ?_, ?_⟩
      · simp only [List.filterMap_eq_nil_iff]
        exact fun hnone id hid => changeOf_eq_none_unstamped hfin.1 (hnone id hid)
      · dsimp only
        rw [sortedConfigs_unstamped, sortedConfigs_unstamped, hfin.1]

end MiniOcs.Gnmi
