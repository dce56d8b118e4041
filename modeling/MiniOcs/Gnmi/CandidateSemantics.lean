import MiniOcs.Gnmi.CandidateMatching
import MiniOcs.KeyedFold

/-!
# What a candidate means

The operations of a plan act on a map from ids to drafts. A candidate is accepted exactly
when the final map is valid, and its changes are the differences to the current map.
-/
namespace MiniOcs.Gnmi
open KeyedFold

/-! ## The final map -/

def operationId (operation : SetOperation) : String := operation.connectionId.text

/-- What one operation makes of the draft of its id. -/
def draftStep (current : Dict String ConnectionConfig) (timestampNs : Nat)
    (operation : SetOperation) (draft : Option MutableConnection) : Option MutableConnection :=
  match operation.kind with
  | .delete => none
  | .replace => some {
      inputPort := operation.values.inputPort
      outputPort := operation.values.outputPort
      adminStatus := operation.values.adminStatus.getD adminEnabled
      createdAtNs := ((current.get? (operationId operation)).map (·.createdAtNs)).getD timestampNs }
  | .update => some ((draft.getD { createdAtNs := timestampNs }).update operation.values)

def currentDrafts (current : Dict String ConnectionConfig) (id : String) :
    Option MutableConnection :=
  (current.get? id).map ConnectionConfig.toMutable

/-- The drafts after all operations. -/
def finalDrafts (current : Dict String ConnectionConfig) (timestampNs : Nat)
    (operations : List SetOperation) : String → Option MutableConnection :=
  run operationId (draftStep current timestampNs) (currentDrafts current) operations

/-- Every connection has both ports in range, and no port is used twice. -/
structure ValidDrafts (inputPortCount outputPortCount : Nat)
    (drafts : String → Option MutableConnection) : Prop where
  ports : ∀ id m, drafts id = some m → ∃ inputPort outputPort,
    m.inputPort = some inputPort ∧ m.outputPort = some outputPort ∧
      (1 ≤ inputPort ∧ inputPort ≤ inputPortCount) ∧
      1 ≤ outputPort ∧ outputPort ≤ outputPortCount
  inputs : ∀ id id' m m', drafts id = some m → drafts id' = some m' →
    m.inputPort = m'.inputPort → id = id'
  outputs : ∀ id id' m m', drafts id = some m → drafts id' = some m' →
    m.outputPort = m'.outputPort → id = id'

/-- A replacement names both ports. -/
def CompleteReplacements (operations : List SetOperation) : Prop :=
  ∀ operation ∈ operations, operation.kind = .replace →
    operation.values.inputPort.isSome ∧ operation.values.outputPort.isSome

theorem get?_applyOperation {current : Dict String ConnectionConfig} {timestampNs : Nat}
    {working working' : Dict String MutableConnection} {operation : SetOperation}
    (h : applyOperation current timestampNs working operation = .ok working') (id : String) :
    working'.get? id =
      apply operationId (draftStep current timestampNs) working.get? operation id := by
  by_cases hid : id = operationId operation
  · rw [hid, apply, Function.update_self]
    unfold applyOperation at h
    unfold draftStep
    cases hk : operation.kind with
    | delete =>
        simp only [hk, Except.ok.injEq] at h
        rw [← h, operationId, Dict.get?_pop, if_pos rfl]
    | update =>
        simp only [hk, Except.ok.injEq] at h
        rw [← h, operationId, Dict.get?_set, if_pos rfl]
    | replace =>
        simp only [hk] at h
        cases hi : operation.values.inputPort with
        | none => simp only [hi, reduceCtorEq] at h
        | some inputPort =>
            cases ho : operation.values.outputPort with
            | none => simp only [hi, ho, reduceCtorEq] at h
            | some outputPort =>
                simp only [hi, ho, Except.ok.injEq] at h
                rw [← h, operationId, Dict.get?_set, if_pos rfl]
                cases current.get? operation.connectionId.text <;> rfl
  · rw [apply, Function.update_of_ne hid]
    exact get?_applyOperation_of_ne h hid

theorem get?_applyOperations {current : Dict String ConnectionConfig} {timestampNs : Nat}
    {operations : List SetOperation} {working working' : Dict String MutableConnection}
    (h : applyOperations current timestampNs operations working = .ok working') :
    working'.get? = run operationId (draftStep current timestampNs) working.get? operations := by
  induction operations generalizing working with
  | nil => cases h; rfl
  | cons operation rest ih =>
      simp only [applyOperations] at h
      split at h
      · cases h
      · rename_i next hnext
        rw [run_cons, ih h, funext (get?_applyOperation hnext)]

theorem applyOperations_complete (current : Dict String ConnectionConfig) (timestampNs : Nat)
    {operations : List SetOperation} (h : CompleteReplacements operations)
    (working : Dict String MutableConnection) :
    ∃ working', applyOperations current timestampNs operations working = .ok working' := by
  induction operations generalizing working with
  | nil => exact ⟨working, rfl⟩
  | cons operation rest ih =>
      obtain ⟨next, hnext⟩ : ∃ next,
          applyOperation current timestampNs working operation = .ok next := by
        unfold applyOperation
        cases hk : operation.kind with
        | delete => exact ⟨_, rfl⟩
        | update => exact ⟨_, rfl⟩
        | replace =>
            obtain ⟨hi, ho⟩ := h operation (by simp) hk
            obtain ⟨inputPort, hi⟩ := Option.isSome_iff_exists.mp hi
            obtain ⟨outputPort, ho⟩ := Option.isSome_iff_exists.mp ho
            simp only [hi, ho]
            exact ⟨_, rfl⟩
      simp only [applyOperations, hnext]
      exact ih (fun op hop => h op (by simp [hop])) next

/-! ## Finalized connections -/

/-- What a draft is stored as. -/
def finalConfig (input : CandidateInput) (touched : Bool) (id : String) (m : MutableConnection) :
    ConnectionConfig where
  connectionId := id
  inputPort := m.inputPort.getD 0
  outputPort := m.outputPort.getD 0
  adminStatus := m.adminStatus
  desiredVersion := if touched then input.revision
    else ((input.current.get? id).map (·.desiredVersion)).getD 0
  createdAtNs := if m.createdAtNs = 0 then input.timestampNs else m.createdAtNs
  updatedAtNs := if touched then input.timestampNs
    else ((input.current.get? id).map (·.updatedAtNs)).getD 0

/-- A round that is accepted, and what it does to the three dictionaries. -/
structure Accepts (input : CandidateInput) (touched : Dict String Unit) (acc : Finalized)
    (id : String) (m : MutableConnection) (inputPort outputPort : Nat) (acc' : Finalized) :
    Prop where
  hasInput : m.inputPort = some inputPort
  hasOutput : m.outputPort = some outputPort
  inputRange : 1 ≤ inputPort ∧ inputPort ≤ input.inputPortCount
  outputRange : 1 ≤ outputPort ∧ outputPort ≤ input.outputPortCount
  inputFree : occupiedBy acc.occupiedInputs inputPort = none
  outputFree : occupiedBy acc.occupiedOutputs outputPort = none
  known : (touched.get? id).isSome ∨ (input.current.get? id).isSome
  stored : acc' = {
    configs := acc.configs.set id (finalConfig input (touched.get? id).isSome id m)
    occupiedInputs := acc.occupiedInputs.set inputPort id
    occupiedOutputs := acc.occupiedOutputs.set outputPort id }

theorem finalizeOne_eq_ok {input : CandidateInput} {touched : Dict String Unit}
    {acc acc' : Finalized} {id : String} {m : MutableConnection} :
    finalizeOne input touched acc id m = .ok acc' ↔
      ∃ inputPort outputPort, Accepts input touched acc id m inputPort outputPort acc' := by
  constructor
  · intro h
    unfold finalizeOne at h
    split at h
    · rename_i inputPort outputPort hi ho
      refine ⟨inputPort, outputPort, ?_⟩
      by_cases hir : 1 ≤ inputPort ∧ inputPort ≤ input.inputPortCount
      · by_cases hor : 1 ≤ outputPort ∧ outputPort ≤ input.outputPortCount
        · rw [if_neg (not_not.mpr hir), if_neg (not_not.mpr hor)] at h
          cases hin : occupiedBy acc.occupiedInputs inputPort with
          | some previous => simp only [hin, reduceCtorEq] at h
          | none =>
              cases hout : occupiedBy acc.occupiedOutputs outputPort with
              | some previous => simp only [hin, hout, reduceCtorEq] at h
              | none =>
                  simp only [hin, hout] at h
                  by_cases ht : (touched.get? id).isSome
                  · rw [if_pos ht, Except.ok.injEq] at h
                    exact ⟨hi, ho, hir, hor, hin, hout, .inl ht,
                      by simp [← h, finalConfig, hi, ho, ht]⟩
                  · rw [if_neg ht] at h
                    cases hcur : input.current.get? id with
                    | none => simp only [hcur, reduceCtorEq] at h
                    | some existing =>
                        simp only [hcur, Except.ok.injEq] at h
                        exact ⟨hi, ho, hir, hor, hin, hout, .inr (by rw [hcur]; rfl),
                          by simp [← h, finalConfig, hi, ho, ht, hcur]⟩
        · rw [if_neg (not_not.mpr hir), if_pos hor] at h
          cases h
      · rw [if_pos hir] at h
        cases h
    · cases h
  · rintro ⟨inputPort, outputPort, h⟩
    unfold finalizeOne
    simp only [h.hasInput, h.hasOutput, h.inputFree, h.outputFree]
    rw [if_neg (not_not.mpr h.inputRange), if_neg (not_not.mpr h.outputRange), h.stored]
    by_cases ht : (touched.get? id).isSome
    · simp [finalConfig, h.hasInput, h.hasOutput, ht]
    · obtain ⟨existing, hcur⟩ := Option.isSome_iff_exists.mp (h.known.resolve_left ht)
      simp [finalConfig, h.hasInput, h.hasOutput, ht, hcur]

theorem finalizeAll_configs {input : CandidateInput} {touched : Dict String Unit}
    {entries : List (String × MutableConnection)} {acc fin : Finalized}
    (hnodup : (entries.map Prod.fst).Nodup)
    (h : finalizeAll input touched entries acc = .ok fin) (id : String) :
    fin.configs.get? id =
      ((entries.lookup id).map (finalConfig input (touched.get? id).isSome id)).or
        (acc.configs.get? id) := by
  induction entries generalizing acc with
  | nil => cases h; rfl
  | cons entry rest ih =>
      obtain ⟨id', m⟩ := entry
      simp only [finalizeAll] at h
      split at h
      · cases h
      · rename_i acc' hone
        simp only [List.map_cons, List.nodup_cons] at hnodup
        obtain ⟨_, _, haccepts⟩ := finalizeOne_eq_ok.mp hone
        rw [ih hnodup.2 h, haccepts.stored, Dict.get?_set, List.lookup_cons]
        by_cases hid : id = id'
        · subst hid
          have hnone : rest.lookup id = none := by
            rw [List.lookup_eq_none_iff]
            rintro ⟨k, v⟩ hmem
            rw [bne_iff_ne]
            rintro rfl
            exact hnodup.1 (List.mem_map_of_mem hmem)
          simp [hnone]
        · have hbeq : (id == id') = false := by simpa using hid
          simp [hid, hbeq]

/-- Drafts with ports of their own are all stored. -/
theorem finalizeAll_complete {input : CandidateInput} {touched : Dict String Unit}
    {entries : List (String × MutableConnection)} {acc : Finalized}
    (hports : ∀ entry ∈ entries, ∃ inputPort outputPort, entry.2.inputPort = some inputPort ∧
      entry.2.outputPort = some outputPort ∧
        (1 ≤ inputPort ∧ inputPort ≤ input.inputPortCount) ∧
        1 ≤ outputPort ∧ outputPort ≤ input.outputPortCount)
    (hinputs : entries.Pairwise fun a b => a.2.inputPort ≠ b.2.inputPort)
    (houtputs : entries.Pairwise fun a b => a.2.outputPort ≠ b.2.outputPort)
    (hinFree : ∀ entry ∈ entries, ∀ port, entry.2.inputPort = some port →
      acc.occupiedInputs.get? port = none)
    (houtFree : ∀ entry ∈ entries, ∀ port, entry.2.outputPort = some port →
      acc.occupiedOutputs.get? port = none)
    (hknown : ∀ entry ∈ entries,
      (touched.get? entry.1).isSome ∨ (input.current.get? entry.1).isSome) :
    ∃ fin, finalizeAll input touched entries acc = .ok fin := by
  induction entries generalizing acc with
  | nil => exact ⟨acc, rfl⟩
  | cons entry rest ih =>
      obtain ⟨id, m⟩ := entry
      obtain ⟨inputPort, outputPort, hi, ho, hir, hor⟩ := hports (id, m) (by simp)
      have hfree : ∀ {occupied : Dict Nat String} {port : Nat}, occupied.get? port = none →
          occupiedBy occupied port = none := fun h => by rw [occupiedBy, h]
      have hone := finalizeOne_eq_ok.mpr ⟨inputPort, outputPort, {
        hasInput := hi
        hasOutput := ho
        inputRange := hir
        outputRange := hor
        inputFree := hfree (hinFree (id, m) (by simp) inputPort hi)
        outputFree := hfree (houtFree (id, m) (by simp) outputPort ho)
        known := hknown (id, m) (by simp)
        stored := rfl }⟩
      rw [List.pairwise_cons] at hinputs houtputs
      simp only [finalizeAll, hone]
      refine ih (fun entry hentry => hports entry (by simp [hentry])) hinputs.2 houtputs.2 ?_ ?_
        fun entry hentry => hknown entry (by simp [hentry])
      · intro entry hentry port hport
        have hne : port ≠ inputPort := by
          rintro rfl
          exact hinputs.1 entry hentry (hi.trans hport.symm)
        rw [Dict.get?_set, if_neg hne]
        exact hinFree entry (by simp [hentry]) port hport
      · intro entry hentry port hport
        have hne : port ≠ outputPort := by
          rintro rfl
          exact houtputs.1 entry hentry (ho.trans hport.symm)
        rw [Dict.get?_set, if_neg hne]
        exact houtFree entry (by simp [hentry]) port hport

/-! ## Accepted candidates -/

/-- What two connections are compared by. -/
def MutableConnection.settings (m : MutableConnection) : Option Nat × Option Nat × String :=
  (m.inputPort, m.outputPort, m.adminStatus)

theorem unchanged_iff {existing config : ConnectionConfig} :
    unchanged existing config = true ↔
      existing.toMutable.settings = config.toMutable.settings := by
  simp [unchanged, ConnectionConfig.toMutable, MutableConnection.settings, and_assoc]

section

variable (input : CandidateInput) (plan : SetPlan)

def drafts : String → Option MutableConnection :=
  finalDrafts input.current input.timestampNs plan.operations

def Touched (id : String) : Prop := ∃ operation ∈ plan.operations, operationId operation = id

/-- The plan leaves an id absent that was present, or the other way, or with other settings. -/
def Differs (id : String) : Prop :=
  (currentDrafts input.current id).map MutableConnection.settings ≠
    (drafts input plan id).map MutableConnection.settings

/-- The one change of an id that differs. -/
def changeFor (id : String) : CandidateChange where
  connectionId := id
  operation := if (drafts input plan id).isSome then .upsert else .remove
  config := (drafts input plan id).map (finalConfig input true id)

end

section

variable {input : CandidateInput} {plan : SetPlan} {candidate : CandidateMutation}

theorem isSome_touchedIds {id : String} :
    ((touchedIds plan.operations).get? id).isSome = true ↔ Touched plan id := by
  rw [Option.isSome_iff_exists, ← Dict.mem_keys, mem_keys_touchedIds]
  rfl

theorem buildCandidate_eq_ok (hrevision : input.revision ≠ 0) :
    buildCandidate input plan = .ok candidate ↔ ∃ working fin,
      applyOperations input.current input.timestampNs plan.operations
        (input.current.mapValues ConnectionConfig.toMutable) = .ok working ∧
      finalizeAll input (touchedIds plan.operations) working.entries {} = .ok fin ∧
      candidate = {
        revision := input.revision
        timestampNs := input.timestampNs
        changes := (touchedIds plan.operations).keys.filterMap
          (changeOf input.current fin.configs)
        connections := sortedConfigs fin.configs } := by
  unfold buildCandidate
  rw [if_neg hrevision]
  cases applyOperations input.current input.timestampNs plan.operations
      (input.current.mapValues ConnectionConfig.toMutable) with
  | error e => simp
  | ok working =>
      dsimp only
      cases hfin : finalizeAll input (touchedIds plan.operations) working.entries {} with
      | error e => simp [hfin]
      | ok fin => simp [hfin, eq_comm]

theorem get?_working {working : Dict String MutableConnection}
    (h : applyOperations input.current input.timestampNs plan.operations
      (input.current.mapValues ConnectionConfig.toMutable) = .ok working) :
    working.get? = drafts input plan := by
  rw [get?_applyOperations h, drafts, finalDrafts]
  congr 1
  funext id
  exact Dict.get?_mapValues _ _ _

theorem drafts_of_untouched {id : String} (h : ¬Touched plan id) :
    drafts input plan id = (input.current.get? id).map ConnectionConfig.toMutable := by
  rw [drafts, finalDrafts, run_of_untouched]
  · rfl
  · exact fun operation hmem heq => h ⟨operation, hmem, heq⟩

/-- The current configuration has no empty id, so none of the ids is empty. -/
theorem drafts_named (hnamed : ∀ id, (input.current.get? id).isSome → id ≠ "") {id : String}
    {m : MutableConnection} (h : drafts input plan id = some m) : id ≠ "" := by
  by_cases htouched : Touched plan id
  · obtain ⟨operation, -, rfl⟩ := htouched
    exact operation.connectionId.ne_empty
  · rw [drafts_of_untouched htouched] at h
    obtain ⟨c, hc, -⟩ := Option.map_eq_some_iff.mp h
    exact hnamed id (by rw [hc]; rfl)

theorem get?_finalized {working : Dict String MutableConnection} {fin : Finalized}
    (hworking : working.get? = drafts input plan)
    (hfin : finalizeAll input (touchedIds plan.operations) working.entries {} = .ok fin)
    (id : String) : fin.configs.get? id = (drafts input plan id).map
      (finalConfig input ((touchedIds plan.operations).get? id).isSome id) := by
  rw [finalizeAll_configs working.nodup hfin, ← hworking, Dict.get?_empty, Option.or_none]
  rfl

theorem validDrafts_of_finalized (hnamed : ∀ id, (input.current.get? id).isSome → id ≠ "")
    {working : Dict String MutableConnection} {fin : Finalized}
    (hworking : working.get? = drafts input plan)
    (hfin : finalizeAll input (touchedIds plan.operations) working.entries {} = .ok fin) :
    ValidDrafts input.inputPortCount input.outputPortCount (drafts input plan) := by
  have hentry : ∀ {id m}, (id, m) ∈ working.entries ↔ drafts input plan id = some m := by
    intro id m
    rw [← hworking, Dict.get?_eq_some]
  obtain ⟨hocc, hmem, -⟩ := finalizeAll_ok working.nodup
    (fun entry h => drafts_named hnamed (hentry.mp h)) (Occupies.nil input) hfin
  have hstored : ∀ {id m}, drafts input plan id = some m → ∃ c, fin.configs.get? id = some c ∧
      m.inputPort = some c.inputPort ∧ m.outputPort = some c.outputPort := by
    intro id m h
    obtain ⟨c, hc, hfinal⟩ := hmem id m (hentry.mpr h)
    exact ⟨c, hc, hfinal.inputPort, hfinal.outputPort⟩
  refine ⟨?_, ?_, ?_⟩
  · intro id m h
    obtain ⟨c, hc, hi, ho⟩ := hstored h
    obtain ⟨-, -, hrange, -⟩ := hocc.entry id c hc
    exact ⟨c.inputPort, c.outputPort, hi, ho, hrange⟩
  · intro id id' m m' h h' heq
    obtain ⟨c, hc, hi, -⟩ := hstored h
    obtain ⟨c', hc', hi', -⟩ := hstored h'
    obtain ⟨-, -, -, hown, -⟩ := hocc.entry id c hc
    obtain ⟨-, -, -, hown', -⟩ := hocc.entry id' c' hc'
    rw [hi, hi', Option.some.injEq] at heq
    rw [heq, hown'] at hown
    exact (Option.some.inj hown).symm
  · intro id id' m m' h h' heq
    obtain ⟨c, hc, -, ho⟩ := hstored h
    obtain ⟨c', hc', -, ho'⟩ := hstored h'
    obtain ⟨-, -, -, -, hown⟩ := hocc.entry id c hc
    obtain ⟨-, -, -, -, hown'⟩ := hocc.entry id' c' hc'
    rw [ho, ho', Option.some.injEq] at heq
    rw [heq, hown'] at hown
    exact (Option.some.inj hown).symm

theorem finalized_of_validDrafts {working : Dict String MutableConnection}
    (hworking : working.get? = drafts input plan)
    (h : ValidDrafts input.inputPortCount input.outputPortCount (drafts input plan)) :
    ∃ fin, finalizeAll input (touchedIds plan.operations) working.entries {} = .ok fin := by
  have hentry : ∀ entry ∈ working.entries, drafts input plan entry.1 = some entry.2 := by
    intro entry hmem
    rw [← hworking]
    exact Dict.get?_eq_some.mpr hmem
  have hdistinct : working.entries.Pairwise fun a b => a.1 ≠ b.1 :=
    List.pairwise_map.mp working.nodup
  apply finalizeAll_complete
  · exact fun entry hmem => h.ports _ _ (hentry entry hmem)
  · refine hdistinct.imp_of_mem fun {a b} ha hb hne heq => ?_
    exact hne (h.inputs _ _ _ _ (hentry a ha) (hentry b hb) heq)
  · refine hdistinct.imp_of_mem fun {a b} ha hb hne heq => ?_
    exact hne (h.outputs _ _ _ _ (hentry a ha) (hentry b hb) heq)
  · exact fun _ _ _ _ => rfl
  · exact fun _ _ _ _ => rfl
  · intro entry hmem
    by_cases htouched : Touched plan entry.1
    · exact .inl (isSome_touchedIds.mpr htouched)
    · right
      have hdraft := hentry entry hmem
      rw [drafts_of_untouched htouched] at hdraft
      obtain ⟨c, hc, -⟩ := Option.map_eq_some_iff.mp hdraft
      rw [hc]
      rfl

/-- A plan is accepted exactly when its final map is valid. -/
theorem buildCandidate_accepts (hrevision : input.revision ≠ 0)
    (hnamed : ∀ id, (input.current.get? id).isSome → id ≠ "")
    (hreplace : CompleteReplacements plan.operations) :
    (∃ candidate, buildCandidate input plan = .ok candidate) ↔
      ValidDrafts input.inputPortCount input.outputPortCount (drafts input plan) := by
  constructor
  · rintro ⟨candidate, h⟩
    obtain ⟨working, fin, hworking, hfin, -⟩ := (buildCandidate_eq_ok hrevision).mp h
    exact validDrafts_of_finalized hnamed (get?_working hworking) hfin
  · intro h
    obtain ⟨working, hworking⟩ := applyOperations_complete input.current input.timestampNs hreplace
      (input.current.mapValues ConnectionConfig.toMutable)
    obtain ⟨fin, hfin⟩ := finalized_of_validDrafts (get?_working hworking) h
    exact ⟨_, (buildCandidate_eq_ok hrevision).mpr ⟨working, fin, hworking, hfin, rfl⟩⟩

/-! ## Its changes -/

theorem settings_finalConfig {touched : Bool} {id : String} {m : MutableConnection}
    (hi : m.inputPort.isSome) (ho : m.outputPort.isSome) :
    (finalConfig input touched id m).toMutable.settings = m.settings := by
  obtain ⟨inputPort, hi⟩ := Option.isSome_iff_exists.mp hi
  obtain ⟨outputPort, ho⟩ := Option.isSome_iff_exists.mp ho
  simp [finalConfig, ConnectionConfig.toMutable, MutableConnection.settings, hi, ho]

theorem changeOf_eq_some {fin : Dict String ConnectionConfig} {id : String}
    (hfin : fin.get? id = (drafts input plan id).map (finalConfig input true id))
    (hports : ∀ m, drafts input plan id = some m → m.inputPort.isSome ∧ m.outputPort.isSome)
    {change : CandidateChange} : changeOf input.current fin id = some change ↔
      Differs input plan id ∧ change = changeFor input plan id := by
  unfold changeOf Differs changeFor currentDrafts
  rw [hfin]
  cases hcur : input.current.get? id with
  | none =>
      cases hdraft : drafts input plan id with
      | none => simp
      | some m => simp [eq_comm]
  | some existing =>
      cases hdraft : drafts input plan id with
      | none => simp [eq_comm]
      | some m =>
          obtain ⟨hi, ho⟩ := hports m hdraft
          simp only [Option.map_some, unchanged_iff, settings_finalConfig hi ho, ne_eq,
            Option.some.injEq, Option.isSome_some, if_true]
          split_ifs with hsame
          · simp [hsame]
          · simp [hsame, eq_comm]

/-- An accepted candidate, in terms of the current and the final map. -/
structure Describes (input : CandidateInput) (plan : SetPlan) (candidate : CandidateMutation) :
    Prop where
  changes : ∀ change, change ∈ candidate.changes ↔
    ∃ id, Touched plan id ∧ Differs input plan id ∧ change = changeFor input plan id
  nodup : (candidate.changes.map (·.connectionId)).Nodup
  versions : ∀ change ∈ candidate.changes, ∀ config, change.config = some config →
    config.desiredVersion = input.revision
  connections : ∀ config, config ∈ candidate.connections ↔ ∃ id m, drafts input plan id = some m ∧
    config = finalConfig input ((touchedIds plan.operations).get? id).isSome id m
  ids : (candidate.connections.map (·.connectionId)).Nodup
  untouched : ∀ id existing, input.current.get? id = some existing → ¬Touched plan id →
    ∃ config ∈ candidate.connections, config.connectionId = id ∧
      config.inputPort = existing.inputPort ∧ config.outputPort = existing.outputPort ∧
      config.adminStatus = existing.adminStatus ∧
      config.desiredVersion = existing.desiredVersion ∧ config.updatedAtNs = existing.updatedAtNs

theorem sortedConfigs_perm (configs : Dict String ConnectionConfig) :
    (sortedConfigs configs).Perm (configs.entries.map Prod.snd) :=
  (List.perm_insertionSort _ _).map _

theorem buildCandidate_describes (hrevision : input.revision ≠ 0)
    (hnamed : ∀ id, (input.current.get? id).isSome → id ≠ "")
    (h : buildCandidate input plan = .ok candidate) : Describes input plan candidate := by
  obtain ⟨working, fin, happly, hfin, rfl⟩ := (buildCandidate_eq_ok hrevision).mp h
  have hworking := get?_working happly
  have hvalid := validDrafts_of_finalized hnamed hworking hfin
  have hget := get?_finalized hworking hfin
  have hports : ∀ id m, drafts input plan id = some m → m.inputPort.isSome ∧ m.outputPort.isSome := by
    intro id m hm
    obtain ⟨inputPort, outputPort, hi, ho, -⟩ := hvalid.ports id m hm
    exact ⟨by rw [hi]; rfl, by rw [ho]; rfl⟩
  have hchange : ∀ {id change}, Touched plan id → (changeOf input.current fin.configs id = some change ↔
      Differs input plan id ∧ change = changeFor input plan id) := by
    intro id change htouched
    apply changeOf_eq_some _ (hports id)
    rw [hget, isSome_touchedIds.mpr htouched]
  have hmem : ∀ change, change ∈ (touchedIds plan.operations).keys.filterMap
      (changeOf input.current fin.configs) ↔
      ∃ id, Touched plan id ∧ Differs input plan id ∧ change = changeFor input plan id := by
    intro change
    rw [List.mem_filterMap]
    constructor
    · rintro ⟨id, hid, hof⟩
      have htouched : Touched plan id := mem_keys_touchedIds.mp hid
      exact ⟨id, htouched, (hchange htouched).mp hof⟩
    · rintro ⟨id, htouched, hdiffers⟩
      exact ⟨id, mem_keys_touchedIds.mpr htouched, (hchange htouched).mpr hdiffers⟩
  have hconnections : ∀ config, config ∈ sortedConfigs fin.configs ↔
      ∃ id m, drafts input plan id = some m ∧
        config = finalConfig input ((touchedIds plan.operations).get? id).isSome id m := by
    intro config
    rw [(sortedConfigs_perm _).mem_iff, List.mem_map]
    constructor
    · rintro ⟨⟨id, config'⟩, hentry, rfl⟩
      have hstored := Dict.get?_eq_some.mpr hentry
      rw [hget, Option.map_eq_some_iff] at hstored
      obtain ⟨m, hm, hconfig⟩ := hstored
      exact ⟨id, m, hm, hconfig.symm⟩
    · rintro ⟨id, m, hm, rfl⟩
      have hstored : fin.configs.get? id =
          some (finalConfig input ((touchedIds plan.operations).get? id).isSome id m) := by
        rw [hget, hm, Option.map_some]
      exact ⟨_, Dict.get?_eq_some.mp hstored, rfl⟩
  refine ⟨hmem, ?_, ?_, hconnections, ?_, ?_⟩
  · exact (changeIds_sublist _ _ _).nodup (touchedIds plan.operations).nodup
  · intro change hch config hconfig
    obtain ⟨id, -, -, rfl⟩ := (hmem change).mp hch
    obtain ⟨m, -, rfl⟩ := Option.map_eq_some_iff.mp hconfig
    rfl
  · have hids : (fin.configs.entries.map Prod.snd).map (·.connectionId) = fin.configs.keys := by
      rw [List.map_map]
      refine List.map_congr_left fun entry hentry => ?_
      have hstored := Dict.get?_eq_some.mpr hentry
      rw [hget, Option.map_eq_some_iff] at hstored
      obtain ⟨m, -, hconfig⟩ := hstored
      rw [Function.comp_apply, ← hconfig]
      rfl
    rw [((sortedConfigs_perm fin.configs).map _).nodup_iff, hids]
    exact fin.configs.nodup
  · intro id existing hcurrent huntouched
    have hdraft : drafts input plan id = _ := drafts_of_untouched huntouched
    rw [hcurrent, Option.map_some] at hdraft
    refine ⟨_, (hconnections _).mpr ⟨id, _, hdraft, rfl⟩, rfl, ?_⟩
    have hnot : ((touchedIds plan.operations).get? id).isSome = false := by
      rw [← Bool.not_eq_true, isSome_touchedIds]
      exact huntouched
    simp [finalConfig, hnot, hcurrent, ConnectionConfig.toMutable]

end

end MiniOcs.Gnmi
