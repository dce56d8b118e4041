import Mathlib.Data.List.Induction
import Mathlib.Data.List.Nodup
import MiniOcs.Device.Matrix

/-!
# What `applyConnections` does

The seven exits of an uncached call against one description: the fold of the batch over the
connection table, and the conditions under which the device takes it.
-/
namespace MiniOcs
open Std

/-! ## The fold of a batch -/

/-- One command on a connection table. -/
def editCommand (table : ExtTreeMap String AppliedConnection) (command : ConnectionCommand) :
    ExtTreeMap String AppliedConnection :=
  match command.operation with
  | .remove => table.erase command.id
  | .upsert => table.insert command.id {
      id := command.id
      inputPort := command.inputPort
      outputPort := command.outputPort
      appliedVersion := command.desiredVersion }

def foldCommands (table : ExtTreeMap String AppliedConnection) (commands : List ConnectionCommand) :
    ExtTreeMap String AppliedConnection :=
  commands.foldl editCommand table

/-- No two connections of the table share an input or an output port. -/
def PortsDisjoint (table : ExtTreeMap String AppliedConnection) : Prop :=
  ∀ (id id' : String) (c c' : AppliedConnection), table[id]? = some c → table[id']? = some c' →
    c.inputPort = c'.inputPort ∨ c.outputPort = c'.outputPort → id = id'

/-- The last nonzero version that a batch gives an id. -/
def lastVersionIn (id : String) (commands : List ConnectionCommand) : Option Nat :=
  (commands.reverse.find? fun command =>
    decide (command.id = id) && decide (command.desiredVersion ≠ 0)).map (·.desiredVersion)

theorem getElem?_editCommand (table : ExtTreeMap String AppliedConnection)
    (command : ConnectionCommand) (id : String) :
    (editCommand table command)[id]? =
      if command.id = id then
        match command.operation with
        | .remove => none
        | .upsert => some {
            id := command.id
            inputPort := command.inputPort
            outputPort := command.outputPort
            appliedVersion := command.desiredVersion }
      else table[id]? := by
  unfold editCommand
  cases command.operation with
  | remove => simp only [ExtTreeMap.getElem?_erase, Std.compare_eq_iff_eq]
  | upsert => simp only [ExtTreeMap.getElem?_insert, Std.compare_eq_iff_eq]

/-- Commands of different connections may be exchanged. -/
theorem editCommand_comm (table : ExtTreeMap String AppliedConnection)
    {a b : ConnectionCommand} (hne : a.id ≠ b.id) :
    editCommand (editCommand table a) b = editCommand (editCommand table b) a := by
  apply ExtTreeMap.ext_getElem?
  intro id
  simp only [getElem?_editCommand]
  split_ifs with hb ha
  · exact absurd (ha.trans hb.symm) hne
  · rfl
  · rfl
  · rfl

theorem foldCommands_perm {commands commands' : List ConnectionCommand}
    (hperm : commands.Perm commands') (hnodup : (commands.map (·.id)).Nodup)
    (table : ExtTreeMap String AppliedConnection) :
    foldCommands table commands = foldCommands table commands' := by
  apply hperm.foldl_eq'
  intro a ha b hb table'
  by_cases heq : a = b
  · rw [heq]
  · apply editCommand_comm
    intro hid
    exact heq (List.inj_on_of_nodup_map hnodup ha hb hid)

theorem recordVersions_perm {commands commands' : List ConnectionCommand}
    (hperm : commands.Perm commands') (hnodup : (commands.map (·.id)).Nodup)
    (versions : ExtTreeMap String Nat) :
    SimulatedOcsDevice.recordVersions versions commands =
      SimulatedOcsDevice.recordVersions versions commands' := by
  apply hperm.foldl_eq'
  intro a ha b hb versions'
  by_cases heq : a = b
  · rw [heq]
  · have hne : a.id ≠ b.id := fun hid => heq (List.inj_on_of_nodup_map hnodup ha hb hid)
    apply ExtTreeMap.ext_getElem?
    intro id
    split_ifs with ha hb
    · simp only [ExtTreeMap.getElem?_insert, Std.compare_eq_iff_eq]
      split_ifs with hida hidb
      · exact absurd (hidb.trans hida.symm) hne
      all_goals rfl
    all_goals rfl

theorem recordVersions_concat (versions : ExtTreeMap String Nat)
    (commands : List ConnectionCommand) (command : ConnectionCommand) :
    SimulatedOcsDevice.recordVersions versions (commands ++ [command]) =
      if command.desiredVersion ≠ 0 then
        (SimulatedOcsDevice.recordVersions versions commands).insert command.id
          command.desiredVersion
      else SimulatedOcsDevice.recordVersions versions commands := by
  simp only [SimulatedOcsDevice.recordVersions, List.foldl_append, List.foldl_cons, List.foldl_nil]

theorem lastVersionIn_concat (id : String) (commands : List ConnectionCommand)
    (command : ConnectionCommand) :
    lastVersionIn id (commands ++ [command]) =
      if command.id = id ∧ command.desiredVersion ≠ 0 then some command.desiredVersion
      else lastVersionIn id commands := by
  unfold lastVersionIn
  rw [List.reverse_concat, List.find?_cons]
  by_cases h : command.id = id ∧ command.desiredVersion ≠ 0
  · simp [h]
  · rw [if_neg h]
    have hfalse : (decide (command.id = id) && decide (command.desiredVersion ≠ 0)) = false := by
      simpa using h
    rw [hfalse]

/-- The fences after a batch: the last nonzero version of the batch, else the fence before. -/
theorem getElem?_recordVersions (versions : ExtTreeMap String Nat)
    (commands : List ConnectionCommand) (id : String) :
    (SimulatedOcsDevice.recordVersions versions commands)[id]? =
      (lastVersionIn id commands).or versions[id]? := by
  induction commands using List.reverseRecOn with
  | nil => rfl
  | append_singleton commands command ih =>
      rw [recordVersions_concat, lastVersionIn_concat]
      by_cases hzero : command.desiredVersion ≠ 0
      · rw [if_pos hzero, ExtTreeMap.getElem?_insert]
        by_cases hid : command.id = id
        · rw [if_pos (Std.compare_eq_iff_eq.mpr hid), if_pos ⟨hid, hzero⟩]
          rfl
        · rw [if_neg (fun h => hid (Std.compare_eq_iff_eq.mp h)), if_neg (fun h => hid h.1), ih]
      · rw [if_neg hzero, if_neg (fun h => hzero h.2), ih]

/-! ## When a batch passes every check -/

namespace SimulatedOcsDevice

variable {ω : Type}

/-- The port exists, is enabled and is up. -/
def PortAvailable (d : SimulatedOcsDevice ω) (direction : PortDirection) (id : Nat) : Prop :=
  (1 ≤ id ∧ id ≤ d.portCount direction) ∧
    ∃ port, (d.ports direction)[id - 1]? = some port ∧ port.adminEnabled = true ∧
      port.operStatus = .up

structure Valid (d : SimulatedOcsDevice ω) (commands : List ConnectionCommand) : Prop where
  versions : ∀ command ∈ commands, command.desiredVersion ≠ 0 → ∀ last : Nat,
    d.lastVersions[command.id]? = some last → last ≤ command.desiredVersion
  ids : ∀ command ∈ commands, command.id ≠ ""
  ports : ∀ command ∈ commands, command.operation = .upsert →
    d.PortAvailable .input command.inputPort ∧ d.PortAvailable .output command.outputPort
  matching : PortsDisjoint (foldCommands d.connections commands)

/-- No one-shot fault is armed. -/
def Unarmed (d : SimulatedOcsDevice ω) : Prop :=
  d.failNextApply = false ∧ d.timeoutNextApply = false

theorem staleVersion_eq_false {d : SimulatedOcsDevice ω} {commands : List ConnectionCommand} :
    d.staleVersion commands = false ↔
      ∀ command ∈ commands, command.desiredVersion ≠ 0 → ∀ last : Nat,
        d.lastVersions[command.id]? = some last → last ≤ command.desiredVersion := by
  unfold staleVersion
  rw [List.any_eq_false]
  apply forall₂_congr
  intro command _
  cases d.lastVersions[command.id]? with
  | none => simp
  | some last => simp

theorem validatePortAvailable_ok {d : SimulatedOcsDevice ω} {direction : PortDirection} {id : Nat} :
    d.validatePortAvailable direction id = .ok () ↔ d.PortAvailable direction id := by
  unfold SimulatedOcsDevice.validatePortAvailable PortAvailable
  by_cases hok : (d.validatePort direction id).isOk = true
  · have hrange := validatePort_isOk.mp hok
    simp only [hok, Bool.not_true, Bool.false_eq_true, ↓reduceIte, hrange, and_self, true_and]
    simp only [portAt, if_neg (show id ≠ 0 by omega)]
    cases (d.ports direction)[id - 1]? with
    | none => simp
    | some port =>
        cases hadmin : port.adminEnabled <;> by_cases hup : port.operStatus = .up <;>
          simp [hadmin, hup]
  · have hrange : ¬ (1 ≤ id ∧ id ≤ d.portCount direction) := fun h =>
      hok (validatePort_isOk.mpr h)
    simp only [Bool.not_eq_true] at hok
    simp only [hok, Bool.not_false, ↓reduceIte, reduceCtorEq, hrange, false_and]

/-- The edit loop accepts exactly named commands on available ports, and then it is the fold. -/
theorem editConnections_eq {d : SimulatedOcsDevice ω} {commands : List ConnectionCommand}
    {table result : ExtTreeMap String AppliedConnection} :
    d.editConnections commands table = .ok result ↔
      ((∀ command ∈ commands, command.id ≠ "") ∧
        ∀ command ∈ commands, command.operation = .upsert →
          d.PortAvailable .input command.inputPort ∧ d.PortAvailable .output command.outputPort) ∧
      result = foldCommands table commands := by
  induction commands generalizing table with
  | nil =>
      simp only [SimulatedOcsDevice.editConnections, foldCommands, List.foldl_nil,
        List.not_mem_nil, false_implies, implies_true, true_and, Except.ok.injEq]
      exact eq_comm
  | cons command rest ih =>
      simp only [SimulatedOcsDevice.editConnections, List.forall_mem_cons, foldCommands,
        List.foldl_cons]
      by_cases hid : command.id = ""
      · simp [hid]
      · rw [if_neg hid]
        cases hop : command.operation with
        | remove =>
            rw [ih]
            simp [hid, foldCommands, editCommand, hop]
        | upsert =>
            by_cases hin : d.PortAvailable .input command.inputPort
            · by_cases hout : d.PortAvailable .output command.outputPort
              · simp only [validatePortAvailable_ok.mpr hin, validatePortAvailable_ok.mpr hout]
                rw [ih]
                simp [hid, hin, hout, foldCommands, editCommand, hop]
              · have hne := mt validatePortAvailable_ok.mp hout
                simp only [validatePortAvailable_ok.mpr hin]
                cases hres : d.validatePortAvailable .output command.outputPort with
                | ok u => exact absurd hres hne
                | error e => simp [hout]
            · have hne := mt validatePortAvailable_ok.mp hin
              cases hres : d.validatePortAvailable .input command.inputPort with
              | ok u => exact absurd hres hne
              | error e => simp [hin]

/-- Distinct entries of the table never share a port. -/
def PortsApart (conns : List AppliedConnection) : Prop :=
  conns.Pairwise fun a b => a.inputPort ≠ b.inputPort ∧ a.outputPort ≠ b.outputPort

theorem portsApart_iff {table : ExtTreeMap String AppliedConnection} :
    PortsApart (table.toList.map Prod.snd) ↔ PortsDisjoint table := by
  unfold PortsApart PortsDisjoint
  rw [List.pairwise_map]
  constructor
  · intro hpw id id' c c' hc hc' hshare
    by_contra hne
    have : Std.Symm fun a b : String × AppliedConnection =>
        a.2.inputPort ≠ b.2.inputPort ∧ a.2.outputPort ≠ b.2.outputPort :=
      ⟨fun a b hab => ⟨fun he => hab.1 he.symm, fun he => hab.2 he.symm⟩⟩
    have hapart := hpw.forall (mem_toList.mpr hc) (mem_toList.mpr hc') (by simp [hne])
    exact hshare.elim hapart.1 hapart.2
  · intro hdisjoint
    have hkeys : table.toList.Pairwise fun a b => ¬ compare a.1 b.1 = .eq :=
      ExtTreeMap.distinct_keys_toList
    apply hkeys.imp_of_mem
    rintro ⟨id, c⟩ ⟨id', c'⟩ hc hc' hne
    have hne' : id ≠ id' := fun heq => hne (Std.compare_eq_iff_eq.mpr heq)
    constructor
    · intro heq
      exact hne' (hdisjoint id id' c c' (mem_toList.mp hc) (mem_toList.mp hc') (.inl heq))
    · intro heq
      exact hne' (hdisjoint id id' c c' (mem_toList.mp hc) (mem_toList.mp hc') (.inr heq))

/-- The rebuild loop accepts connections that are apart. -/
theorem indexConnections_of_apart {done rest : List AppliedConnection}
    {inputs outputs : List (Option Nat)} (h : Indexes done inputs outputs)
    (hrest : ∀ c ∈ rest, InRange inputs.length outputs.length c) (hapart : PortsApart (done ++ rest)) :
    ∃ copies, indexConnections rest inputs outputs = .ok copies := by
  induction rest generalizing done inputs outputs with
  | nil => exact ⟨(inputs, outputs), rfl⟩
  | cons c rest ih =>
      have hc := hrest c (by simp)
      obtain ⟨i, hi, hiat⟩ := portAt_of_range hc.1.1 hc.1.2
      obtain ⟨o, ho, hoat⟩ := portAt_of_range hc.2.1 hc.2.2
      have hinpos := hc.1.1
      have houtpos := hc.2.1
      have hnew : ∀ b ∈ done, b.inputPort ≠ c.inputPort ∧ b.outputPort ≠ c.outputPort :=
        fun b hb => (List.pairwise_append.mp hapart).2.2 b hb c (by simp)
      have hinone : i = none := by
        cases i with
        | none => rfl
        | some q =>
            obtain ⟨b, hb, hbi, -⟩ := (h.forward _ q).mp hi
            have heq : b.inputPort = c.inputPort := by omega
            exact absurd heq (hnew b hb).1
      have honone : o = none := by
        cases o with
        | none => rfl
        | some p =>
            obtain ⟨b, hb, hbo, -⟩ := (h.inverse _ p).mp ho
            have heq : b.outputPort = c.outputPort := by omega
            exact absurd heq (hnew b hb).2
      subst hinone honone
      simp only [indexConnections, hiat, hoat]
      apply ih (h.snoc hc hi ho)
      · intro b hb
        simpa using hrest b (by simp [hb])
      · simpa using hapart

/-! ## Refusals carry an error -/

theorem portAt_ne_rejected {α : Type} {table : List α} {port : Nat} {e : Error} :
    portAt table port ≠ .error (.rejected e) := by
  unfold portAt
  split_ifs
  · simp
  · cases table[port - 1]? <;> simp

theorem validatePortAvailable_rejected {d : SimulatedOcsDevice ω} {direction : PortDirection}
    {id : Nat} {e : Error} (h : d.validatePortAvailable direction id = .error (.rejected e)) :
    e.isOk = false := by
  unfold SimulatedOcsDevice.validatePortAvailable at h
  split_ifs at h with hok
  · cases h
    simpa using hok
  · split at h
    · rename_i hport
      cases h
      exact absurd hport portAt_ne_rejected
    · split_ifs at h
      · cases h
        rfl
      · cases h
        rfl

theorem editConnections_rejected {d : SimulatedOcsDevice ω} {commands : List ConnectionCommand}
    {table : ExtTreeMap String AppliedConnection} {e : Error}
    (h : d.editConnections commands table = .error (.rejected e)) : e.isOk = false := by
  induction commands generalizing table with
  | nil => cases h
  | cons command rest ih =>
      simp only [SimulatedOcsDevice.editConnections] at h
      split_ifs at h
      · cases h
        rfl
      · split at h
        · exact ih h
        · split at h
          · rename_i hport
            cases h
            exact validatePortAvailable_rejected hport
          · split at h
            · rename_i hport
              cases h
              exact validatePortAvailable_rejected hport
            · exact ih h

theorem indexConnections_rejected {conns : List AppliedConnection}
    {inputs outputs : List (Option Nat)} {e : Error}
    (h : indexConnections conns inputs outputs = .error (.rejected e)) : e.isOk = false := by
  induction conns generalizing inputs outputs with
  | nil => cases h
  | cons c rest ih =>
      simp only [indexConnections] at h
      split at h
      · rename_i hport
        cases h
        exact absurd hport portAt_ne_rejected
      · cases h
        rfl
      · split at h
        · rename_i hport
          cases h
          exact absurd hport portAt_ne_rejected
        · cases h
          rfl
        · exact ih h

theorem candidate_rejected {d : SimulatedOcsDevice ω} {commands : List ConnectionCommand} {e : Error}
    (h : d.candidate commands = .error (.rejected e)) : e.isOk = false := by
  unfold SimulatedOcsDevice.candidate at h
  split_ifs at h
  · cases h
    rfl
  · split at h
    · rename_i hedit
      cases h
      exact editConnections_rejected hedit
    · split at h
      · rename_i hindex
        cases h
        exact indexConnections_rejected hindex
      · cases h

/-! ## The candidate of a batch -/

/-- Both port-indexed copies of a table, as the rebuild loop makes them. -/
def indexTable (d : SimulatedOcsDevice ω) (table : ExtTreeMap String AppliedConnection) :
    Except Refusal (List (Option Nat) × List (Option Nat)) :=
  indexConnections (table.toList.map Prod.snd) (List.replicate d.info.inputPortCount none)
    (List.replicate d.info.outputPortCount none)

theorem Sound.keyed_fold {d : SimulatedOcsDevice ω} (h : Sound d)
    {commands : List ConnectionCommand} (hvalid : d.Valid commands) :
    Keyed d.info.inputPortCount d.info.outputPortCount (foldCommands d.connections commands) := by
  have hedit := editConnections_eq.mpr
    ⟨⟨hvalid.ids, hvalid.ports⟩, (rfl : foldCommands d.connections commands = _)⟩
  rcases h.editConnections commands h.coherent.keyed with ⟨e, he⟩ | ⟨table, ht, hkeyed⟩
  · rw [hedit] at he
    cases he
  · rw [hedit] at ht
    cases ht
    exact hkeyed

theorem Sound.candidate_of_valid {d : SimulatedOcsDevice ω} (h : Sound d)
    {commands : List ConnectionCommand} (hvalid : d.Valid commands) :
    ∃ copies, d.indexTable (foldCommands d.connections commands) = .ok copies ∧
      d.candidate commands = .ok (foldCommands d.connections commands, copies) := by
  have hrange : ∀ c ∈ (foldCommands d.connections commands).toList.map Prod.snd, InRange
      (List.replicate d.info.inputPortCount (none : Option Nat)).length
      (List.replicate d.info.outputPortCount (none : Option Nat)).length c := by
    intro c hc
    obtain ⟨id, hid⟩ := mem_getConnections.mp hc
    simpa using (h.keyed_fold hvalid id c hid).2.2
  obtain ⟨copies, hcopies⟩ := indexConnections_of_apart (Indexes.nil _ _) hrange
    (portsApart_iff.mpr hvalid.matching)
  refine ⟨copies, hcopies, ?_⟩
  have hedit := editConnections_eq.mpr
    ⟨⟨hvalid.ids, hvalid.ports⟩, (rfl : foldCommands d.connections commands = _)⟩
  unfold SimulatedOcsDevice.candidate
  rw [staleVersion_eq_false.mpr hvalid.versions]
  simp only [Bool.false_eq_true, ↓reduceIte, hedit, hcopies]

theorem Sound.valid_of_candidate {d : SimulatedOcsDevice ω} (h : Sound d)
    {commands : List ConnectionCommand}
    {result : ExtTreeMap String AppliedConnection × List (Option Nat) × List (Option Nat)}
    (hresult : d.candidate commands = .ok result) : d.Valid commands := by
  rcases h.candidate commands with ⟨e, he⟩ | ⟨table, inputs, outputs, hok, hkeyed, hindex, hi, ho⟩
  · rw [he] at hresult
    cases hresult
  · unfold SimulatedOcsDevice.candidate at hok
    split_ifs at hok with hstale
    have hversions := staleVersion_eq_false.mp (Bool.not_eq_true _ ▸ hstale)
    split at hok
    · cases hok
    · rename_i table' hedit
      obtain ⟨⟨hids, hports⟩, rfl⟩ := editConnections_eq.mp hedit
      split at hok
      · cases hok
      · cases hok
        exact ⟨hversions, hids, hports, portsApart_iff.mp hindex.disjoint⟩

/-- The candidate exists exactly for valid batches. -/
theorem Sound.candidate_of_not_valid {d : SimulatedOcsDevice ω} (h : Sound d)
    {commands : List ConnectionCommand} (hvalid : ¬ d.Valid commands) :
    ∃ e, d.candidate commands = .error (.rejected e) ∧ e.isOk = false := by
  rcases h.candidate commands with ⟨e, he⟩ | ⟨table, inputs, outputs, hok, -⟩
  · exact ⟨e, he, candidate_rejected he⟩
  · exact absurd (h.valid_of_candidate hok) hvalid

/-! ## The replay cache of one call -/

/-- The replay cache may differ, nothing else does. -/
structure SameButCache (d d' : SimulatedOcsDevice ω) : Prop where
  info : d'.info = d.info
  health : d'.health = d.health
  connections : d'.connections = d.connections
  lastVersions : d'.lastVersions = d.lastVersions
  inputToOutput : d'.inputToOutput = d.inputToOutput
  outputToInput : d'.outputToInput = d.outputToInput
  inputPorts : d'.inputPorts = d.inputPorts
  outputPorts : d'.outputPorts = d.outputPorts
  failNextApply : d'.failNextApply = d.failNextApply
  timeoutNextApply : d'.timeoutNextApply = d.timeoutNextApply

/-- What the operation id decides: nothing is stored without one, and with one its result
becomes the newest entry, in the place of the oldest when the cache is full. -/
structure Recorded [DecidableEq ω] (options : ApplyOptions ω) (result : ApplyResult)
    (d d' : SimulatedOcsDevice ω) : Prop where
  silent : options.operationId = none →
    d'.applyResults = d.applyResults ∧ d'.applyResultOrder = d.applyResultOrder
  stored : ∀ op, options.operationId = some op → d'.applyResults.lookup op = some result
  order : ∀ op, options.operationId = some op → d'.applyResultOrder =
    (if d.applyResults.length < maxCachedApplyResults then d.applyResultOrder
      else d.applyResultOrder.tail) ++ [op]
  kept : ∀ op, options.operationId = some op → ∀ other, other ≠ op →
    d'.applyResults.lookup other =
      if ¬ d.applyResults.length < maxCachedApplyResults ∧ d.applyResultOrder.head? = some other
      then none else d.applyResults.lookup other

theorem lookup_filter_ne [DecidableEq ω] (entries : List (ω × ApplyResult)) (op other : ω) :
    (entries.filter fun entry => entry.1 ≠ op).lookup other =
      if other = op then none else entries.lookup other := by
  induction entries with
  | nil => simp
  | cons entry rest ih =>
      obtain ⟨key, value⟩ := entry
      by_cases hkey : key = op
      · rw [List.filter_cons_of_neg (by simpa using hkey), ih]
        split_ifs with hother
        · rfl
        · have hne : (other == key) = false := by simpa [hkey] using hother
          rw [List.lookup_cons, hne]
      · rw [List.filter_cons_of_pos (by simpa using hkey), List.lookup_cons, List.lookup_cons, ih]
        by_cases hother : other = key
        · have hne : key ≠ op := hkey
          simp [hother, hne]
        · have hne : (other == key) = false := by simpa using hother
          rw [hne]

theorem lookup_store [DecidableEq ω] (entries : List (ω × ApplyResult)) (op other : ω)
    (result : ApplyResult) :
    ((entries.filter fun entry => entry.1 ≠ op) ++ [(op, result)]).lookup other =
      if other = op then some result else entries.lookup other := by
  rw [List.lookup_append, lookup_filter_ne, List.lookup_cons]
  by_cases hop : other = op
  · simp [hop]
  · have hne : (other == op) = false := by simpa using hop
    simp [hop, hne]

/-- A full cache without its oldest entry. -/
def evictOldest [DecidableEq ω] (d : SimulatedOcsDevice ω) : SimulatedOcsDevice ω :=
  if d.applyResults.length < maxCachedApplyResults then d
  else match d.applyResultOrder with
    | [] => d
    | oldest :: order =>
        { d with
          applyResults := d.applyResults.filter fun entry => entry.1 ≠ oldest
          applyResultOrder := order }

theorem evictOldest_same [DecidableEq ω] (d : SimulatedOcsDevice ω) :
    SameButCache d d.evictOldest := by
  unfold evictOldest
  split_ifs
  · constructor <;> rfl
  · cases d.applyResultOrder <;> constructor <;> rfl

theorem evictOldest_order [DecidableEq ω] (d : SimulatedOcsDevice ω) :
    d.evictOldest.applyResultOrder =
      if d.applyResults.length < maxCachedApplyResults then d.applyResultOrder
      else d.applyResultOrder.tail := by
  unfold evictOldest
  split_ifs
  · rfl
  · cases horder : d.applyResultOrder <;> simp [horder]

theorem evictOldest_lookup [DecidableEq ω] (d : SimulatedOcsDevice ω) (other : ω) :
    d.evictOldest.applyResults.lookup other =
      if ¬ d.applyResults.length < maxCachedApplyResults ∧ d.applyResultOrder.head? = some other
      then none else d.applyResults.lookup other := by
  unfold evictOldest
  by_cases hfull : d.applyResults.length < maxCachedApplyResults
  · simp [hfull]
  · rw [if_neg hfull]
    cases horder : d.applyResultOrder with
    | nil => simp
    | cons oldest order =>
        dsimp only
        rw [lookup_filter_ne]
        simp [hfull, eq_comm]

theorem finish_none [DecidableEq ω] {d : SimulatedOcsDevice ω} {options : ApplyOptions ω}
    (result : ApplyResult) (h : options.operationId = none) :
    d.finish options result = (result, d) := by
  unfold SimulatedOcsDevice.finish
  rw [h]

theorem finish_some [DecidableEq ω] {d : SimulatedOcsDevice ω} {options : ApplyOptions ω} {op : ω}
    (result : ApplyResult) (h : options.operationId = some op) :
    d.finish options result = (result, { d.evictOldest with
      applyResults :=
        (d.evictOldest.applyResults.filter fun entry => entry.1 ≠ op) ++ [(op, result)]
      applyResultOrder := d.evictOldest.applyResultOrder ++ [op] }) := by
  unfold SimulatedOcsDevice.finish
  rw [h]
  rfl

theorem finish_fst [DecidableEq ω] (d : SimulatedOcsDevice ω) (options : ApplyOptions ω)
    (result : ApplyResult) : (d.finish options result).1 = result := by
  cases hop : options.operationId with
  | none => rw [finish_none result hop]
  | some op => rw [finish_some result hop]

theorem finish_same [DecidableEq ω] (d : SimulatedOcsDevice ω) (options : ApplyOptions ω)
    (result : ApplyResult) : SameButCache d (d.finish options result).2 := by
  cases hop : options.operationId with
  | none =>
      rw [finish_none result hop]
      constructor <;> rfl
  | some op =>
      rw [finish_some result hop]
      obtain ⟨_, _, _, _, _, _, _, _, _, _⟩ := d.evictOldest_same
      constructor <;> assumption

theorem finish_recorded [DecidableEq ω] (d : SimulatedOcsDevice ω) (options : ApplyOptions ω)
    (result : ApplyResult) : Recorded options result d (d.finish options result).2 := by
  cases hop : options.operationId with
  | none =>
      rw [finish_none result hop]
      constructor <;> simp [hop]
  | some op =>
      rw [finish_some result hop]
      constructor
      · simp [hop]
      · intro op' heq
        cases hop.symm.trans heq
        rw [lookup_store, if_pos rfl]
      · intro op' heq
        cases hop.symm.trans heq
        rw [← evictOldest_order]
      · intro op' heq other hne
        cases hop.symm.trans heq
        rw [lookup_store, if_neg hne, evictOldest_lookup]

/-! ## The three outcomes of an uncached call -/

/-- The one-shot fault that a valid batch runs into is used up. -/
def disarm (d : SimulatedOcsDevice ω) : SimulatedOcsDevice ω :=
  if d.failNextApply then { d with failNextApply := false }
  else { d with timeoutNextApply := false }

/-- The device with the fold of the batch as its matrix. -/
def commit (d : SimulatedOcsDevice ω) (commands : List ConnectionCommand)
    (copies : List (Option Nat) × List (Option Nat)) : SimulatedOcsDevice ω :=
  { d with
    connections := foldCommands d.connections commands
    inputToOutput := copies.1
    outputToInput := copies.2
    lastVersions := recordVersions d.lastVersions commands }

inductive Outcome [DecidableEq ω] (d : SimulatedOcsDevice ω) (commands : List ConnectionCommand)
    (options : ApplyOptions ω) : ApplyResult × SimulatedOcsDevice ω → Prop
  | refused {e : Error} (herror : e.isOk = false)
      (hinvalid : ¬ (options.atomic = true ∧ d.Valid commands)) :
      Outcome d commands options (d.finish options ⟨e, []⟩)
  | injected {e : Error} (herror : e.isOk = false) (hatomic : options.atomic = true)
      (hvalid : d.Valid commands) (harmed : ¬ d.Unarmed) :
      Outcome d commands options (d.disarm.finish options ⟨e, []⟩)
  | applied {copies : List (Option Nat) × List (Option Nat)} (hatomic : options.atomic = true)
      (hvalid : d.Valid commands) (harmed : d.Unarmed)
      (hcopies : d.indexTable (foldCommands d.connections commands) = .ok copies) :
      Outcome d commands options ((d.commit commands copies).finish options
        ⟨Error.success, changedConnections (foldCommands d.connections commands) commands⟩)

theorem Sound.outcome [DecidableEq ω] {d : SimulatedOcsDevice ω} (h : Sound d)
    (commands : List ConnectionCommand) {options : ApplyOptions ω}
    (hnew : d.cachedResult options = none) :
    ∃ r, d.applyConnections commands options = .ok r ∧ Outcome d commands options r := by
  unfold SimulatedOcsDevice.applyConnections
  rw [hnew]
  dsimp only
  by_cases hatomic : options.atomic = true
  · simp only [hatomic, Bool.not_true, Bool.false_eq_true, ↓reduceIte]
    unfold applyBatch
    by_cases hvalid : d.Valid commands
    · obtain ⟨copies, hcopies, hcandidate⟩ := h.candidate_of_valid hvalid
      simp only [hcandidate]
      by_cases hfail : d.failNextApply = true
      · have harmed : ¬ d.Unarmed := fun hu => by simp [hu.1] at hfail
        have hout : Outcome d commands options _ := .injected
          (e := { code := .applyFailed, message := "injected next-apply failure" })
          rfl hatomic hvalid harmed
        simp only [disarm, hfail, ↓reduceIte] at hout
        simp only [hfail, ↓reduceIte]
        exact ⟨_, rfl, hout⟩
      · by_cases htimeout : d.timeoutNextApply = true
        · have harmed : ¬ d.Unarmed := fun hu => by simp [hu.2] at htimeout
          have hout : Outcome d commands options _ := .injected
            (e := { code := .applyTimeout, message := "injected next-apply timeout" })
            rfl hatomic hvalid harmed
          simp only [disarm, hfail, Bool.false_eq_true, ↓reduceIte] at hout
          simp only [hfail, htimeout, Bool.false_eq_true, ↓reduceIte]
          exact ⟨_, rfl, hout⟩
        · have hunarmed : d.Unarmed := ⟨by simpa using hfail, by simpa using htimeout⟩
          rw [if_neg hfail, if_neg htimeout]
          exact ⟨_, rfl, .applied hatomic hvalid hunarmed hcopies⟩
    · obtain ⟨e, he, herror⟩ := h.candidate_of_not_valid hvalid
      simp only [he]
      exact ⟨_, rfl, .refused herror fun hv => hvalid hv.2⟩
  · simp only [Bool.not_eq_true] at hatomic
    simp only [hatomic, Bool.not_false, ↓reduceIte]
    exact ⟨_, rfl, .refused rfl fun hv => by simp [hatomic] at hv⟩

/-! ## The specification of a call -/

/-- The states the constructor and any calls lead to. -/
def Reachable [DecidableEq ω] (d : SimulatedOcsDevice ω) : Prop :=
  ∃ (info : DeviceInfo) (start : SimulatedOcsDevice ω) (calls : List (Call ω)),
    construct info = some (.ok start) ∧ start.runCalls calls = .ok d

theorem Reachable.sound [DecidableEq ω] {d : SimulatedOcsDevice ω} (h : Reachable d) : Sound d := by
  obtain ⟨info, start, calls, hstart, hcalls⟩ := h
  obtain ⟨d', hd', hsound⟩ := (Sound.construct hstart).runCalls calls
  rw [hcalls] at hd'
  cases hd'
  exact hsound

/-- What a failed call leaves alone. -/
structure MatrixKept (d d' : SimulatedOcsDevice ω) : Prop where
  connections : d'.connections = d.connections
  inputToOutput : d'.inputToOutput = d.inputToOutput
  outputToInput : d'.outputToInput = d.outputToInput
  lastVersions : d'.lastVersions = d.lastVersions
  inputPorts : d'.inputPorts = d.inputPorts
  outputPorts : d'.outputPorts = d.outputPorts
  health : d'.health = d.health
  info : d'.info = d.info

/-- Exactly one armed one-shot fault is gone. -/
def OneFaultConsumed (d d' : SimulatedOcsDevice ω) : Prop :=
  (d.failNextApply = true ∧ d'.failNextApply = false ∧
    d'.timeoutNextApply = d.timeoutNextApply) ∨
  (d.timeoutNextApply = true ∧ d'.timeoutNextApply = false ∧
    d'.failNextApply = d.failNextApply)

def FaultsKept (d d' : SimulatedOcsDevice ω) : Prop :=
  d'.failNextApply = d.failNextApply ∧ d'.timeoutNextApply = d.timeoutNextApply

/-- What a successful call installs and returns. -/
structure Applied (d : SimulatedOcsDevice ω) (commands : List ConnectionCommand)
    (result : ApplyResult) (d' : SimulatedOcsDevice ω) : Prop where
  connections : d'.connections = foldCommands d.connections commands
  fences : ∀ id : String, d'.lastVersions[id]? =
    (lastVersionIn id commands).or d.lastVersions[id]?
  returned : result.connections =
    commands.filterMap fun command => (foldCommands d.connections commands)[command.id]?

theorem SameButCache.matrixKept {d d' : SimulatedOcsDevice ω} (h : SameButCache d d') :
    MatrixKept d d' :=
  ⟨h.connections, h.inputToOutput, h.outputToInput, h.lastVersions, h.inputPorts, h.outputPorts,
    h.health, h.info⟩

theorem disarm_kept {d d' : SimulatedOcsDevice ω} (h : SameButCache d.disarm d') :
    MatrixKept d d' := by
  have hkept := h.matrixKept
  unfold disarm at hkept
  split_ifs at hkept <;> exact ⟨hkept.connections, hkept.inputToOutput, hkept.outputToInput,
    hkept.lastVersions, hkept.inputPorts, hkept.outputPorts, hkept.health, hkept.info⟩

theorem disarm_consumed {d d' : SimulatedOcsDevice ω} (harmed : ¬ d.Unarmed)
    (h : SameButCache d.disarm d') : OneFaultConsumed d d' := by
  have hfail := h.failNextApply
  have htimeout := h.timeoutNextApply
  unfold disarm at hfail htimeout
  by_cases hf : d.failNextApply = true
  · simp only [hf, ↓reduceIte] at hfail htimeout
    exact .inl ⟨hf, hfail, htimeout⟩
  · rw [if_neg hf] at hfail htimeout
    have ht : d.timeoutNextApply = true := by
      by_contra hne
      exact harmed ⟨by simpa using hf, by simpa using hne⟩
    exact .inr ⟨ht, htimeout, hfail⟩

theorem disarm_recorded [DecidableEq ω] {d d' : SimulatedOcsDevice ω} {options : ApplyOptions ω}
    {result : ApplyResult} (h : Recorded options result d.disarm d') :
    Recorded options result d d' := by
  unfold disarm at h
  split_ifs at h <;> exact ⟨h.silent, h.stored, h.order, h.kept⟩

/-- An uncached call succeeds exactly when the batch is atomic, valid and meets no armed fault;
success installs the fold of the batch, failure keeps the matrix and uses up one armed fault
exactly when every check had passed. -/
theorem applyConnections_spec [DecidableEq ω] {d : SimulatedOcsDevice ω} (hd : Reachable d)
    (commands : List ConnectionCommand) (options : ApplyOptions ω)
    (hnew : d.cachedResult options = none) :
    ∃ result d', d.applyConnections commands options = .ok (result, d') ∧
      (result.isOk = true ↔ options.atomic = true ∧ d.Valid commands ∧ d.Unarmed) ∧
      (result.isOk = true → Applied d commands result d') ∧
      (result.isOk = false → MatrixKept d d' ∧
        (options.atomic = true ∧ d.Valid commands → OneFaultConsumed d d') ∧
        (¬ (options.atomic = true ∧ d.Valid commands) → FaultsKept d d')) ∧
      Recorded options result d d' := by
  obtain ⟨⟨result, d'⟩, hrun, hout⟩ := hd.sound.outcome commands hnew
  refine ⟨result, d', hrun, ?_⟩
  generalize hr : (result, d') = r at hout
  cases hout with
  | @refused e herror hinvalid =>
      have hresult : result = ⟨e, []⟩ := (congrArg Prod.fst hr).trans (finish_fst ..)
      have hdevice : d' = (d.finish options ⟨e, []⟩).2 := congrArg Prod.snd hr
      have hfalse : result.isOk = false := by rw [hresult]; exact herror
      have hsame := d.finish_same options ⟨e, []⟩
      rw [← hdevice] at hsame
      refine ⟨?_, ?_, fun _ => ⟨hsame.matrixKept, fun hv => absurd hv hinvalid, fun _ =>
        ⟨hsame.failNextApply, hsame.timeoutNextApply⟩⟩, ?_⟩
      · rw [hfalse]
        constructor
        · intro h
          cases h
        · intro h
          exact absurd ⟨h.1, h.2.1⟩ hinvalid
      · intro h
        rw [hfalse] at h
        cases h
      · rw [hresult, hdevice]
        exact finish_recorded ..
  | @injected e herror hatomic hvalid harmed =>
      have hresult : result = ⟨e, []⟩ := (congrArg Prod.fst hr).trans (finish_fst ..)
      have hdevice : d' = (d.disarm.finish options ⟨e, []⟩).2 := congrArg Prod.snd hr
      have hfalse : result.isOk = false := by rw [hresult]; exact herror
      have hsame := d.disarm.finish_same options ⟨e, []⟩
      rw [← hdevice] at hsame
      refine ⟨?_, ?_, fun _ => ⟨disarm_kept hsame, fun _ => disarm_consumed harmed hsame, fun hv =>
        absurd ⟨hatomic, hvalid⟩ hv⟩, ?_⟩
      · rw [hfalse]
        constructor
        · intro h
          cases h
        · intro h
          exact absurd h.2.2 harmed
      · intro h
        rw [hfalse] at h
        cases h
      · rw [hresult, hdevice]
        exact disarm_recorded (finish_recorded ..)
  | @applied copies hatomic hvalid hunarmed hcopies =>
      have hresult := (congrArg Prod.fst hr).trans (finish_fst ..)
      have hdevice := congrArg Prod.snd hr
      dsimp only at hresult hdevice
      have htrue : result.isOk = true := by rw [hresult]; rfl
      have hsame := (d.commit commands copies).finish_same options
        ⟨Error.success, changedConnections (foldCommands d.connections commands) commands⟩
      have hrecorded := (d.commit commands copies).finish_recorded options
        ⟨Error.success, changedConnections (foldCommands d.connections commands) commands⟩
      rw [← hdevice] at hsame hrecorded
      refine ⟨iff_of_true htrue ⟨hatomic, hvalid, hunarmed⟩, fun _ => ⟨hsame.connections,
        fun id => ?_, ?_⟩, ?_, ?_⟩
      · rw [hsame.lastVersions]
        exact getElem?_recordVersions ..
      · rw [hresult]
        rfl
      · intro h
        rw [htrue] at h
        cases h
      · rw [hresult]
        exact ⟨hrecorded.silent, hrecorded.stored, hrecorded.order, hrecorded.kept⟩

theorem twoByTwo_reachable : Reachable twoByTwo := ⟨twoByTwo.info, twoByTwo, [], rfl, rfl⟩

/-- A crossed pair as one batch. -/
def crossedPair : List ConnectionCommand :=
  [{ id := "a", inputPort := 1, outputPort := 2, desiredVersion := 1 },
    { id := "b", inputPort := 2, outputPort := 1, desiredVersion := 1 }]

theorem applyConnections_spec_crossedPair :
    Reachable twoByTwo ∧ twoByTwo.cachedResult { operationId := some "op1" } = none ∧
    ∃ result d', twoByTwo.applyConnections crossedPair { operationId := some "op1" } =
        .ok (result, d') ∧
      (result.isOk = true ↔ true = true ∧ twoByTwo.Valid crossedPair ∧ twoByTwo.Unarmed) ∧
      (result.isOk = true → Applied twoByTwo crossedPair result d') ∧
      (result.isOk = false → MatrixKept twoByTwo d' ∧
        (true = true ∧ twoByTwo.Valid crossedPair → OneFaultConsumed twoByTwo d') ∧
        (¬ (true = true ∧ twoByTwo.Valid crossedPair) → FaultsKept twoByTwo d')) ∧
      Recorded { operationId := some "op1" } result twoByTwo d' :=
  ⟨twoByTwo_reachable, rfl,
    applyConnections_spec twoByTwo_reachable crossedPair { operationId := some "op1" } rfl⟩

/-! ## The order of a batch -/

theorem SameButCache.symm {d d' : SimulatedOcsDevice ω} (h : SameButCache d d') :
    SameButCache d' d :=
  ⟨h.info.symm, h.health.symm, h.connections.symm, h.lastVersions.symm, h.inputToOutput.symm,
    h.outputToInput.symm, h.inputPorts.symm, h.outputPorts.symm, h.failNextApply.symm,
    h.timeoutNextApply.symm⟩

theorem SameButCache.trans {d d' d'' : SimulatedOcsDevice ω} (h : SameButCache d d')
    (h' : SameButCache d' d'') : SameButCache d d'' :=
  ⟨h'.info.trans h.info, h'.health.trans h.health, h'.connections.trans h.connections,
    h'.lastVersions.trans h.lastVersions, h'.inputToOutput.trans h.inputToOutput,
    h'.outputToInput.trans h.outputToInput, h'.inputPorts.trans h.inputPorts,
    h'.outputPorts.trans h.outputPorts, h'.failNextApply.trans h.failNextApply,
    h'.timeoutNextApply.trans h.timeoutNextApply⟩

/-- Two calls that end on one device up to the cache. -/
theorem finish_agree [DecidableEq ω] (d : SimulatedOcsDevice ω) (options : ApplyOptions ω)
    (result result' : ApplyResult) :
    SameButCache (d.finish options result).2 (d.finish options result').2 :=
  (finish_same ..).symm.trans (finish_same ..)

theorem Valid.perm {d : SimulatedOcsDevice ω} {commands commands' : List ConnectionCommand}
    (h : d.Valid commands) (hperm : commands.Perm commands')
    (hnodup : (commands.map (·.id)).Nodup) : d.Valid commands' := by
  constructor
  · intro command hmem
    exact h.versions command (hperm.mem_iff.mpr hmem)
  · intro command hmem
    exact h.ids command (hperm.mem_iff.mpr hmem)
  · intro command hmem
    exact h.ports command (hperm.mem_iff.mpr hmem)
  · rw [← foldCommands_perm hperm hnodup]
    exact h.matching

/-- A batch of distinct connections does the same in every order. -/
theorem applyConnections_perm [DecidableEq ω] {d : SimulatedOcsDevice ω} (hd : Reachable d)
    {commands commands' : List ConnectionCommand} (hperm : commands.Perm commands')
    (hnodup : (commands.map (·.id)).Nodup) (options : ApplyOptions ω)
    (hnew : d.cachedResult options = none) :
    ∃ result d₁ result' d₂, d.applyConnections commands options = .ok (result, d₁) ∧
      d.applyConnections commands' options = .ok (result', d₂) ∧
      result.isOk = result'.isOk ∧ SameButCache d₁ d₂ := by
  have hnodup' : (commands'.map (·.id)).Nodup := (hperm.map _).nodup_iff.mp hnodup
  have hvalid : d.Valid commands ↔ d.Valid commands' :=
    ⟨fun h => h.perm hperm hnodup, fun h => h.perm hperm.symm hnodup'⟩
  obtain ⟨⟨result, d₁⟩, hrun, hout⟩ := hd.sound.outcome commands hnew
  obtain ⟨⟨result', d₂⟩, hrun', hout'⟩ := hd.sound.outcome commands' hnew
  refine ⟨result, d₁, result', d₂, hrun, hrun', ?_⟩
  suffices hgoal : ∀ r r', Outcome d commands options r → Outcome d commands' options r' →
      r.1.isOk = r'.1.isOk ∧ SameButCache r.2 r'.2 from hgoal _ _ hout hout'
  clear hrun hrun' hout hout' result d₁ result' d₂
  intro r r' hout hout'
  cases hout with
  | refused herror hinvalid =>
      cases hout' with
      | refused herror' hinvalid' =>
          rw [finish_fst, finish_fst]
          exact ⟨herror.trans herror'.symm, finish_agree ..⟩
      | injected herror' hatomic hvalid' harmed =>
          exact absurd ⟨hatomic, hvalid.mpr hvalid'⟩ hinvalid
      | applied hatomic hvalid' hunarmed hcopies =>
          exact absurd ⟨hatomic, hvalid.mpr hvalid'⟩ hinvalid
  | injected herror hatomic hv harmed =>
      cases hout' with
      | refused herror' hinvalid' => exact absurd ⟨hatomic, hvalid.mp hv⟩ hinvalid'
      | injected herror' hatomic' hv' harmed' =>
          rw [finish_fst, finish_fst]
          exact ⟨herror.trans herror'.symm, finish_agree ..⟩
      | applied hatomic' hv' hunarmed hcopies => exact absurd hunarmed harmed
  | @applied copies hatomic hv hunarmed hcopies =>
      cases hout' with
      | refused herror' hinvalid' => exact absurd ⟨hatomic, hvalid.mp hv⟩ hinvalid'
      | injected herror' hatomic' hv' harmed => exact absurd hunarmed harmed
      | @applied copies' hatomic' hv' hunarmed' hcopies' =>
          have hfold := foldCommands_perm hperm hnodup d.connections
          have hcommit : d.commit commands copies = d.commit commands' copies' := by
            rw [hfold, hcopies'] at hcopies
            cases hcopies
            unfold commit
            rw [hfold, recordVersions_perm hperm hnodup]
          rw [finish_fst, finish_fst, hcommit]
          exact ⟨rfl, finish_agree ..⟩

/-- Both orders of the crossed pair. -/
theorem applyConnections_perm_crossedPair :
    crossedPair.Perm crossedPair.reverse ∧ (crossedPair.map (·.id)).Nodup ∧
    ∃ result d₁ result' d₂,
      twoByTwo.applyConnections crossedPair { operationId := some "op1" } = .ok (result, d₁) ∧
      twoByTwo.applyConnections crossedPair.reverse { operationId := some "op1" } =
        .ok (result', d₂) ∧
      result.isOk = result'.isOk ∧ SameButCache d₁ d₂ :=
  have hperm : crossedPair.Perm crossedPair.reverse := (List.reverse_perm _).symm
  have hnodup : (crossedPair.map (·.id)).Nodup := by decide
  ⟨hperm, hnodup,
    applyConnections_perm twoByTwo_reachable hperm hnodup { operationId := some "op1" } rfl⟩

end SimulatedOcsDevice

end MiniOcs
