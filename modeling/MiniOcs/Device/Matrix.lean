import Mathlib.Tactic.Common
import Mathlib.Data.List.Pairwise
import MiniOcs.Device.Simulated

/-!
# The three copies of the matrix

`Coherent` is the representation invariant of the device: the connection table is a
matching inside the port range, and the two port-indexed vectors are its forward and
inverse maps. Every operation keeps it and every checked index is in range.
-/
namespace MiniOcs
open Std

/-! ## Port vectors -/

theorem makePortsLoop_length {direction : PortDirection} {count : Nat} {fuel : Nat} {id : Nat}
    {acc ports : List PortState} (hid : id ≤ count + 1) (hlt : id < 65536)
    (h : makePortsLoop direction count fuel id acc = some ports) :
    ports.length = acc.length + (count + 1 - id) := by
  induction fuel generalizing id acc with
  | zero => cases h
  | succ fuel ih =>
      simp only [makePortsLoop] at h
      split_ifs at h with hle
      · by_cases hwrap : id = 65535
        · -- the loop variable wraps to zero, so the loop condition never fails again
          exfalso
          subst hwrap
          have hstuck : ∀ fuel id acc, id < 65536 →
              makePortsLoop direction count fuel id acc = none := by
            intro fuel
            induction fuel with
            | zero => intro _ _ _; rfl
            | succ n ihn =>
                intro id acc hlt
                simp only [makePortsLoop, if_pos (show id ≤ count by omega)]
                exact ihn _ _ (Nat.mod_lt _ (by decide))
          rw [hstuck _ _ _ (Nat.mod_lt _ (by decide))] at h
          cases h
        · have hmod : (id + 1) % 65536 = id + 1 := Nat.mod_eq_of_lt (by omega)
          rw [hmod] at h
          have := ih (by omega) (by omega) h
          simp only [List.length_append, List.length_singleton] at this
          omega
      · cases h
        omega

theorem makePorts_length {direction : PortDirection} {count : Nat} {ports : List PortState}
    (h : makePorts direction count = some ports) : ports.length = count := by
  have := makePortsLoop_length (by omega) (by omega) h
  simpa using this

theorem portAt_of_range {α : Type} {table : List α} {port : Nat} (hpos : 1 ≤ port)
    (hle : port ≤ table.length) : ∃ a, table[port - 1]? = some a ∧ portAt table port = .ok a := by
  have hlt : port - 1 < table.length := by omega
  refine ⟨table[port - 1], List.getElem?_eq_getElem hlt, ?_⟩
  simp only [portAt, if_neg (show port ≠ 0 by omega), List.getElem?_eq_getElem hlt]

/-! ## Indexing a list of connections by port -/

/-- The two vectors hold exactly the listed connections, none of which share a port. -/
structure Indexes (conns : List AppliedConnection) (inputs outputs : List (Option Nat)) :
    Prop where
  forward : ∀ p q, inputs[p]? = some (some q) ↔
    ∃ c ∈ conns, c.inputPort = p + 1 ∧ c.outputPort = q
  inverse : ∀ q p, outputs[q]? = some (some p) ↔
    ∃ c ∈ conns, c.outputPort = q + 1 ∧ c.inputPort = p
  disjoint : conns.Pairwise fun a b => a.inputPort ≠ b.inputPort ∧ a.outputPort ≠ b.outputPort

def InRange (n m : Nat) (c : AppliedConnection) : Prop :=
  (1 ≤ c.inputPort ∧ c.inputPort ≤ n) ∧ 1 ≤ c.outputPort ∧ c.outputPort ≤ m

theorem Indexes.nil (n m : Nat) : Indexes [] (List.replicate n none) (List.replicate m none) := by
  refine ⟨?_, ?_, List.Pairwise.nil⟩ <;> intro p q <;>
    simp [List.getElem?_replicate]

theorem Indexes.snoc {conns : List AppliedConnection} {inputs outputs : List (Option Nat)}
    (h : Indexes conns inputs outputs) {c : AppliedConnection}
    (hc : InRange inputs.length outputs.length c)
    (hin : inputs[c.inputPort - 1]? = some none) (hout : outputs[c.outputPort - 1]? = some none) :
    Indexes (conns ++ [c]) (inputs.set (c.inputPort - 1) (some c.outputPort))
      (outputs.set (c.outputPort - 1) (some c.inputPort)) := by
  obtain ⟨⟨hi1, hi2⟩, ho1, ho2⟩ := hc
  refine ⟨?_, ?_, ?_⟩
  · intro p q
    rw [List.getElem?_set]
    by_cases hp : c.inputPort - 1 = p
    · rw [if_pos hp, if_pos (by omega)]
      constructor
      · intro heq
        cases heq
        exact ⟨c, by simp, by omega, rfl⟩
      · rintro ⟨b, hb, hbi, hbo⟩
        rcases List.mem_append.mp hb with hb | hb
        · have := (h.forward p q).mpr ⟨b, hb, hbi, hbo⟩
          rw [← hp, hin] at this
          cases this
        · cases List.mem_singleton.mp hb; rw [hbo]
    · rw [if_neg hp, h.forward]
      constructor
      · rintro ⟨b, hb, hbi, hbo⟩; exact ⟨b, by simp [hb], hbi, hbo⟩
      · rintro ⟨b, hb, hbi, hbo⟩
        rcases List.mem_append.mp hb with hb | hb
        · exact ⟨b, hb, hbi, hbo⟩
        · cases List.mem_singleton.mp hb; omega
  · intro q p
    rw [List.getElem?_set]
    by_cases hq : c.outputPort - 1 = q
    · rw [if_pos hq, if_pos (by omega)]
      constructor
      · intro heq
        cases heq
        exact ⟨c, by simp, by omega, rfl⟩
      · rintro ⟨b, hb, hbo, hbi⟩
        rcases List.mem_append.mp hb with hb | hb
        · have := (h.inverse q p).mpr ⟨b, hb, hbo, hbi⟩
          rw [← hq, hout] at this
          cases this
        · cases List.mem_singleton.mp hb; rw [hbi]
    · rw [if_neg hq, h.inverse]
      constructor
      · rintro ⟨b, hb, hbo, hbi⟩; exact ⟨b, by simp [hb], hbo, hbi⟩
      · rintro ⟨b, hb, hbo, hbi⟩
        rcases List.mem_append.mp hb with hb | hb
        · exact ⟨b, hb, hbo, hbi⟩
        · cases List.mem_singleton.mp hb; omega
  · refine List.pairwise_append.mpr ⟨h.disjoint, List.pairwise_singleton _ _, ?_⟩
    intro a ha b hb
    cases List.mem_singleton.mp hb
    constructor
    · intro heq
      have := (h.forward (c.inputPort - 1) a.outputPort).mpr ⟨a, ha, by omega, rfl⟩
      rw [hin] at this
      cases this
    · intro heq
      have := (h.inverse (c.outputPort - 1) a.inputPort).mpr ⟨a, ha, by omega, rfl⟩
      rw [hout] at this
      cases this

/-- The rebuild loop never indexes out of range, and when it accepts, it has indexed the list. -/
theorem indexConnections_spec {done rest : List AppliedConnection}
    {inputs outputs : List (Option Nat)} (h : Indexes done inputs outputs)
    (hrest : ∀ c ∈ rest, InRange inputs.length outputs.length c) :
    (∃ e, SimulatedOcsDevice.indexConnections rest inputs outputs = .error (.rejected e)) ∨
    ∃ inputs' outputs', SimulatedOcsDevice.indexConnections rest inputs outputs =
        .ok (inputs', outputs') ∧
      Indexes (done ++ rest) inputs' outputs' ∧
      inputs'.length = inputs.length ∧ outputs'.length = outputs.length := by
  induction rest generalizing done inputs outputs with
  | nil => exact .inr ⟨inputs, outputs, rfl, by simpa using h, rfl, rfl⟩
  | cons c rest ih =>
      have hc := hrest c (by simp)
      obtain ⟨i, hi, hiat⟩ := portAt_of_range hc.1.1 hc.1.2
      obtain ⟨o, ho, hoat⟩ := portAt_of_range hc.2.1 hc.2.2
      simp only [SimulatedOcsDevice.indexConnections, hiat, hoat]
      cases i with
      | some q => exact .inl ⟨_, rfl⟩
      | none =>
          cases o with
          | some p => exact .inl ⟨_, rfl⟩
          | none =>
              have hnext := ih (h.snoc hc hi ho)
                (fun b hb => by simpa using hrest b (by simp [hb]))
              simpa only [List.append_assoc, List.singleton_append, List.length_set] using hnext

/-! ## The representation invariant -/

namespace SimulatedOcsDevice

variable {ω : Type}

theorem mem_toList {table : ExtTreeMap String AppliedConnection} {id : String}
    {c : AppliedConnection} : (id, c) ∈ table.toList ↔ table[id]? = some c :=
  ExtTreeMap.mem_toList_iff_getElem?_eq_some

theorem toList_empty : (∅ : ExtTreeMap String AppliedConnection).toList = [] :=
  List.eq_nil_iff_forall_not_mem.mpr fun ⟨_, _⟩ h => by simpa using mem_toList.mp h

theorem mem_getConnections {table : ExtTreeMap String AppliedConnection} {c : AppliedConnection} :
    c ∈ table.toList.map Prod.snd ↔ ∃ id : String, table[id]? = some c := by
  simp only [List.mem_map, Prod.exists, exists_eq_right, mem_toList]

/-- Entries sit under their own nonempty id and inside the port range. -/
def Keyed (n m : Nat) (table : ExtTreeMap String AppliedConnection) : Prop :=
  ∀ (id : String) (c : AppliedConnection), table[id]? = some c → c.id = id ∧ id ≠ "" ∧ InRange n m c

structure Coherent (d : SimulatedOcsDevice ω) : Prop where
  keyed : Keyed d.info.inputPortCount d.info.outputPortCount d.connections
  inputs : ∀ (id id' : String) (c c' : AppliedConnection), d.connections[id]? = some c →
    d.connections[id']? = some c' → c.inputPort = c'.inputPort → id = id'
  outputs : ∀ (id id' : String) (c c' : AppliedConnection), d.connections[id]? = some c →
    d.connections[id']? = some c' → c.outputPort = c'.outputPort → id = id'
  forward : ∀ p q, d.inputToOutput[p]? = some (some q) ↔
    ∃ (id : String) (c : AppliedConnection), d.connections[id]? = some c ∧ c.inputPort = p + 1 ∧ c.outputPort = q
  inverse : ∀ q p, d.outputToInput[q]? = some (some p) ↔
    ∃ (id : String) (c : AppliedConnection), d.connections[id]? = some c ∧ c.outputPort = q + 1 ∧ c.inputPort = p
  inputs_length : d.inputToOutput.length = d.info.inputPortCount
  outputs_length : d.outputToInput.length = d.info.outputPortCount

/-- The forward and the inverse vector undo each other. -/
theorem Coherent.mutually_inverse {d : SimulatedOcsDevice ω} (h : Coherent d) (p q : Nat) :
    d.inputToOutput[p]? = some (some (q + 1)) ↔ d.outputToInput[q]? = some (some (p + 1)) := by
  rw [h.forward, h.inverse]
  constructor
  · rintro ⟨id, c, hc, hi, ho⟩; exact ⟨id, c, hc, ho, hi⟩
  · rintro ⟨id, c, hc, ho, hi⟩; exact ⟨id, c, hc, hi, ho⟩

/-- What the operations need besides coherence: the port vectors cover the port range, and
the loop that builds them ends. -/
structure Sound (d : SimulatedOcsDevice ω) : Prop where
  coherent : Coherent d
  ports_length : ∀ direction, (d.ports direction).length = d.portCount direction
  loops_end : ∀ direction, ∃ ps, makePorts direction (d.portCount direction) = some ps

theorem coherent_of_indexes {d : SimulatedOcsDevice ω}
    (hkeyed : Keyed d.info.inputPortCount d.info.outputPortCount d.connections)
    (h : Indexes (d.connections.toList.map Prod.snd) d.inputToOutput d.outputToInput)
    (hi : d.inputToOutput.length = d.info.inputPortCount)
    (ho : d.outputToInput.length = d.info.outputPortCount) : Coherent d := by
  have hsep : ∀ {id id' : String} {c c' : AppliedConnection}, d.connections[id]? = some c →
      d.connections[id']? = some c' → id ≠ id' → c.inputPort ≠ c'.inputPort ∧ c.outputPort ≠ c'.outputPort := by
    intro id id' c c' hc hc' hne
    have hpw := List.pairwise_map.mp h.disjoint
    have : Std.Symm fun a b : String × AppliedConnection =>
        a.2.inputPort ≠ b.2.inputPort ∧ a.2.outputPort ≠ b.2.outputPort :=
      ⟨fun a b hab => ⟨fun he => hab.1 he.symm, fun he => hab.2 he.symm⟩⟩
    exact hpw.forall (mem_toList.mpr hc) (mem_toList.mpr hc') (by simp [hne])
  refine ⟨hkeyed, ?_, ?_, ?_, ?_, hi, ho⟩
  · intro id id' c c' hc hc' heq
    by_contra hne
    exact (hsep hc hc' hne).1 heq
  · intro id id' c c' hc hc' heq
    by_contra hne
    exact (hsep hc hc' hne).2 heq
  · intro p q
    rw [h.forward]
    constructor
    · rintro ⟨c, hc, hcp⟩
      obtain ⟨id, hid⟩ := mem_getConnections.mp hc
      exact ⟨id, c, hid, hcp⟩
    · rintro ⟨id, c, hid, hcp⟩; exact ⟨c, mem_getConnections.mpr ⟨id, hid⟩, hcp⟩
  · intro q p
    rw [h.inverse]
    constructor
    · rintro ⟨c, hc, hcp⟩
      obtain ⟨id, hid⟩ := mem_getConnections.mp hc
      exact ⟨id, c, hid, hcp⟩
    · rintro ⟨id, c, hid, hcp⟩; exact ⟨c, mem_getConnections.mpr ⟨id, hid⟩, hcp⟩

/-- The invariant does not look at the replay cache, the fences or the armed faults. -/
theorem Sound.congr {d e : SimulatedOcsDevice ω} (h : Sound d) (hinfo : e.info = d.info)
    (hconn : e.connections = d.connections) (hin : e.inputToOutput = d.inputToOutput)
    (hout : e.outputToInput = d.outputToInput)
    (hports : ∀ direction, (e.ports direction).length = (d.ports direction).length) : Sound e := by
  have hcount : ∀ direction, e.portCount direction = d.portCount direction := by
    intro direction; cases direction <;> simp only [portCount, hinfo]
  refine ⟨⟨?_, ?_, ?_, ?_, ?_, ?_, ?_⟩, ?_, ?_⟩
  · simpa only [hinfo, hconn] using h.coherent.keyed
  · simpa only [hconn] using h.coherent.inputs
  · simpa only [hconn] using h.coherent.outputs
  · simpa only [hconn, hin] using h.coherent.forward
  · simpa only [hconn, hout] using h.coherent.inverse
  · simpa only [hinfo, hin] using h.coherent.inputs_length
  · simpa only [hinfo, hout] using h.coherent.outputs_length
  · intro direction; rw [hports, hcount]; exact h.ports_length direction
  · intro direction; rw [hcount]; exact h.loops_end direction

theorem Sound.construct {info : DeviceInfo} {d : SimulatedOcsDevice ω}
    (h : construct info = some (.ok d)) : Sound d := by
  unfold SimulatedOcsDevice.construct at h
  split at h
  · rename_i inputs outputs hi ho
    split_ifs at h
    · cases h
    · simp only [Option.some.injEq, Except.ok.injEq] at h
      subst h
      refine ⟨coherent_of_indexes ?_ ?_ (by simp) (by simp), ?_, ?_⟩
      · intro id c hc
        simp at hc
      · simpa [toList_empty] using Indexes.nil info.inputPortCount info.outputPortCount
      · intro direction
        cases direction
        · exact makePorts_length hi
        · exact makePorts_length ho
      · intro direction
        cases direction
        · exact ⟨_, hi⟩
        · exact ⟨_, ho⟩
  · cases h

theorem validatePort_isOk {d : SimulatedOcsDevice ω} {direction : PortDirection} {id : Nat} :
    (d.validatePort direction id).isOk = true ↔ 1 ≤ id ∧ id ≤ d.portCount direction := by
  unfold validatePort
  split_ifs with h
  · simp only [Error.isOk, reduceCtorEq, decide_false, Bool.false_eq_true, false_iff]
    omega
  · simp only [Error.isOk, Error.success, decide_true, true_iff]
    omega

theorem Sound.portAt_ports {d : SimulatedOcsDevice ω} (h : Sound d) {direction : PortDirection}
    {id : Nat} (hok : (d.validatePort direction id).isOk = true) :
    ∃ port, portAt (d.ports direction) id = .ok port := by
  obtain ⟨hpos, hle⟩ := validatePort_isOk.mp hok
  obtain ⟨port, -, hport⟩ := portAt_of_range hpos ((h.ports_length direction).symm ▸ hle)
  exact ⟨port, hport⟩

/-- The port check indexes in range, and what it accepts is inside the matrix. -/
theorem Sound.validatePortAvailable {d : SimulatedOcsDevice ω} (h : Sound d)
    (direction : PortDirection) (id : Nat) :
    (∃ e, d.validatePortAvailable direction id = .error (.rejected e)) ∨
    (d.validatePortAvailable direction id = .ok () ∧ 1 ≤ id ∧ id ≤ d.portCount direction) := by
  unfold SimulatedOcsDevice.validatePortAvailable
  by_cases hok : (d.validatePort direction id).isOk = true
  · obtain ⟨port, hport⟩ := h.portAt_ports hok
    simp only [hok, Bool.not_true, Bool.false_eq_true, ↓reduceIte, hport]
    split_ifs
    · exact .inl ⟨_, rfl⟩
    · exact .inl ⟨_, rfl⟩
    · exact .inr ⟨rfl, validatePort_isOk.mp hok⟩
  · simp only [Bool.not_eq_true] at hok
    simp only [hok, Bool.not_false, ↓reduceIte]
    exact .inl ⟨_, rfl⟩

theorem Keyed.erase {n m : Nat} {table : ExtTreeMap String AppliedConnection} (h : Keyed n m table)
    (id : String) : Keyed n m (table.erase id) := by
  intro id' c hc
  rw [ExtTreeMap.getElem?_erase] at hc
  split_ifs at hc
  exact h id' c hc

theorem Keyed.insert {n m : Nat} {table : ExtTreeMap String AppliedConnection} (h : Keyed n m table)
    {id : String} {c : AppliedConnection} (hc : c.id = id ∧ id ≠ "" ∧ InRange n m c) :
    Keyed n m (table.insert id c) := by
  intro id' c' hc'
  rw [ExtTreeMap.getElem?_insert] at hc'
  split_ifs at hc' with hid
  · cases hc'
    rwa [← Std.compare_eq_iff_eq.mp hid]
  · exact h id' c' hc'

/-- Editing the copied table: no index out of range, and the keys and ports stay right. -/
theorem Sound.editConnections {d : SimulatedOcsDevice ω} (h : Sound d)
    (commands : List ConnectionCommand) {table : ExtTreeMap String AppliedConnection}
    (ht : Keyed d.info.inputPortCount d.info.outputPortCount table) :
    (∃ e, d.editConnections commands table = .error (.rejected e)) ∨
    ∃ table', d.editConnections commands table = .ok table' ∧
      Keyed d.info.inputPortCount d.info.outputPortCount table' := by
  induction commands generalizing table with
  | nil => exact .inr ⟨table, rfl, ht⟩
  | cons command rest ih =>
      simp only [SimulatedOcsDevice.editConnections]
      split_ifs with hid
      · exact .inl ⟨_, rfl⟩
      · cases command.operation with
        | remove => exact ih (ht.erase _)
        | upsert =>
            rcases h.validatePortAvailable .input command.inputPort with ⟨e, he⟩ | ⟨hi, hir⟩
            · simp only [he]; exact .inl ⟨e, rfl⟩
            · rcases h.validatePortAvailable .output command.outputPort with ⟨e, he⟩ | ⟨ho, hor⟩
              · simp only [hi, he]; exact .inl ⟨e, rfl⟩
              · simp only [hi, ho]
                exact ih (ht.insert ⟨rfl, hid, hir, hor⟩)

/-- A batch is refused without touching the device, or its candidate is a coherent matrix. -/
theorem Sound.candidate {d : SimulatedOcsDevice ω} (h : Sound d)
    (commands : List ConnectionCommand) :
    (∃ e, d.candidate commands = .error (.rejected e)) ∨
    ∃ table inputs outputs, d.candidate commands = .ok (table, inputs, outputs) ∧
      Keyed d.info.inputPortCount d.info.outputPortCount table ∧
      Indexes (table.toList.map Prod.snd) inputs outputs ∧
      inputs.length = d.info.inputPortCount ∧ outputs.length = d.info.outputPortCount := by
  unfold SimulatedOcsDevice.candidate
  split_ifs
  · exact .inl ⟨_, rfl⟩
  · rcases h.editConnections commands h.coherent.keyed with ⟨e, he⟩ | ⟨table, ht, hkeyed⟩
    · simp only [he]; exact .inl ⟨e, rfl⟩
    · simp only [ht]
      have hrange : ∀ c ∈ table.toList.map Prod.snd, InRange
          (List.replicate d.info.inputPortCount (none : Option Nat)).length
          (List.replicate d.info.outputPortCount (none : Option Nat)).length c := by
        intro c hc
        obtain ⟨id, hid⟩ := mem_getConnections.mp hc
        simpa using (hkeyed id c hid).2.2
      rcases indexConnections_spec (Indexes.nil _ _) hrange with ⟨e, he⟩ |
        ⟨inputs, outputs, hix, hspec, hil, hol⟩
      · simp only [he]; exact .inl ⟨e, rfl⟩
      · simp only [hix]
        exact .inr ⟨table, inputs, outputs, rfl, hkeyed, hspec, by simpa using hil,
          by simpa using hol⟩

theorem Sound.finish [DecidableEq ω] {d : SimulatedOcsDevice ω} (h : Sound d)
    (options : ApplyOptions ω) (result : ApplyResult) : Sound (d.finish options result).2 := by
  unfold SimulatedOcsDevice.finish
  cases options.operationId with
  | none => exact h
  | some op =>
      dsimp only
      split_ifs
      · exact h.congr rfl rfl rfl rfl fun direction => by cases direction <;> rfl
      · cases d.applyResultOrder <;>
          exact h.congr rfl rfl rfl rfl fun direction => by cases direction <;> rfl

theorem Sound.applyConnections [DecidableEq ω] {d : SimulatedOcsDevice ω} (h : Sound d)
    (commands : List ConnectionCommand) (options : ApplyOptions ω) :
    ∃ r, d.applyConnections commands options = .ok r ∧ Sound r.2 := by
  unfold SimulatedOcsDevice.applyConnections
  cases d.cachedResult options with
  | some cached => exact ⟨_, rfl, h⟩
  | none =>
      dsimp only
      split_ifs
      · exact ⟨_, rfl, h.finish _ _⟩
      · unfold applyBatch
        rcases h.candidate commands with ⟨e, he⟩ | ⟨table, inputs, outputs, hc, hkeyed, hix, hi, ho⟩
        · simp only [he]; exact ⟨_, rfl, h.finish _ _⟩
        · simp only [hc]
          split_ifs
          · refine ⟨_, rfl, Sound.finish ?_ _ _⟩
            exact h.congr rfl rfl rfl rfl fun direction => by cases direction <;> rfl
          · refine ⟨_, rfl, Sound.finish ?_ _ _⟩
            exact h.congr rfl rfl rfl rfl fun direction => by cases direction <;> rfl
          · refine ⟨_, rfl, Sound.finish ⟨coherent_of_indexes hkeyed hix hi ho, ?_, ?_⟩ _ _⟩
            · intro direction; cases direction
              · exact h.ports_length .input
              · exact h.ports_length .output
            · intro direction; cases direction
              · exact h.loops_end .input
              · exact h.loops_end .output

theorem Sound.reset {d : SimulatedOcsDevice ω} (h : Sound d) (mode : ResetMode) :
    ∃ r, d.reset mode = .ok r ∧ Sound r.2 := by
  obtain ⟨inputs, hi⟩ := h.loops_end .input
  obtain ⟨outputs, ho⟩ := h.loops_end .output
  simp only [portCount] at hi ho
  unfold SimulatedOcsDevice.reset
  simp only [hi, ho]
  refine ⟨_, rfl, coherent_of_indexes ?_ ?_ ?_ ?_, ?_, ?_⟩
  · intro id c hc
    simp at hc
  · simpa [toList_empty, List.map_const', h.coherent.inputs_length, h.coherent.outputs_length] using
      Indexes.nil d.info.inputPortCount d.info.outputPortCount
  · simpa using h.coherent.inputs_length
  · simpa using h.coherent.outputs_length
  · intro direction; cases direction
    · exact makePorts_length hi
    · exact makePorts_length ho
  · intro direction; cases direction
    · exact ⟨_, hi⟩
    · exact ⟨_, ho⟩

theorem Sound.setPort {d : SimulatedOcsDevice ω} (h : Sound d) (direction : PortDirection)
    (i : Nat) (port : PortState) : Sound (d.setPorts direction ((d.ports direction).set i port)) := by
  cases direction <;> refine h.congr rfl rfl rfl rfl fun direction' => ?_ <;>
    cases direction' <;> simp [setPorts, ports]

theorem Sound.setOperStatus {d : SimulatedOcsDevice ω} (h : Sound d) (direction : PortDirection)
    (id : Nat) (status : PortOperStatus) :
    ∃ r, d.setOperStatus direction id status = .ok r ∧ Sound r.2 := by
  unfold SimulatedOcsDevice.setOperStatus
  by_cases hok : (d.validatePort direction id).isOk = true
  · obtain ⟨port, hport⟩ := h.portAt_ports hok
    simp only [hok, Bool.not_true, Bool.false_eq_true, ↓reduceIte, hport]
    exact ⟨_, rfl, h.setPort _ _ _⟩
  · simp only [Bool.not_eq_true] at hok
    simp only [hok, Bool.not_false, ↓reduceIte]
    exact ⟨_, rfl, h⟩

/-- Taking one connection out of the table and clearing its two ports keeps the copies in step. -/
theorem Sound.injectDrift {d : SimulatedOcsDevice ω} (h : Sound d) :
    ∃ r, d.injectDrift = .ok r ∧ Sound r.2 := by
  unfold SimulatedOcsDevice.injectDrift
  cases hl : d.connections.toList with
  | nil => exact ⟨_, rfl, h⟩
  | cons entry rest =>
      obtain ⟨id, c⟩ := entry
      have hc : d.connections[id]? = some c := mem_toList.mp (by simp [hl])
      obtain ⟨-, -, ⟨hi1, hi2⟩, ho1, ho2⟩ := h.coherent.keyed id c hc
      obtain ⟨_, _, hiat⟩ := portAt_of_range hi1 (h.coherent.inputs_length.symm ▸ hi2)
      obtain ⟨_, _, hoat⟩ := portAt_of_range ho1 (h.coherent.outputs_length.symm ▸ ho2)
      simp only [hiat, hoat]
      refine ⟨_, rfl, ⟨h.coherent.keyed.erase id, ?_, ?_, ?_, ?_, ?_, ?_⟩, ?_, ?_⟩
      · intro a b ca cb hca hcb
        simp only [ExtTreeMap.getElem?_erase] at hca hcb
        split_ifs at hca hcb
        exact h.coherent.inputs a b ca cb hca hcb
      · intro a b ca cb hca hcb
        simp only [ExtTreeMap.getElem?_erase] at hca hcb
        split_ifs at hca hcb
        exact h.coherent.outputs a b ca cb hca hcb
      · intro p q
        simp only [List.getElem?_set, ExtTreeMap.getElem?_erase, Std.compare_eq_iff_eq]
        split_ifs with hp hlt
        · simp only [Option.some.injEq, reduceCtorEq, false_iff, not_exists, not_and]
          intro a ca hca hcap
          split_ifs at hca with ha
          exact absurd (h.coherent.inputs id a c ca hc hca (by omega)) ha
        · exact absurd (by rw [h.coherent.inputs_length]; omega) hlt
        · rw [h.coherent.forward]
          constructor
          · rintro ⟨a, ca, hca, hcap, hcaq⟩
            have hne : id ≠ a := by rintro rfl; rw [hc] at hca; cases hca; omega
            exact ⟨a, ca, by simpa [hne] using hca, hcap, hcaq⟩
          · rintro ⟨a, ca, hca, hcap, hcaq⟩
            split_ifs at hca
            exact ⟨a, ca, hca, hcap, hcaq⟩
      · intro q p
        simp only [List.getElem?_set, ExtTreeMap.getElem?_erase, Std.compare_eq_iff_eq]
        split_ifs with hq hlt
        · simp only [Option.some.injEq, reduceCtorEq, false_iff, not_exists, not_and]
          intro a ca hca hcap
          split_ifs at hca with ha
          exact absurd (h.coherent.outputs id a c ca hc hca (by omega)) ha
        · exact absurd (by rw [h.coherent.outputs_length]; omega) hlt
        · rw [h.coherent.inverse]
          constructor
          · rintro ⟨a, ca, hca, hcaq, hcap⟩
            have hne : id ≠ a := by rintro rfl; rw [hc] at hca; cases hca; omega
            exact ⟨a, ca, by simpa [hne] using hca, hcaq, hcap⟩
          · rintro ⟨a, ca, hca, hcaq, hcap⟩
            split_ifs at hca
            exact ⟨a, ca, hca, hcaq, hcap⟩
      · simpa using h.coherent.inputs_length
      · simpa using h.coherent.outputs_length
      · intro direction; cases direction
        · exact h.ports_length .input
        · exact h.ports_length .output
      · intro direction; cases direction
        · exact h.loops_end .input
        · exact h.loops_end .output

theorem Sound.injectFault {d : SimulatedOcsDevice ω} (h : Sound d) (fault : FaultSpec) :
    ∃ r, d.injectFault fault = .ok r ∧ Sound r.2 := by
  unfold SimulatedOcsDevice.injectFault
  cases fault.type with
  | all => exact ⟨_, rfl, h⟩
  | nextApplyError =>
      exact ⟨_, rfl, h.congr rfl rfl rfl rfl fun direction => by cases direction <;> rfl⟩
  | nextApplyTimeout =>
      exact ⟨_, rfl, h.congr rfl rfl rfl rfl fun direction => by cases direction <;> rfl⟩
  | outOfBandDrift => exact h.injectDrift
  | inputPortDown => exact h.setOperStatus _ _ _
  | outputPortDown => exact h.setOperStatus _ _ _

theorem Sound.clearFault {d : SimulatedOcsDevice ω} (h : Sound d) (selector : FaultSpec) :
    ∃ r, d.clearFault selector = .ok r ∧ Sound r.2 := by
  unfold SimulatedOcsDevice.clearFault
  cases selector.type with
  | all =>
      refine ⟨_, rfl, h.congr rfl rfl rfl rfl fun direction => ?_⟩
      cases direction <;> simp [ports]
  | nextApplyError =>
      exact ⟨_, rfl, h.congr rfl rfl rfl rfl fun direction => by cases direction <;> rfl⟩
  | nextApplyTimeout =>
      exact ⟨_, rfl, h.congr rfl rfl rfl rfl fun direction => by cases direction <;> rfl⟩
  | outOfBandDrift => exact ⟨_, rfl, h⟩
  | inputPortDown => exact h.setOperStatus _ _ _
  | outputPortDown => exact h.setOperStatus _ _ _

theorem Sound.setPortAdminState {d : SimulatedOcsDevice ω} (h : Sound d)
    (direction : PortDirection) (id : Nat) (enabled : Bool) :
    ∃ r, d.setPortAdminState direction id enabled = .ok r ∧ Sound r.2 := by
  unfold SimulatedOcsDevice.setPortAdminState
  by_cases hok : (d.validatePort direction id).isOk = true
  · obtain ⟨port, hport⟩ := h.portAt_ports hok
    simp only [hok, Bool.not_true, Bool.false_eq_true, ↓reduceIte, hport]
    exact ⟨_, rfl, h.setPort _ _ _⟩
  · simp only [Bool.not_eq_true] at hok
    simp only [hok, Bool.not_false, ↓reduceIte]
    exact ⟨_, rfl, h⟩

/-! ## Whole call sequences -/

inductive Call (ω : Type) where
  | applyConnections (commands : List ConnectionCommand) (options : ApplyOptions ω)
  | reset (mode : ResetMode)
  | injectFault (fault : FaultSpec)
  | clearFault (selector : FaultSpec)
  | setPortAdminState (direction : PortDirection) (id : Nat) (enabled : Bool)

def Call.run [DecidableEq ω] (d : SimulatedOcsDevice ω) :
    Call ω → Except Abort (SimulatedOcsDevice ω)
  | .applyConnections commands options => (d.applyConnections commands options).map Prod.snd
  | .reset mode => (d.reset mode).map Prod.snd
  | .injectFault fault => (d.injectFault fault).map Prod.snd
  | .clearFault selector => (d.clearFault selector).map Prod.snd
  | .setPortAdminState direction id enabled =>
      (d.setPortAdminState direction id enabled).map Prod.snd

def runCalls [DecidableEq ω] (d : SimulatedOcsDevice ω) :
    List (Call ω) → Except Abort (SimulatedOcsDevice ω)
  | [] => .ok d
  | call :: calls => match call.run d with
      | .ok d' => runCalls d' calls
      | .error a => .error a

theorem Sound.call [DecidableEq ω] {d : SimulatedOcsDevice ω} (h : Sound d) (call : Call ω) :
    ∃ d', call.run d = .ok d' ∧ Sound d' := by
  have hmap : ∀ {β : Type} {x : Except Abort (β × SimulatedOcsDevice ω)},
      (∃ r, x = .ok r ∧ Sound r.2) → ∃ d', x.map Prod.snd = .ok d' ∧ Sound d' := by
    rintro β x ⟨r, rfl, hr⟩
    exact ⟨r.2, rfl, hr⟩
  cases call with
  | applyConnections commands options => exact hmap (h.applyConnections commands options)
  | reset mode => exact hmap (h.reset mode)
  | injectFault fault => exact hmap (h.injectFault fault)
  | clearFault selector => exact hmap (h.clearFault selector)
  | setPortAdminState direction id enabled => exact hmap (h.setPortAdminState direction id enabled)

theorem Sound.runCalls [DecidableEq ω] {d : SimulatedOcsDevice ω} (h : Sound d)
    (calls : List (Call ω)) : ∃ d', runCalls d calls = .ok d' ∧ Sound d' := by
  induction calls generalizing d with
  | nil => exact ⟨d, rfl, h⟩
  | cons call calls ih =>
      obtain ⟨d', hd', hs⟩ := h.call call
      simp only [SimulatedOcsDevice.runCalls, hd']
      exact ih hs

/-- Whatever calls follow the constructor, they all return, so no checked index was out of
range, and the three copies of the matrix are one matching. -/
theorem coherent_after_calls [DecidableEq ω] {info : DeviceInfo} {d : SimulatedOcsDevice ω}
    (h : construct info = some (.ok d)) (calls : List (Call ω)) :
    ∃ d', d.runCalls calls = .ok d' ∧ Coherent d' ∧
      ∀ p q, d'.inputToOutput[p]? = some (some (q + 1)) ↔
        d'.outputToInput[q]? = some (some (p + 1)) := by
  obtain ⟨d', hrun, hsound⟩ := (Sound.construct h).runCalls calls
  exact ⟨d', hrun, hsound.coherent, hsound.coherent.mutually_inverse⟩

/-- A two-by-two device as its constructor leaves it. -/
def twoByTwo : SimulatedOcsDevice String where
  info := { name := "ocs1", inputPortCount := 2, outputPortCount := 2, generation := 1 }
  connections := ∅
  lastVersions := ∅
  inputToOutput := [none, none]
  outputToInput := [none, none]
  inputPorts := [1, 2].map fun id => { id := id, direction := .input, operStatus := .up }
  outputPorts := [1, 2].map fun id => { id := id, direction := .output, operStatus := .up }
  applyResults := []
  applyResultOrder := []
  failNextApply := false
  timeoutNextApply := false

/-- A crossed pair is set up in one batch, swapped in the next, and loses its first member. -/
def swapAndDrift : List (Call String) :=
  [ .applyConnections [{ id := "a", inputPort := 1, outputPort := 2, desiredVersion := 1 },
      { id := "b", inputPort := 2, outputPort := 1, desiredVersion := 1 }]
      { operationId := some "op1" },
    .applyConnections [{ id := "a", inputPort := 1, outputPort := 1, desiredVersion := 2 },
      { id := "b", inputPort := 2, outputPort := 2, desiredVersion := 2 }]
      { operationId := some "op2" },
    .injectFault { type := .outOfBandDrift } ]

theorem coherent_after_swap_and_drift :
    construct twoByTwo.info = some (.ok twoByTwo) ∧
    ∃ d', twoByTwo.runCalls swapAndDrift = .ok d' ∧ Coherent d' ∧
      ∀ p q, d'.inputToOutput[p]? = some (some (q + 1)) ↔
        d'.outputToInput[q]? = some (some (p + 1)) :=
  have hconstruct : construct twoByTwo.info = some (.ok twoByTwo) := rfl
  ⟨hconstruct, coherent_after_calls hconstruct swapAndDrift⟩

example : (twoByTwo.runCalls swapAndDrift).map (·.inputToOutput) = .ok [none, some 2] := by
  decide +kernel

end SimulatedOcsDevice

end MiniOcs
