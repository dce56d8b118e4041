import MiniOcs.Uds.Backend

/-!
# The widths of the C++ types

Ports have 16 bits, versions and generations 64: no call leaves them.
-/
namespace MiniOcs.Uds
open Std (ExtTreeMap)
open SimulatedOcsDevice

/-- The values of a device fit their C++ types. -/
structure TypedDevice (d : Device) : Prop where
  info : TypedInfo d.info
  connections : ∀ (id : String) (c : AppliedConnection), d.connections[id]? = some c →
    TypedConnection c
  results : ∀ entry ∈ d.applyResults, ∀ c ∈ entry.2.connections, TypedConnection c
  inputPorts : ∀ port ∈ d.inputPorts, TypedPort port
  outputPorts : ∀ port ∈ d.outputPorts, TypedPort port

theorem TypedDevice.ports {d : Device} (h : TypedDevice d) (direction : PortDirection) :
    ∀ port ∈ d.ports direction, TypedPort port := by
  cases direction with
  | input => exact h.inputPorts
  | output => exact h.outputPorts

def TypedRequest : Request → Prop
  | .applyConnections commands options =>
      (∀ c ∈ commands, TypedCommand c) ∧ TypedOptions options
  | .getInputPortState id => id < 65536
  | .getOutputPortState id => id < 65536
  | .injectFault fault => fault.portId < 65536
  | .clearFault selector => selector.portId < 65536
  | _ => True

def TypedReply : Reply → Prop
  | .applyResult result => ∀ c ∈ result.connections, TypedConnection c
  | .connections connections => ∀ c ∈ connections, TypedConnection c
  | .portState state => TypedPort state
  | .resetResult result => result.generation < 18446744073709551616
  | .deviceInfo info => TypedInfo info
  | _ => True

/-! ## Batches -/

theorem typed_foldCommands {table : ExtTreeMap String AppliedConnection}
    {commands : List ConnectionCommand}
    (htable : ∀ (id : String) (c : AppliedConnection), table[id]? = some c → TypedConnection c)
    (hcommands : ∀ c ∈ commands, TypedCommand c) (id : String) (c : AppliedConnection)
    (hc : (foldCommands table commands)[id]? = some c) : TypedConnection c := by
  unfold foldCommands at hc
  induction commands generalizing table with
  | nil => exact htable id c hc
  | cons command commands ih =>
      rw [List.foldl_cons] at hc
      refine ih ?_ (fun c' hc' => hcommands c' (by simp [hc'])) hc
      intro id' c' hc'
      rw [getElem?_editCommand] at hc'
      have hcommand := hcommands command (by simp)
      split_ifs at hc' with hid
      · split at hc'
        · cases hc'
        · cases hc'
          exact ⟨hcommand.inputPort, hcommand.outputPort, hcommand.desiredVersion⟩
      · exact htable id' c' hc'

theorem typed_changedConnections {table : ExtTreeMap String AppliedConnection}
    (htable : ∀ (id : String) (c : AppliedConnection), table[id]? = some c → TypedConnection c)
    (commands : List ConnectionCommand) :
    ∀ c ∈ changedConnections table commands, TypedConnection c := by
  intro c hc
  obtain ⟨command, -, hlookup⟩ := List.mem_filterMap.mp hc
  exact htable command.id c hlookup

theorem TypedDevice.finish {d : Device} (h : TypedDevice d) (options : ApplyOptions OperationId)
    {result : ApplyResult} (hresult : ∀ c ∈ result.connections, TypedConnection c) :
    TypedDevice (d.finish options result).2 := by
  have hsame := d.finish_same options result
  constructor
  · rw [hsame.info]
    exact h.info
  · rw [hsame.connections]
    exact h.connections
  · cases hop : options.operationId with
    | none =>
        rw [finish_none result hop]
        exact h.results
    | some op =>
        rw [finish_some result hop]
        intro entry hentry
        rcases List.mem_append.mp hentry with hold | hnew
        · have hold := List.mem_of_mem_filter hold
          unfold evictOldest at hold
          split_ifs at hold
          · exact h.results entry hold
          · split at hold
            · exact h.results entry hold
            · exact h.results entry (List.mem_of_mem_filter hold)
        · rw [List.mem_singleton.mp hnew]
          exact hresult
  · rw [hsame.inputPorts]
    exact h.inputPorts
  · rw [hsame.outputPorts]
    exact h.outputPorts

theorem TypedDevice.disarm {d : Device} (h : TypedDevice d) : TypedDevice d.disarm := by
  unfold SimulatedOcsDevice.disarm
  split_ifs
  · exact ⟨h.info, h.connections, h.results, h.inputPorts, h.outputPorts⟩
  · exact ⟨h.info, h.connections, h.results, h.inputPorts, h.outputPorts⟩

theorem TypedDevice.commit {d : Device} (h : TypedDevice d) {commands : List ConnectionCommand}
    (hcommands : ∀ c ∈ commands, TypedCommand c)
    (copies : List (Option Nat) × List (Option Nat)) : TypedDevice (d.commit commands copies) := by
  constructor
  · exact h.info
  · exact typed_foldCommands h.connections hcommands
  · exact h.results
  · exact h.inputPorts
  · exact h.outputPorts

theorem mem_of_cachedResult {ω : Type} [DecidableEq ω] {d : SimulatedOcsDevice ω}
    {options : ApplyOptions ω} {result : ApplyResult} (h : d.cachedResult options = some result) :
    ∃ op, (op, result) ∈ d.applyResults := by
  obtain ⟨op, -, hlookup⟩ := Option.bind_eq_some_iff.mp h
  obtain ⟨before, after, hentries, -⟩ := List.lookup_eq_some_iff.mp hlookup
  exact ⟨op, by rw [hentries]; simp⟩

theorem TypedDevice.applyConnections {d d' : Device} (hsound : Sound d) (h : TypedDevice d)
    {commands : List ConnectionCommand} {options : ApplyOptions OperationId}
    (hcommands : ∀ c ∈ commands, TypedCommand c) {result : ApplyResult}
    (hrun : d.applyConnections commands options = .ok (result, d')) :
    (∀ c ∈ result.connections, TypedConnection c) ∧ TypedDevice d' := by
  cases hcached : d.cachedResult options with
  | some cached =>
      simp only [SimulatedOcsDevice.applyConnections, hcached] at hrun
      cases hrun
      refine ⟨?_, h⟩
      obtain ⟨op, hentry⟩ := mem_of_cachedResult hcached
      exact h.results _ hentry
  | none =>
      obtain ⟨r, hr, hout⟩ := hsound.outcome commands hcached
      rw [hrun] at hr
      cases hr
      generalize hr : (result, d') = r at hout
      have hresult : result = r.1 := congrArg Prod.fst hr
      have hdevice : d' = r.2 := congrArg Prod.snd hr
      rw [hresult, hdevice]
      have hnone : ∀ c ∈ ([] : List AppliedConnection), TypedConnection c := by simp
      cases hout with
      | refused herror hinvalid =>
          rw [finish_fst]
          exact ⟨hnone, h.finish options hnone⟩
      | injected herror hatomic hvalid harmed =>
          rw [finish_fst]
          exact ⟨hnone, h.disarm.finish options hnone⟩
      | applied hatomic hvalid hunarmed hcopies =>
          have hchanged := typed_changedConnections
            (typed_foldCommands h.connections hcommands) commands
          rw [finish_fst]
          exact ⟨hchanged, (h.commit hcommands _).finish options hchanged⟩

/-! ## Ports -/

theorem typed_makePortsLoop {direction : PortDirection} {count fuel id : Nat}
    {acc ports : List PortState} (hid : id < 65536) (hacc : ∀ port ∈ acc, TypedPort port)
    (h : makePortsLoop direction count fuel id acc = some ports) :
    ∀ port ∈ ports, TypedPort port := by
  induction fuel generalizing id acc with
  | zero => cases h
  | succ fuel ih =>
      rw [makePortsLoop] at h
      split_ifs at h with hle
      · refine ih (Nat.mod_lt _ (by decide)) ?_ h
        intro port hport
        rcases List.mem_append.mp hport with hport | hport
        · exact hacc port hport
        · rw [List.mem_singleton.mp hport]
          exact ⟨hid, by dsimp only; decide⟩
      · cases h
        exact hacc

theorem typed_makePorts {direction : PortDirection} {count : Nat} {ports : List PortState}
    (h : makePorts direction count = some ports) : ∀ port ∈ ports, TypedPort port :=
  typed_makePortsLoop (by decide) (by simp) h

theorem TypedDevice.reset {d d' : Device} (h : TypedDevice d) {mode : ResetMode} {generation : Nat}
    (hrun : d.reset mode = .ok (generation, d')) :
    generation < 18446744073709551616 ∧ TypedDevice d' := by
  unfold SimulatedOcsDevice.reset at hrun
  split at hrun
  · rename_i inputs outputs hinputs houtputs
    have hempty : ∀ (id : String) (c : AppliedConnection),
        (∅ : ExtTreeMap String AppliedConnection)[id]? = some c → TypedConnection c := by simp
    cases mode with
    | hard =>
        cases hrun
        have hgeneration : (d.info.generation + 1) % 18446744073709551616 < 18446744073709551616 :=
          Nat.mod_lt _ (by decide)
        exact ⟨hgeneration, ⟨h.info.inputPortCount, h.info.outputPortCount, hgeneration⟩, hempty,
          by simp, typed_makePorts hinputs, typed_makePorts houtputs⟩
    | soft =>
        cases hrun
        exact ⟨h.info.generation, h.info, hempty, by simp, typed_makePorts hinputs,
          typed_makePorts houtputs⟩
  · cases hrun

theorem TypedDevice.setPorts {d : Device} (h : TypedDevice d) (direction : PortDirection)
    {ports : List PortState} (hports : ∀ port ∈ ports, TypedPort port) :
    TypedDevice (d.setPorts direction ports) := by
  cases direction with
  | input => exact ⟨h.info, h.connections, h.results, hports, h.outputPorts⟩
  | output => exact ⟨h.info, h.connections, h.results, h.inputPorts, hports⟩

theorem mem_of_portAt {α : Type} {table : List α} {port : Nat} {a : α}
    (h : portAt table port = .ok a) : a ∈ table := by
  unfold portAt at h
  split_ifs at h
  split at h
  · rename_i heq
    cases h
    exact List.mem_of_getElem? heq
  · cases h

theorem TypedDevice.setOperStatus {d d' : Device} (h : TypedDevice d) {direction : PortDirection}
    {id : Nat} {status : PortOperStatus} {e : Error}
    (hrun : d.setOperStatus direction id status = .ok (e, d')) : TypedDevice d' := by
  unfold SimulatedOcsDevice.setOperStatus at hrun
  split_ifs at hrun
  · cases hrun
    exact h
  · split at hrun
    · rename_i port hport
      cases hrun
      apply h.setPorts
      intro port' hport'
      rcases List.mem_or_eq_of_mem_set hport' with hmem | rfl
      · exact h.ports direction port' hmem
      · have htyped := h.ports direction port (mem_of_portAt hport)
        exact ⟨htyped.id, htyped.opticalPowerDbm⟩
    · cases hrun

theorem TypedDevice.injectFault {d d' : Device} (h : TypedDevice d) {fault : FaultSpec} {e : Error}
    (hrun : d.injectFault fault = .ok (e, d')) : TypedDevice d' := by
  have hdisturbed := disturbed_injectFault hrun
  unfold SimulatedOcsDevice.injectFault at hrun
  split at hrun
  · cases hrun
    exact h
  · cases hrun
    exact ⟨h.info, h.connections, h.results, h.inputPorts, h.outputPorts⟩
  · cases hrun
    exact ⟨h.info, h.connections, h.results, h.inputPorts, h.outputPorts⟩
  · unfold SimulatedOcsDevice.injectDrift at hrun
    split at hrun
    · cases hrun
      exact h
    · split at hrun
      · cases hrun
        exact ⟨h.info, fun id c hc => h.connections id c (hdisturbed.connections id c hc), h.results,
          h.inputPorts, h.outputPorts⟩
      · cases hrun
  · exact h.setOperStatus hrun
  · exact h.setOperStatus hrun

theorem TypedDevice.clearFault {d d' : Device} (h : TypedDevice d) {selector : FaultSpec}
    {e : Error} (hrun : d.clearFault selector = .ok (e, d')) : TypedDevice d' := by
  have hup : ∀ direction, ∀ port ∈ (d.ports direction).map fun port =>
      { port with operStatus := .up }, TypedPort port := by
    intro direction port hport
    obtain ⟨old, hold, rfl⟩ := List.mem_map.mp hport
    exact ⟨(h.ports direction old hold).id, (h.ports direction old hold).opticalPowerDbm⟩
  unfold SimulatedOcsDevice.clearFault at hrun
  split at hrun
  · cases hrun
    exact ⟨h.info, h.connections, h.results, hup .input, hup .output⟩
  · cases hrun
    exact ⟨h.info, h.connections, h.results, h.inputPorts, h.outputPorts⟩
  · cases hrun
    exact ⟨h.info, h.connections, h.results, h.inputPorts, h.outputPorts⟩
  · cases hrun
    exact h
  · exact h.setOperStatus hrun
  · exact h.setOperStatus hrun

theorem TypedDevice.portState {d : Device} (h : TypedDevice d) {direction : PortDirection} {id : Nat}
    (hid : id < 65536) {state : PortState} (hrun : portState d direction id = .ok state) :
    TypedPort state := by
  unfold Uds.portState SimulatedOcsDevice.getPortState at hrun
  split at hrun
  · rename_i state' heq
    cases hrun
    split_ifs at heq
    · cases heq
      exact ⟨hid, by dsimp only; decide⟩
    · exact h.ports direction state (mem_of_portAt heq)
  · cases hrun

/-! ## Calls -/

/-- A call keeps the widths and answers within them. -/
theorem TypedDevice.call {d d' : Device} (hsound : Sound d) (h : TypedDevice d) {request : Request}
    (hrequest : TypedRequest request) {reply : Reply}
    (hrun : InProcessSimBackend.call d request = .ok (reply, d')) :
    TypedReply reply ∧ TypedDevice d' := by
  have hmap : ∀ {α : Type} {x : Except Abort α} {f : α → Reply × Device},
      x.map f = .ok (reply, d') → ∃ a, x = .ok a ∧ f a = (reply, d') := by
    intro α x f hx
    cases x with
    | error a => cases hx
    | ok a => exact ⟨a, rfl, Except.ok.inj hx⟩
  cases request with
  | applyConnections commands options =>
      obtain ⟨⟨result, e⟩, hresult, heq⟩ := hmap hrun
      cases heq
      exact h.applyConnections hsound hrequest.1 hresult
  | getConnections =>
      cases hrun
      refine ⟨?_, h⟩
      intro c hc
      obtain ⟨id, hid⟩ := mem_getConnections.mp hc
      exact h.connections id c hid
  | getInputPortState id =>
      obtain ⟨state, hstate, heq⟩ := hmap hrun
      cases heq
      exact ⟨h.portState hrequest hstate, h⟩
  | getOutputPortState id =>
      obtain ⟨state, hstate, heq⟩ := hmap hrun
      cases heq
      exact ⟨h.portState hrequest hstate, h⟩
  | reset mode =>
      obtain ⟨⟨generation, e⟩, hresult, heq⟩ := hmap hrun
      cases heq
      exact h.reset hresult
  | injectFault fault =>
      obtain ⟨⟨error, e⟩, hresult, heq⟩ := hmap hrun
      cases heq
      exact ⟨trivial, h.injectFault hresult⟩
  | clearFault selector =>
      obtain ⟨⟨error, e⟩, hresult, heq⟩ := hmap hrun
      cases heq
      exact ⟨trivial, h.clearFault hresult⟩
  | getDeviceInfo =>
      cases hrun
      exact ⟨h.info, h⟩

end MiniOcs.Uds
