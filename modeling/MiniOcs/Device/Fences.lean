import MiniOcs.Device.Apply

/-!
# The version fences

Along a run without a reset the fence of an id never goes down, a connection of a nonzero
version sits at its fence, and a version older than an applied one changes nothing.
-/
namespace MiniOcs
open Std

namespace SimulatedOcsDevice

variable {ω : Type}

/-! ## Calls that apply nothing -/

/-- Faults and port switches leave the fences and the replay cache alone, and drift only takes
connections away. -/
structure Disturbed (d d' : SimulatedOcsDevice ω) : Prop where
  lastVersions : d'.lastVersions = d.lastVersions
  applyResults : d'.applyResults = d.applyResults
  applyResultOrder : d'.applyResultOrder = d.applyResultOrder
  connections : ∀ (id : String) (c : AppliedConnection), d'.connections[id]? = some c →
    d.connections[id]? = some c

theorem Disturbed.refl (d : SimulatedOcsDevice ω) : Disturbed d d := ⟨rfl, rfl, rfl, fun _ _ h => h⟩

theorem disturbed_setPorts (d : SimulatedOcsDevice ω) (direction : PortDirection)
    (ps : List PortState) : Disturbed d (d.setPorts direction ps) := by
  cases direction <;> exact ⟨rfl, rfl, rfl, fun _ _ h => h⟩

theorem disturbed_setOperStatus {d : SimulatedOcsDevice ω} {direction : PortDirection} {id : Nat}
    {status : PortOperStatus} {r : Error × SimulatedOcsDevice ω}
    (h : d.setOperStatus direction id status = .ok r) : Disturbed d r.2 := by
  unfold SimulatedOcsDevice.setOperStatus at h
  split_ifs at h
  · cases h
    exact .refl d
  · split at h
    · cases h
      exact disturbed_setPorts ..
    · cases h

theorem disturbed_setPortAdminState {d : SimulatedOcsDevice ω} {direction : PortDirection} {id : Nat}
    {enabled : Bool} {r : Error × SimulatedOcsDevice ω}
    (h : d.setPortAdminState direction id enabled = .ok r) : Disturbed d r.2 := by
  unfold SimulatedOcsDevice.setPortAdminState at h
  split_ifs at h
  · cases h
    exact .refl d
  · split at h
    · cases h
      exact disturbed_setPorts ..
    · cases h

theorem disturbed_injectDrift {d : SimulatedOcsDevice ω} {r : Error × SimulatedOcsDevice ω}
    (h : d.injectDrift = .ok r) : Disturbed d r.2 := by
  unfold SimulatedOcsDevice.injectDrift at h
  split at h
  · cases h
    exact .refl d
  · split at h
    · cases h
      refine ⟨rfl, rfl, rfl, fun id c hc => ?_⟩
      simp only [ExtTreeMap.getElem?_erase] at hc
      split_ifs at hc
      exact hc
    · cases h

theorem disturbed_injectFault {d : SimulatedOcsDevice ω} {fault : FaultSpec}
    {r : Error × SimulatedOcsDevice ω} (h : d.injectFault fault = .ok r) : Disturbed d r.2 := by
  unfold SimulatedOcsDevice.injectFault at h
  split at h
  · cases h
    exact .refl d
  · cases h
    exact ⟨rfl, rfl, rfl, fun _ _ h => h⟩
  · cases h
    exact ⟨rfl, rfl, rfl, fun _ _ h => h⟩
  · exact disturbed_injectDrift h
  · exact disturbed_setOperStatus h
  · exact disturbed_setOperStatus h

theorem disturbed_clearFault {d : SimulatedOcsDevice ω} {selector : FaultSpec}
    {r : Error × SimulatedOcsDevice ω} (h : d.clearFault selector = .ok r) : Disturbed d r.2 := by
  unfold SimulatedOcsDevice.clearFault at h
  split at h
  · cases h
    exact ⟨rfl, rfl, rfl, fun _ _ h => h⟩
  · cases h
    exact ⟨rfl, rfl, rfl, fun _ _ h => h⟩
  · cases h
    exact ⟨rfl, rfl, rfl, fun _ _ h => h⟩
  · cases h
    exact .refl d
  · exact disturbed_setOperStatus h
  · exact disturbed_setOperStatus h

def Call.isReset : Call ω → Bool
  | .reset _ => true
  | _ => false

/-! ## The fence of one id -/

/-- No fence goes down or is lost. -/
def FencesGrow (d d' : SimulatedOcsDevice ω) : Prop :=
  ∀ (id : String) (v : Nat), d.lastVersions[id]? = some v →
    ∃ v' : Nat, d'.lastVersions[id]? = some v' ∧ v ≤ v'

/-- A connection of a nonzero version is at the fence of its id. -/
def Fenced (d : SimulatedOcsDevice ω) : Prop :=
  ∀ (id : String) (c : AppliedConnection), d.connections[id]? = some c → c.appliedVersion ≠ 0 →
    d.lastVersions[id]? = some c.appliedVersion

theorem FencesGrow.refl (d : SimulatedOcsDevice ω) : FencesGrow d d :=
  fun _ v h => ⟨v, h, Nat.le_refl v⟩

theorem FencesGrow.of_eq {d d' : SimulatedOcsDevice ω} (h : d'.lastVersions = d.lastVersions) :
    FencesGrow d d' := by
  intro id v hv
  exact ⟨v, h ▸ hv, Nat.le_refl v⟩

theorem FencesGrow.trans {d d' d'' : SimulatedOcsDevice ω} (h : FencesGrow d d')
    (h' : FencesGrow d' d'') : FencesGrow d d'' := by
  intro id v hv
  obtain ⟨v', hv', hle⟩ := h id v hv
  obtain ⟨v'', hv'', hle'⟩ := h' id v' hv'
  exact ⟨v'', hv'', Nat.le_trans hle hle'⟩

theorem Fenced.of_kept {d d' : SimulatedOcsDevice ω} (h : Fenced d)
    (hversions : d'.lastVersions = d.lastVersions)
    (hconns : ∀ (id : String) (c : AppliedConnection), d'.connections[id]? = some c →
      d.connections[id]? = some c) : Fenced d' := by
  intro id c hc hne
  rw [hversions]
  exact h id c (hconns id c hc) hne

theorem mem_of_lastVersionIn {id : String} {commands : List ConnectionCommand} {v : Nat}
    (h : lastVersionIn id commands = some v) :
    ∃ command ∈ commands, command.id = id ∧ command.desiredVersion = v ∧ v ≠ 0 := by
  obtain ⟨command, hfind, rfl⟩ := Option.map_eq_some_iff.mp h
  have hmem := List.mem_of_find?_eq_some hfind
  have hprop := List.find?_some hfind
  simp only [Bool.and_eq_true, decide_eq_true_eq] at hprop
  exact ⟨command, List.mem_reverse.mp hmem, hprop.1, rfl, hprop.2⟩

theorem fencesGrow_commit {d : SimulatedOcsDevice ω} {commands : List ConnectionCommand}
    (hvalid : d.Valid commands) (copies : List (Option Nat) × List (Option Nat)) :
    FencesGrow d (d.commit commands copies) := by
  intro id v hv
  have hget := getElem?_recordVersions d.lastVersions commands id
  cases hlast : lastVersionIn id commands with
  | none =>
      rw [hlast, Option.none_or, hv] at hget
      exact ⟨v, hget, Nat.le_refl v⟩
  | some v' =>
      rw [hlast, Option.some_or] at hget
      obtain ⟨command, hmem, rfl, rfl, hne⟩ := mem_of_lastVersionIn hlast
      exact ⟨_, hget, hvalid.versions command hmem hne v hv⟩

/-- The last command of an id decides both its connection and its fence. -/
theorem fenced_fold {table : ExtTreeMap String AppliedConnection}
    {versions : ExtTreeMap String Nat} (commands : List ConnectionCommand) {id : String}
    (h : ∀ c : AppliedConnection, table[id]? = some c → c.appliedVersion ≠ 0 →
      versions[id]? = some c.appliedVersion) {c : AppliedConnection}
    (hc : (foldCommands table commands)[id]? = some c) (hne : c.appliedVersion ≠ 0) :
    (lastVersionIn id commands).or versions[id]? = some c.appliedVersion := by
  induction commands using List.reverseRecOn with
  | nil => exact h c hc hne
  | append_singleton commands command ih =>
      simp only [foldCommands, List.foldl_append, List.foldl_cons, List.foldl_nil] at hc
      rw [getElem?_editCommand] at hc
      rw [lastVersionIn_concat]
      split_ifs at hc with hid
      · cases hop : command.operation with
        | remove =>
            rw [hop] at hc
            cases hc
        | upsert =>
            rw [hop] at hc
            cases hc
            rw [if_pos ⟨hid, hne⟩]
            rfl
      · rw [if_neg fun hand => hid hand.1]
        exact ih hc

theorem fenced_commit {d : SimulatedOcsDevice ω} (h : Fenced d) (commands : List ConnectionCommand)
    (copies : List (Option Nat) × List (Option Nat)) : Fenced (d.commit commands copies) := by
  intro id c hc hne
  show (recordVersions d.lastVersions commands)[id]? = some c.appliedVersion
  rw [getElem?_recordVersions]
  exact fenced_fold commands (h id) hc hne

section Runs

variable [DecidableEq ω]

/-- A call that is no reset answers from the cache, runs a batch, or disturbs the device. -/
theorem Sound.call_cases {d : SimulatedOcsDevice ω} (h : Sound d) {call : Call ω}
    (hreset : call.isReset = false) :
    ∃ d', call.run d = .ok d' ∧
      ((∀ commands options, call ≠ .applyConnections commands options) ∧ Disturbed d d' ∨
      ∃ commands options, call = .applyConnections commands options ∧
        ∃ result, d.applyConnections commands options = .ok (result, d') ∧
          ((d.cachedResult options = some result ∧ d' = d) ∨
            d.cachedResult options = none ∧ Outcome d commands options (result, d'))) := by
  obtain ⟨d', hrun, -⟩ := h.call call
  refine ⟨d', hrun, ?_⟩
  have hmap : ∀ {β : Type} {x : Except Abort (β × SimulatedOcsDevice ω)},
      x.map Prod.snd = .ok d' → ∃ b, x = .ok (b, d') := by
    intro β x hx
    cases x with
    | error a => cases hx
    | ok r =>
        cases hx
        exact ⟨r.1, rfl⟩
  cases call with
  | reset mode => cases hreset
  | injectFault fault =>
      obtain ⟨e, he⟩ := hmap hrun
      exact .inl ⟨nofun, disturbed_injectFault he⟩
  | clearFault selector =>
      obtain ⟨e, he⟩ := hmap hrun
      exact .inl ⟨nofun, disturbed_clearFault he⟩
  | setPortAdminState direction id enabled =>
      obtain ⟨e, he⟩ := hmap hrun
      exact .inl ⟨nofun, disturbed_setPortAdminState he⟩
  | applyConnections commands options =>
      obtain ⟨result, hresult⟩ := hmap hrun
      refine .inr ⟨commands, options, rfl, result, hresult, ?_⟩
      cases hcached : d.cachedResult options with
      | some cached =>
          simp only [SimulatedOcsDevice.applyConnections, hcached] at hresult
          cases hresult
          exact .inl ⟨rfl, rfl⟩
      | none =>
          obtain ⟨r, hr, hout⟩ := h.outcome commands hcached
          rw [hresult] at hr
          cases hr
          exact .inr ⟨rfl, hout⟩

/-- One batch keeps both facts. -/
theorem Outcome.fences {d : SimulatedOcsDevice ω} {commands : List ConnectionCommand}
    {options : ApplyOptions ω} {r : ApplyResult × SimulatedOcsDevice ω}
    (hout : Outcome d commands options r) (h : Fenced d) : FencesGrow d r.2 ∧ Fenced r.2 := by
  cases hout with
  | @refused e herror hinvalid =>
      have hsame := d.finish_same options ⟨e, []⟩
      exact ⟨.of_eq hsame.lastVersions,
        h.of_kept hsame.lastVersions fun _ _ hc => hsame.connections ▸ hc⟩
  | @injected e herror hatomic hvalid harmed =>
      have hkept := disarm_kept (d.disarm.finish_same options ⟨e, []⟩)
      exact ⟨.of_eq hkept.lastVersions,
        h.of_kept hkept.lastVersions fun _ _ hc => hkept.connections ▸ hc⟩
  | @applied copies hatomic hvalid hunarmed hcopies =>
      have hsame := (d.commit commands copies).finish_same options
        ⟨Error.success, changedConnections (foldCommands d.connections commands) commands⟩
      exact ⟨(fencesGrow_commit hvalid copies).trans (.of_eq hsame.lastVersions),
        (fenced_commit h commands copies).of_kept hsame.lastVersions
          fun _ _ hc => hsame.connections ▸ hc⟩

/-! ## Whole runs -/

def NoReset (calls : List (Call ω)) : Prop := ∀ call ∈ calls, call.isReset = false

/-- Every batch of the run names each connection once. -/
def DistinctBatches (calls : List (Call ω)) : Prop :=
  ∀ commands options, Call.applyConnections commands options ∈ calls →
    (commands.map (·.id)).Nodup

theorem Sound.call_fences {d : SimulatedOcsDevice ω} (h : Sound d) (hfenced : Fenced d)
    {call : Call ω} (hreset : call.isReset = false) :
    ∃ d', call.run d = .ok d' ∧ Sound d' ∧ FencesGrow d d' ∧ Fenced d' := by
  obtain ⟨d', hrun, hcases⟩ := h.call_cases hreset
  obtain ⟨d'', hrun', hsound⟩ := h.call call
  rw [hrun] at hrun'
  cases hrun'
  refine ⟨d', hrun, hsound, ?_⟩
  rcases hcases with ⟨-, hdist⟩ | ⟨commands, options, -, result, -, hcached | ⟨-, hout⟩⟩
  · exact ⟨.of_eq hdist.lastVersions, hfenced.of_kept hdist.lastVersions hdist.connections⟩
  · rw [hcached.2]
    exact ⟨.refl d, hfenced⟩
  · exact hout.fences hfenced

theorem Sound.run_fences {d : SimulatedOcsDevice ω} (h : Sound d) (hfenced : Fenced d)
    {calls : List (Call ω)} (hreset : NoReset calls) :
    ∃ d', d.runCalls calls = .ok d' ∧ Sound d' ∧ FencesGrow d d' ∧ Fenced d' := by
  induction calls generalizing d with
  | nil => exact ⟨d, rfl, h, .refl d, hfenced⟩
  | cons call calls ih =>
      obtain ⟨d₁, hrun, hsound, hgrow, hfenced₁⟩ := h.call_fences hfenced (hreset call (by simp))
      obtain ⟨d₂, hrun₂, hsound₂, hgrow₂, hfenced₂⟩ :=
        ih hsound hfenced₁ fun c hc => hreset c (by simp [hc])
      refine ⟨d₂, ?_, hsound₂, hgrow.trans hgrow₂, hfenced₂⟩
      simp only [SimulatedOcsDevice.runCalls, hrun, hrun₂]

theorem runCalls_append {d d₁ : SimulatedOcsDevice ω} {calls calls' : List (Call ω)}
    (h : d.runCalls calls = .ok d₁) : d.runCalls (calls ++ calls') = d₁.runCalls calls' := by
  induction calls generalizing d with
  | nil =>
      cases h
      rfl
  | cons call calls ih =>
      simp only [SimulatedOcsDevice.runCalls, List.cons_append] at h ⊢
      cases hcall : call.run d with
      | error a =>
          rw [hcall] at h
          cases h
      | ok d' =>
          rw [hcall] at h
          exact ih h

theorem Sound.call_fenced {d : SimulatedOcsDevice ω} (h : Sound d) (hfenced : Fenced d)
    {call : Call ω} {d' : SimulatedOcsDevice ω} (hrun : call.run d = .ok d') : Fenced d' := by
  cases hreset : call.isReset with
  | false =>
      obtain ⟨d'', hrun', -, -, hfenced'⟩ := h.call_fences hfenced hreset
      rw [hrun] at hrun'
      cases hrun'
      exact hfenced'
  | true =>
      cases call with
      | reset mode =>
          simp only [Call.run, SimulatedOcsDevice.reset] at hrun
          split at hrun
          · cases hrun
            intro id c hc
            simp at hc
          · cases hrun
      | _ => cases hreset

theorem Sound.runCalls_fenced {d d' : SimulatedOcsDevice ω} (h : Sound d) (hfenced : Fenced d)
    {calls : List (Call ω)} (hrun : d.runCalls calls = .ok d') : Fenced d' := by
  induction calls generalizing d with
  | nil =>
      cases hrun
      exact hfenced
  | cons call calls ih =>
      obtain ⟨d₁, hrun₁, hsound⟩ := h.call call
      simp only [SimulatedOcsDevice.runCalls, hrun₁] at hrun
      exact ih hsound (h.call_fenced hfenced hrun₁) hrun

omit [DecidableEq ω] in
theorem fenced_construct {info : DeviceInfo} {d : SimulatedOcsDevice ω}
    (h : construct info = some (.ok d)) : Fenced d := by
  unfold SimulatedOcsDevice.construct at h
  split at h
  · split_ifs at h
    · cases h
    · cases h
      intro id c hc
      simp at hc
  · cases h

theorem Reachable.fenced {d : SimulatedOcsDevice ω} (h : Reachable d) : Fenced d := by
  obtain ⟨info, start, calls, hstart, hcalls⟩ := h
  exact (Sound.construct hstart).runCalls_fenced (fenced_construct hstart) hcalls

theorem Reachable.runCalls {d d' : SimulatedOcsDevice ω} (h : Reachable d) {calls : List (Call ω)}
    (hrun : d.runCalls calls = .ok d') : Reachable d' := by
  obtain ⟨info, start, earlier, hstart, hearlier⟩ := h
  exact ⟨info, start, earlier ++ calls, hstart, (runCalls_append hearlier).trans hrun⟩

/-! ## Old versions -/

structure SameMatrix (d d' : SimulatedOcsDevice ω) : Prop where
  connections : d'.connections = d.connections
  inputToOutput : d'.inputToOutput = d.inputToOutput
  outputToInput : d'.outputToInput = d.outputToInput

theorem lastVersionIn_of_distinct {commands : List ConnectionCommand} {c : ConnectionCommand}
    (hnodup : (commands.map (·.id)).Nodup) (hc : c ∈ commands) (hne : c.desiredVersion ≠ 0) :
    lastVersionIn c.id commands = some c.desiredVersion := by
  cases hlast : lastVersionIn c.id commands with
  | none =>
      have hnone := List.find?_eq_none.mp (Option.map_eq_none_iff.mp hlast) c
        (List.mem_reverse.mpr hc)
      simp [hne] at hnone
  | some v =>
      obtain ⟨command, hmem, hid, rfl, -⟩ := mem_of_lastVersionIn hlast
      rw [List.inj_on_of_nodup_map hnodup hmem hc hid]

/-- A successful call that is no replay is the `applied` outcome. -/
theorem Sound.applied_of_isOk {d d' : SimulatedOcsDevice ω} (h : Sound d)
    {commands : List ConnectionCommand} {options : ApplyOptions ω} {result : ApplyResult}
    (hnew : d.cachedResult options = none)
    (hrun : d.applyConnections commands options = .ok (result, d')) (hok : result.isOk = true) :
    ∃ copies, d.Valid commands ∧ SameButCache (d.commit commands copies) d' := by
  obtain ⟨r, hr, hout⟩ := h.outcome commands hnew
  rw [hrun] at hr
  cases hr
  generalize hpair : (result, d') = r at hout
  have hfst : result = r.1 := congrArg Prod.fst hpair
  have hsnd : d' = r.2 := congrArg Prod.snd hpair
  cases hout with
  | refused herror hinvalid =>
      rw [hfst, finish_fst] at hok
      exact absurd hok (by simpa [ApplyResult.isOk] using herror)
  | injected herror hatomic hvalid harmed =>
      rw [hfst, finish_fst] at hok
      exact absurd hok (by simpa [ApplyResult.isOk] using herror)
  | @applied copies hatomic hvalid hunarmed hcopies =>
      rw [hsnd]
      exact ⟨copies, hvalid, finish_same ..⟩

/-- A batch with a version below a fence changes nothing but the replay cache. -/
theorem Sound.stale_refused {d d' : SimulatedOcsDevice ω} (h : Sound d)
    {commands : List ConnectionCommand} {options : ApplyOptions ω} {result : ApplyResult}
    (hrun : d.applyConnections commands options = .ok (result, d')) {c : ConnectionCommand}
    (hc : c ∈ commands) (hne : c.desiredVersion ≠ 0) {v : Nat}
    (hfence : d.lastVersions[c.id]? = some v) (hlt : c.desiredVersion < v) : SameMatrix d d' := by
  have hinvalid : ¬ d.Valid commands := fun hvalid =>
    absurd (hvalid.versions c hc hne v hfence) (by omega)
  cases hcached : d.cachedResult options with
  | some cached =>
      simp only [SimulatedOcsDevice.applyConnections, hcached] at hrun
      cases hrun
      exact ⟨rfl, rfl, rfl⟩
  | none =>
      obtain ⟨r, hr, hout⟩ := h.outcome commands hcached
      rw [hrun] at hr
      cases hr
      generalize hpair : (result, d') = r at hout
      have hsnd : d' = r.2 := congrArg Prod.snd hpair
      cases hout with
      | @refused e herror _ =>
          have hsame := d.finish_same options ⟨e, []⟩
          rw [hsnd]
          exact ⟨hsame.connections, hsame.inputToOutput, hsame.outputToInput⟩
      | injected _ _ hvalid _ => exact absurd hvalid hinvalid
      | applied _ hvalid _ _ => exact absurd hvalid hinvalid

/-- Along a run without a reset no fence goes down and every connection of a nonzero version is
at its fence; when no batch names a connection twice, a nonzero version older than one that was
applied for the same connection never changes the matrix. -/
theorem fences_hold {d : SimulatedOcsDevice ω} (hd : Reachable d) {calls : List (Call ω)}
    (hreset : NoReset calls) :
    ∃ d', d.runCalls calls = .ok d' ∧ FencesGrow d d' ∧ Fenced d' ∧
      (DistinctBatches calls → ∀ before commands options between d₁ result d₂,
        calls = before ++ .applyConnections commands options :: between →
        d.runCalls before = .ok d₁ → d₁.cachedResult options = none →
        d₁.applyConnections commands options = .ok (result, d₂) → result.isOk = true →
        ∀ c ∈ commands, ∀ commands' options', ∀ c' ∈ commands', c'.id = c.id →
        c'.desiredVersion ≠ 0 → c'.desiredVersion < c.desiredVersion →
        ∀ result' d'', d'.applyConnections commands' options' = .ok (result', d'') →
          SameMatrix d' d'') := by
  obtain ⟨d', hrun, hsound, hgrow, hfenced⟩ := hd.sound.run_fences hd.fenced hreset
  refine ⟨d', hrun, hgrow, hfenced, ?_⟩
  intro hdistinct before commands options between d₁ result d₂ hsplit hbefore hnew happly hok
    c hc commands' options' c' hc' hid hne hlt result' d'' hlate
  have hd₁ := hd.runCalls hbefore
  have hnodup : (commands.map (·.id)).Nodup := hdistinct commands options (by simp [hsplit])
  -- the applied version is the fence right after its batch
  obtain ⟨copies, -, hsame⟩ := hd₁.sound.applied_of_isOk hnew happly hok
  have hfence : d₂.lastVersions[c.id]? = some c.desiredVersion := by
    rw [hsame.lastVersions]
    show (recordVersions d₁.lastVersions commands)[c.id]? = _
    rw [getElem?_recordVersions, lastVersionIn_of_distinct hnodup hc (by omega), Option.some_or]
  -- and the rest of the run only raises it
  have hcall : (Call.applyConnections commands options).run d₁ = .ok d₂ := by
    simp only [Call.run, happly]
    rfl
  have hone : d₁.runCalls [.applyConnections commands options] = .ok d₂ := by
    simp only [SimulatedOcsDevice.runCalls, hcall]
  have hd₂ := hd₁.runCalls hone
  have hbetween : NoReset between := fun call hmem => hreset call (by simp [hsplit, hmem])
  obtain ⟨d₃, hrun₃, -, hgrow₃, -⟩ := hd₂.sound.run_fences hd₂.fenced hbetween
  have heq : d₃ = d' := by
    rw [hsplit, runCalls_append hbefore] at hrun
    simp only [SimulatedOcsDevice.runCalls, hcall, hrun₃] at hrun
    exact Except.ok.inj hrun
  subst heq
  obtain ⟨v, hv, hle⟩ := hgrow₃ c.id c.desiredVersion hfence
  rw [← hid] at hv
  exact hsound.stale_refused hlate hc' hne hv (by omega)

theorem fences_hold_swapAndDrift :
    Reachable twoByTwo ∧ NoReset swapAndDrift ∧
    ∃ d', twoByTwo.runCalls swapAndDrift = .ok d' ∧ FencesGrow twoByTwo d' ∧ Fenced d' ∧
      (DistinctBatches swapAndDrift → ∀ before commands options between d₁ result d₂,
        swapAndDrift = before ++ .applyConnections commands options :: between →
        twoByTwo.runCalls before = .ok d₁ → d₁.cachedResult options = none →
        d₁.applyConnections commands options = .ok (result, d₂) → result.isOk = true →
        ∀ c ∈ commands, ∀ commands' options', ∀ c' ∈ commands', c'.id = c.id →
        c'.desiredVersion ≠ 0 → c'.desiredVersion < c.desiredVersion →
        ∀ result' d'', d'.applyConnections commands' options' = .ok (result', d'') →
          SameMatrix d' d'') :=
  have hreset : NoReset swapAndDrift := by unfold NoReset; decide
  ⟨twoByTwo_reachable, hreset, fences_hold twoByTwo_reachable hreset⟩

end Runs

end SimulatedOcsDevice

end MiniOcs
