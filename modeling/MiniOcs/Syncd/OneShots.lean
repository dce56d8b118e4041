import MiniOcs.Concurrent.System
import MiniOcs.Syncd.Drifts
import MiniOcs.Syncd.Faults

/-!
# One-shot faults and lost handlers

How often a command makes an apply fail. A handler that is lost between the device and the stored
result leaves a raised flag behind, and its command is delivered again: if an apply fails in
between, the flag goes up a second time.
-/
namespace MiniOcs.Syncd
open Concurrent

/-! ## Flags of the device -/

section Device

variable {d d' : SimulatedOcsDevice CommandId} {commands : List ConnectionCommand}
  {options : ApplyOptions CommandId} {result : ApplyResult} {e : Error}

/-- The flag that an apply meets: a batch that is new, atomic and possible meets a raised one. -/
def flagMet (d : SimulatedOcsDevice CommandId) (commands : List ConnectionCommand)
    (options : ApplyOptions CommandId) : Option FaultType :=
  if (d.cachedResult options).isSome ∨ options.atomic = false ∨ (d.candidate commands).isOk = false
  then none
  else if d.failNextApply then some .nextApplyError
  else if d.timeoutNextApply then some .nextApplyTimeout
  else none

/-- Errors that are not injected. -/
def Plain (e : Error) : Prop := e.code ≠ .applyFailed ∧ e.code ≠ .applyTimeout

theorem plain_validatePortAvailable {direction : PortDirection} {id : Nat}
    (h : d.validatePortAvailable direction id = .error (.rejected e)) : Plain e := by
  unfold SimulatedOcsDevice.validatePortAvailable at h
  split at h
  · cases h
    unfold SimulatedOcsDevice.validatePort
    split <;> exact ⟨by decide, by decide⟩
  · split at h
    · rename_i e' hport
      cases h
      unfold portAt at hport
      split at hport
      · cases hport
      · split at hport <;> cases hport
    · split_ifs at h <;> cases h <;> exact ⟨by decide, by decide⟩

theorem plain_editConnections {table : Std.ExtTreeMap String AppliedConnection}
    (h : d.editConnections commands table = .error (.rejected e)) : Plain e := by
  induction commands generalizing table with
  | nil => cases h
  | cons command rest ih =>
      unfold SimulatedOcsDevice.editConnections at h
      split at h
      · cases h
        exact ⟨by decide, by decide⟩
      · split at h
        · exact ih h
        · split at h
          · rename_i hport
            cases h
            exact plain_validatePortAvailable hport
          · split at h
            · rename_i hport
              cases h
              exact plain_validatePortAvailable hport
            · exact ih h

theorem portAt_ne_rejected {α : Type} {table : List α} {port : Nat} :
    portAt table port ≠ .error (.rejected e) := by
  unfold portAt
  split
  · simp
  · split <;> simp

theorem plain_indexConnections {connections : List AppliedConnection}
    {inputs outputs : List (Option Nat)}
    (h : SimulatedOcsDevice.indexConnections connections inputs outputs = .error (.rejected e)) :
    Plain e := by
  induction connections generalizing inputs outputs with
  | nil => cases h
  | cons connection rest ih =>
      unfold SimulatedOcsDevice.indexConnections at h
      split at h
      · rename_i hport
        cases h
        exact (portAt_ne_rejected hport).elim
      · cases h
        exact ⟨by decide, by decide⟩
      · split at h
        · rename_i hport
          cases h
          exact (portAt_ne_rejected hport).elim
        · cases h
          exact ⟨by decide, by decide⟩
        · exact ih h

theorem plain_candidate (h : d.candidate commands = .error (.rejected e)) : Plain e := by
  unfold SimulatedOcsDevice.candidate at h
  split at h
  · cases h
    exact ⟨by decide, by decide⟩
  · split at h
    · rename_i hedit
      cases h
      exact plain_editConnections hedit
    · split at h
      · rename_i hindex
        cases h
        exact plain_indexConnections hindex
      · cases h

theorem Plain.ne (h : Plain e) : e ≠ injectedFailure ∧ e ≠ injectedTimeout := by
  constructor
  · rintro rfl
    exact h.1 rfl
  · rintro rfl
    exact h.2 rfl

@[simp] theorem finish_result : (d.finish options result).1 = result := by
  unfold SimulatedOcsDevice.finish
  split <;> rfl

@[simp] theorem raised_finish (type : FaultType) :
    raised (d.finish options result).2 type = raised d type := by
  unfold SimulatedOcsDevice.finish
  split
  · rfl
  · split_ifs
    · cases type <;> rfl
    · split <;> cases type <;> rfl

/-- What an apply that meets the flag leaves: its error, and the flag lowered. -/
structure Meets (d : SimulatedOcsDevice CommandId) (met : Option FaultType) (e : Error)
    (d' : SimulatedOcsDevice CommandId) : Prop where
  failure : e = injectedFailure ↔ met = some .nextApplyError
  timeout : e = injectedTimeout ↔ met = some .nextApplyTimeout
  flags : ∀ type, raised d' type = (raised d type && decide (met ≠ some type))

theorem Meets.finish {met : Option FaultType} {options : ApplyOptions CommandId}
    {result r : ApplyResult} {x : SimulatedOcsDevice CommandId} (h : Meets d met r.error x)
    (heq : (.ok (x.finish options r) : Except Abort _) = .ok (result, d')) :
    Meets d met result.error d' := by
  have hresult := congrArg Prod.fst (Except.ok.inj heq)
  have hdevice := congrArg Prod.snd (Except.ok.inj heq)
  simp only [finish_result] at hresult
  subst hresult
  refine ⟨h.failure, h.timeout, fun type => ?_⟩
  calc raised d' type = raised (x.finish options r).2 type := by rw [hdevice]
    _ = raised x type := raised_finish type
    _ = _ := h.flags type

theorem meets_plain (h : Plain e) : Meets d none e d :=
  ⟨by simp [h.ne.1], by simp [h.ne.2], by simp⟩

/-- A new apply that ends. -/
theorem applyConnections_meets (hnew : d.cachedResult options = none)
    (h : d.applyConnections commands options = .ok (result, d')) :
    Meets d (flagMet d commands options) result.error d' := by
  unfold SimulatedOcsDevice.applyConnections at h
  simp only [hnew] at h
  split at h
  · rename_i hatomic
    have hmet : flagMet d commands options = none := by
      simp [flagMet, show options.atomic = false by simpa using hatomic]
    rw [hmet]
    exact (meets_plain ⟨by decide, by decide⟩).finish h
  · rename_i hatomic
    have hatomic : options.atomic = true := by simpa using hatomic
    unfold SimulatedOcsDevice.applyBatch at h
    split at h
    · cases h
    · rename_i e hcandidate
      have hmet : flagMet d commands options = none := by
        simp [flagMet, hcandidate, Except.isOk, Except.toBool]
      rw [hmet]
      exact (meets_plain (plain_candidate hcandidate)).finish h
    · rename_i table inputs outputs hcandidate
      have hok : (d.candidate commands).isOk = true := by rw [hcandidate]; rfl
      split_ifs at h with hfail htimeout
      · have hmet : flagMet d commands options = some .nextApplyError := by
          simp [flagMet, hnew, hatomic, hok, hfail]
        rw [hmet]
        refine Meets.finish ⟨by decide, by decide, fun type => ?_⟩ h
        cases type <;> simp [raised]
      · have hmet : flagMet d commands options = some .nextApplyTimeout := by
          simp [flagMet, hnew, hatomic, hok, hfail, htimeout]
        rw [hmet]
        refine Meets.finish ⟨by decide, by decide, fun type => ?_⟩ h
        cases type <;> simp [raised]
      · have hmet : flagMet d commands options = none := by
          simp [flagMet, hfail, htimeout]
        rw [hmet]
        refine Meets.finish (r := ⟨Error.success, _⟩) ⟨?_, ?_, fun type => ?_⟩ h
        · exact (by decide : Error.success = injectedFailure ↔ none = some FaultType.nextApplyError)
        · exact (by decide : Error.success = injectedTimeout ↔ none = some FaultType.nextApplyTimeout)
        cases type <;> simp [raised]

theorem flagMet_of_abort {a : Abort} (h : d.applyConnections commands options = .error a) :
    flagMet d commands options = none := by
  unfold SimulatedOcsDevice.applyConnections at h
  split at h
  · cases h
  · split at h
    · cases h
    · unfold SimulatedOcsDevice.applyBatch at h
      split at h
      · rename_i hcandidate
        simp [flagMet, hcandidate, Except.isOk, Except.toBool]
      · cases h
      · split_ifs at h

/-- The apply fails with the fault whose flag it meets. -/
theorem failedWith_eq (d : SimulatedOcsDevice CommandId) (commands : List ConnectionCommand)
    (options : ApplyOptions CommandId) :
    failedWith d commands options = flagMet d commands options := by
  unfold failedWith
  cases hcached : d.cachedResult options with
  | some cached => simp [flagMet, hcached]
  | none =>
      cases happly : d.applyConnections commands options with
      | error a => exact (flagMet_of_abort happly).symm
      | ok r =>
          obtain ⟨result, d'⟩ := r
          have h := applyConnections_meets hcached happly
          simp only [h.failure, h.timeout]
          unfold flagMet
          split_ifs <;> simp_all

theorem applyConnections_flags (h : d.applyConnections commands options = .ok (result, d'))
    (type : FaultType) :
    raised d' type = (raised d type && decide (flagMet d commands options ≠ some type)) := by
  cases hcached : d.cachedResult options with
  | some cached =>
      have hsame : d' = d := by
        simp only [SimulatedOcsDevice.applyConnections, hcached, Except.ok.injEq,
          Prod.mk.injEq] at h
        exact h.2.symm
      simp [hsame, flagMet, hcached]
  | none => exact (applyConnections_meets hcached h).flags type

/-- The flags after an apply over the link. -/
theorem applyOverLink_flags (choice : Nat) (d : SimulatedOcsDevice CommandId)
    (commands : List ConnectionCommand) (options : ApplyOptions CommandId) (type : FaultType) :
    raised (applyOverLink choice d commands options).2 type =
      (raised d type &&
        decide (delivered choice = true → flagMet d commands options ≠ some type)) := by
  unfold applyOverLink
  cases happly : d.applyConnections commands options with
  | error a => simp [flagMet_of_abort happly]
  | ok r =>
      obtain ⟨result, d'⟩ := r
      have hflags := applyConnections_flags happly type
      dsimp only
      split <;> simp_all [delivered]

end Device

/-! ## The accounts of a run -/

/-- The command has its stored result, or the handler that raised its flag is not lost. -/
def Accounted (s : FaultWorld) (eventId : String) : Prop :=
  (s.results eventId).isSome ∨ s.history.handled = some eventId

section Accounts

variable (parse : String → Except String Json)

/-- The stream holds a command of this id for this fault. -/
def Declared (stream : List FaultEvent) (eventId : String) (type : FaultType) : Prop :=
  ∃ event ∈ stream, event.eventId = eventId ∧
    ∃ operation fault, decodeFault parse event = .ok (operation, fault) ∧ fault.type = type

def AppendedOnce (stream : List FaultEvent) (eventId : String) : Prop :=
  (stream.map (·.eventId)).count eventId ≤ 1

/-- One failure at most for a command that was appended once, counting the flag that is up. -/
structure Accounts (s : FaultWorld) : Prop where
  raised : ∀ type, raised s.world.hwsim type = true → s.history.behind type ≠ []
  caused : ∀ causes ∈ s.history.failures, causes ≠ []
  declared : ∀ type, ∀ id ∈ s.history.behind type, Declared parse s.stream id type
  once : ∀ id, AppendedOnce s.stream id → ∀ type,
    s.history.failuresBy id + (if id ∈ s.history.behind type then 1 else 0) ≤ 1
  answered : ∀ id, s.history.failuresBy id ≠ 0 → Accounted s id

variable {parse} {s t : FaultWorld} {id : String} {type type' : FaultType}

theorem Declared.mono {stream stream' : List FaultEvent} (h : Declared parse stream id type)
    (hp : stream <+: stream') : Declared parse stream' id type := by
  obtain ⟨event, hmem, hrest⟩ := h
  exact ⟨event, hp.subset hmem, hrest⟩

theorem AppendedOnce.mono {stream stream' : List FaultEvent} (h : AppendedOnce stream' id)
    (hp : stream <+: stream') : AppendedOnce stream id :=
  ((hp.map _).sublist.count_le id).trans h

theorem eq_of_count_map_le_one {α β : Type} [DecidableEq β] {f : α → β} {l : List α} {b : β}
    (h : (l.map f).count b ≤ 1) {x y : α} (hx : x ∈ l) (hy : y ∈ l) (hfx : f x = b)
    (hfy : f y = b) : x = y := by
  induction l with
  | nil => cases hx
  | cons z zs ih =>
      have hrest : ∀ w ∈ zs, f w = b → 0 < (zs.map f).count b := by
        intro w hw hfw
        exact List.count_pos_iff.mpr (List.mem_map.mpr ⟨w, hw, hfw⟩)
      rw [List.map_cons, List.count_cons] at h
      rcases List.mem_cons.mp hx with rfl | hx'
      · rcases List.mem_cons.mp hy with rfl | hy'
        · rfl
        · have := hrest y hy' hfy
          simp only [hfx, beq_self_eq_true, if_true] at h
          omega
      · rcases List.mem_cons.mp hy with rfl | hy'
        · have := hrest x hx' hfx
          simp only [hfy, beq_self_eq_true, if_true] at h
          omega
        · exact ih (le_trans (Nat.le_add_right _ _) h) hx' hy'

/-- A command that was appended once is for one fault. -/
theorem Declared.type_eq {stream : List FaultEvent} (honce : AppendedOnce stream id)
    (h : Declared parse stream id type) (h' : Declared parse stream id type') : type = type' := by
  obtain ⟨event, hmem, hid, operation, fault, hdecode, rfl⟩ := h
  obtain ⟨event', hmem', hid', operation', fault', hdecode', rfl⟩ := h'
  have hsame := eq_of_count_map_le_one honce hmem hmem' hid hid'
  subst hsame
  rw [hdecode] at hdecode'
  cases hdecode'
  rfl

theorem failuresBy_append (h : History) (causes : List String) (id : String) :
    (h.failures ++ [causes]).countP (fun causes => id ∈ causes) =
      h.failuresBy id + (if id ∈ causes then 1 else 0) := by
  simp [History.failuresBy, List.countP_append, List.countP_singleton]

namespace Accounts

/-- The flags are not raised, the stream grows, and no result is lost. -/
theorem mono (h : Accounts parse s) (hhistory : t.history = s.history)
    (hflags : ∀ type, Syncd.raised t.world.hwsim type = true →
      Syncd.raised s.world.hwsim type = true)
    (hstream : s.stream <+: t.stream)
    (hresults : ∀ id, (s.results id).isSome → (t.results id).isSome) : Accounts parse t := by
  refine ⟨fun type hraised => ?_, ?_, fun type id hid => ?_, fun id honce type => ?_,
    fun id hfail => ?_⟩
  · rw [hhistory]
    exact h.raised type (hflags type hraised)
  · rw [hhistory]
    exact h.caused
  · rw [hhistory] at hid
    exact (h.declared type id hid).mono hstream
  · rw [hhistory]
    exact h.once id (honce.mono hstream) type
  · rw [hhistory] at hfail
    rcases h.answered id hfail with hstored | hhandled
    · exact .inl (hresults id hstored)
    · exact .inr (by rw [hhistory]; exact hhandled)

/-- An apply fails with the fault; every command behind it is accounted for. -/
theorem fail (type : FaultType) (h : Accounts parse s) (hhistory : t.history = s.history.fail (some type))
    (hmet : Syncd.raised s.world.hwsim type = true)
    (hflags : ∀ type', Syncd.raised t.world.hwsim type' = true →
      Syncd.raised s.world.hwsim type' = true ∧ type' ≠ type)
    (hstream : t.stream = s.stream) (hresults : t.results = s.results)
    (hbehind : ∀ id ∈ s.history.behind type, Accounted s id) : Accounts parse t := by
  have hfailures : ∀ id, t.history.failuresBy id =
      s.history.failuresBy id + (if id ∈ s.history.behind type then 1 else 0) := by
    intro id
    rw [hhistory]
    exact failuresBy_append s.history _ id
  have hbehind' : ∀ type', t.history.behind type' =
      if type' = type then [] else s.history.behind type' := by
    intro type'
    rw [hhistory]
    exact Function.update_apply _ _ _ _
  refine ⟨fun type' hraised => ?_, fun causes hmem => ?_, fun type' id hid => ?_,
    fun id honce type' => ?_, fun id hfail => ?_⟩
  · obtain ⟨hraised, hne⟩ := hflags type' hraised
    rw [hbehind', if_neg hne]
    exact h.raised type' hraised
  · rw [hhistory] at hmem
    rcases List.mem_append.mp hmem with hmem | hmem
    · exact h.caused causes hmem
    · rw [List.mem_singleton.mp hmem]
      exact h.raised type hmet
  · rw [hbehind'] at hid
    split_ifs at hid
    · cases hid
    · rw [hstream]
      exact h.declared type' id hid
  · rw [hstream] at honce
    rw [hfailures, hbehind']
    have htype := h.once id honce type
    have htype' := h.once id honce type'
    by_cases heq : type' = type
    · simpa [heq] using htype
    · rw [if_neg heq]
      by_cases hmem : id ∈ s.history.behind type
      · have hne : id ∉ s.history.behind type' := fun hmem' =>
          heq (Declared.type_eq honce (h.declared _ id hmem') (h.declared _ id hmem))
        rw [if_neg hne]
        exact htype
      · rw [if_neg hmem]
        exact htype'
  · rw [hfailures] at hfail
    have hacc : Accounted s id := by
      by_cases hmem : id ∈ s.history.behind type
      · exact hbehind id hmem
      · rw [if_neg hmem, Nat.add_zero] at hfail
        exact h.answered id hfail
    unfold Accounted
    rw [hresults, hhistory]
    exact hacc

/-- A handler that raises a flag has no stored result, and no handler before it was left over. -/
theorem inject (id : String) (type : FaultType) (h : Accounts parse s) (hhistory : t.history = s.history.inject id type)
    (hone : oneShot type = true)
    (hflags : ∀ type', Syncd.raised t.world.hwsim type' = true → type' ≠ type →
      Syncd.raised s.world.hwsim type' = true)
    (hstream : t.stream = s.stream) (hresults : t.results = s.results)
    (hdeclared : Declared parse s.stream id type) (hnew : s.results id = none)
    (hhandled : ∀ id', s.history.handled = some id' → (s.results id').isSome) :
    Accounts parse t := by
  have hfailures : t.history.failures = s.history.failures := by
    simp [hhistory, History.inject, hone]
  have hbehind : ∀ type', t.history.behind type' =
      if type' = type then s.history.behind type ++ [id] else s.history.behind type' := by
    intro type'
    simp only [hhistory, History.inject, hone, if_true]
    exact Function.update_apply _ _ _ _
  have hnone : s.history.failuresBy id = 0 := by
    by_contra hfail
    rcases h.answered id hfail with hstored | hstored
    · simp [hnew] at hstored
    · simpa [hnew] using hhandled id hstored
  refine ⟨fun type' hraised => ?_, ?_, fun type' id' hid => ?_, fun id' honce type' => ?_,
    fun id' hfail => ?_⟩
  · rw [hbehind]
    split_ifs with heq
    · simp
    · exact h.raised type' (hflags type' hraised heq)
  · rw [hfailures]
    exact h.caused
  · rw [hstream]
    rw [hbehind] at hid
    split_ifs at hid with heq
    · rcases List.mem_append.mp hid with hid | hid
      · rw [heq]
        exact h.declared type id' hid
      · rw [List.mem_singleton.mp hid, heq]
        exact hdeclared
    · exact h.declared type' id' hid
  · rw [hstream] at honce
    have hold := h.once id' honce type'
    have hsame : t.history.failuresBy id' = s.history.failuresBy id' := by
      simp only [History.failuresBy, hfailures]
    rw [hsame]
    by_cases hid : id' = id
    · rw [hid, hnone]
      split_ifs <;> omega
    · have hmem : id' ∈ t.history.behind type' ↔ id' ∈ s.history.behind type' := by
        rw [hbehind]
        split_ifs with heq
        · simp [heq, hid]
        · rfl
      simp only [hmem]
      exact hold
  · have hsame : s.history.failuresBy id' ≠ 0 := by
      simpa only [History.failuresBy, hfailures] using hfail
    rcases h.answered id' hsame with hstored | hstored
    · exact .inl (by rw [hresults]; exact hstored)
    · exact .inl (by rw [hresults]; exact hhandled id' hstored)

/-- Flags are lowered, and the commands behind them forgotten. -/
theorem forget (h : Accounts parse s) (hfailures : t.history.failures = s.history.failures)
    (hhandled : t.history.handled = s.history.handled)
    (hbehind : ∀ type, t.history.behind type = s.history.behind type ∨
      t.history.behind type = [])
    (hflags : ∀ type, Syncd.raised t.world.hwsim type = true →
      Syncd.raised s.world.hwsim type = true ∧ t.history.behind type = s.history.behind type)
    (hstream : t.stream = s.stream) (hresults : t.results = s.results) : Accounts parse t := by
  have hsame : ∀ id, t.history.failuresBy id = s.history.failuresBy id := by
    intro id
    simp only [History.failuresBy, hfailures]
  have hmem : ∀ type id, id ∈ t.history.behind type → id ∈ s.history.behind type := by
    intro type id hid
    rcases hbehind type with heq | heq
    · rwa [heq] at hid
    · rw [heq] at hid
      cases hid
  refine ⟨fun type hraised => ?_, ?_, fun type id hid => ?_, fun id honce type => ?_,
    fun id hfail => ?_⟩
  · obtain ⟨hraised, heq⟩ := hflags type hraised
    rw [heq]
    exact h.raised type hraised
  · rw [hfailures]
    exact h.caused
  · rw [hstream]
    exact h.declared type id (hmem type id hid)
  · rw [hstream] at honce
    have hold := h.once id honce type
    rw [hsame]
    by_cases hid : id ∈ t.history.behind type
    · rw [if_pos hid]
      rwa [if_pos (hmem type id hid)] at hold
    · rw [if_neg hid]
      omega
  · rw [hsame] at hfail
    unfold Accounted
    rw [hresults, hhandled]
    exact h.answered id hfail

/-- A handler is lost; every command that has made an apply fail has its result. -/
theorem lose (h : Accounts parse s)
    (hstored : ∀ id, s.history.failuresBy id ≠ 0 → (s.results id).isSome) :
    Accounts parse { s with history := { s.history with handled := none } } :=
  ⟨h.raised, h.caused, h.declared, h.once, fun id hfail => .inl (hstored id hfail)⟩

end Accounts

end Accounts

/-! ## The system -/

inductive FaultTask where
  | faults
  | service (k : Nat)
  deriving DecidableEq

/-- Around the tasks, commands are appended and anything else but the faults may change; a device
that starts again has lowered its flags. -/
inductive Outside (s : FaultWorld) : FaultWorld → Prop
  | append (event : FaultEvent) : Outside s { s with stream := s.stream ++ [event] }
  | change (w : World) :
      (∀ type, raised w.hwsim type = true → raised s.world.hwsim type = true) →
      Outside s { s with world := w, history := s.history.lower w.hwsim }

section System

variable (parse : String → Except String Json) (programs : Service Bool → Prop)

/-- One handler of fault commands beside any number of other programs, over one device. -/
def faultSystem (allow : FaultOp → Nat → FaultWorld → Prop) (cut : FaultWorld → Prop) :
    System FaultOp FaultOp.Reply Raised Bool FaultWorld FaultTask where
  exec := FaultOp.exec
  init s := ∃ w, (∀ type, raised w.hwsim type = false) ∧ s = { world := w }
  starts i _ p := match i with
    | .faults => p = processFaultOne parse
    | .service _ => ∃ q, programs q ∧ p = embed q
  crash i s := match i with
    | .faults => { s with history := { s.history with handled := none } }
    | .service _ => s
  env := Outside
  allow _ := allow
  cut i s := match i with
    | .faults => cut s
    | .service _ => True

/-- The flag that a call meets. -/
def met : FaultOp → FaultWorld → Option FaultType
  | .service (.syncd (.applyConnections commands options)), s =>
      flagMet s.world.hwsim commands options
  | _, _ => none

/-- An apply that meets a flag finds every command behind it accounted for. -/
def prompt (o : FaultOp) (choice : Nat) (s : FaultWorld) : Prop :=
  delivered choice = true → ∀ type ∈ met o s, ∀ id ∈ s.history.behind type, Accounted s id

instance (s : FaultWorld) (eventId : String) : Decidable (Accounted s eventId) :=
  inferInstanceAs (Decidable (_ ∨ _))

instance (o : FaultOp) (choice : Nat) (s : FaultWorld) : Decidable (prompt o choice s) :=
  inferInstanceAs (Decidable (_ → _))

/-- Every command that has made an apply fail has its result. -/
def concluded (s : FaultWorld) : Prop :=
  ∀ id, s.history.failuresBy id ≠ 0 → (s.results id).isSome

/-- No handler that has raised a flag is under way. -/
def Idle (s : FaultWorld) : Prop := ∀ id, s.history.handled = some id → (s.results id).isSome

/-- A flag is raised for a command of the stream that has no result. -/
def injectGuard : FaultOp → FaultWorld → Prop
  | .injectFault eventId fault, s =>
      Declared parse s.stream eventId fault.type ∧ s.results eventId = none ∧ Idle s
  | _, _ => True

/-- What the handler relies on. -/
structure Undisturbed (s t : FaultWorld) : Prop where
  results : t.results = s.results
  handled : t.history.handled = s.history.handled
  stream : s.stream <+: t.stream

def faultContract : FaultTask → Contract FaultOp FaultWorld
  | .faults =>
      { inv := fun _ => True
        rely := Undisturbed
        guard := injectGuard parse
        allow := fun _ _ _ => True
        refl := fun _ => ⟨rfl, rfl, List.prefix_rfl⟩
        trans := fun h₁ h₂ => ⟨h₂.results.trans h₁.results, h₂.handled.trans h₁.handled,
          h₁.stream.trans h₂.stream⟩ }
  | .service _ =>
      { inv := fun _ => True
        rely := fun _ _ => True
        guard := fun o _ => ∃ o', o = .service o'
        allow := fun _ _ _ => True
        refl := fun _ => trivial
        trans := fun _ _ => trivial }

end System

/-! ## One call -/

section Call

variable {parse : String → Except String Json} {s : FaultWorld}
  {d d' : SimulatedOcsDevice CommandId} {e : Error}

theorem once_hwsim {w : World} {marker : OrchKey} {v : OrchHash marker} {write : World → World}
    (hwrite : (write w).hwsim = w.hwsim) : (w.once marker v write).2.hwsim = w.hwsim := by
  unfold World.once
  split_ifs
  · rfl
  · exact hwrite

theorem onceSyncd_hwsim {w : World} {marker : SyncdKey} {v : SyncdHash marker}
    {write : World → World} (hwrite : (write w).hwsim = w.hwsim) :
    (w.onceSyncd marker v write).2.hwsim = w.hwsim := by
  unfold World.onceSyncd
  split_ifs
  · rfl
  · exact hwrite

/-- Only an apply changes the device. -/
theorem hwsim_exec (o : Op) (choice : Nat) (w : World)
    (h : ∀ commands options, o ≠ .syncd (.applyConnections commands options)) :
    (exec o choice w).2.hwsim = w.hwsim := by
  cases o with
  | orch o =>
      cases o with
      | putHashIfAbsent k v => exact once_hwsim rfl
      | putVersionedHashes copy marker fields version hashes =>
          simp only [exec, OrchOp.exec]
          split_ifs <;> rfl
      | appendCommandOnce marker fields event => exact once_hwsim rfl
      | appendRetryOnce marker fields event => exact once_hwsim rfl
      | replaceAlarmOnce marker fields connection alarm event => exact once_hwsim rfl
      | incrementOnce marker fields increments => exact once_hwsim rfl
      | _ => rfl
  | syncd o =>
      cases o with
      | putHashIfAbsent k v => exact onceSyncd_hwsim rfl
      | replaceStateOnce marker v id state event => exact onceSyncd_hwsim rfl
      | replaceAlarmOnce marker v id alarm event => exact onceSyncd_hwsim rfl
      | appendResultOnce marker v event => exact onceSyncd_hwsim rfl
      | appendCommandOnce marker v event => exact onceSyncd_hwsim rfl
      | incrementOnce marker v update => exact onceSyncd_hwsim rfl
      | applyConnections commands options => exact (h commands options rfl).elim
      | _ => rfl

theorem raised_setOperStatus {direction : PortDirection} {id : Nat} {status : PortOperStatus}
    (h : d.setOperStatus direction id status = .ok (e, d')) (type : FaultType) :
    raised d' type = raised d type := by
  unfold SimulatedOcsDevice.setOperStatus at h
  split at h
  · cases h
    rfl
  · split at h
    · cases h
      cases direction <;> cases type <;> rfl
    · cases h

theorem raised_injectDrift (h : d.injectDrift = .ok (e, d')) (type : FaultType) :
    raised d' type = raised d type := by
  unfold SimulatedOcsDevice.injectDrift at h
  split at h
  · cases h
    rfl
  · split at h
    · cases h
      cases type <;> rfl
    · cases h

theorem raised_injectFault {fault : FaultSpec} (h : d.injectFault fault = .ok (e, d'))
    {type : FaultType} (hne : oneShot fault.type = true → type ≠ fault.type) :
    raised d' type = raised d type := by
  unfold SimulatedOcsDevice.injectFault at h
  cases htype : fault.type <;> simp only [htype, oneShot, forall_const] at h hne
  case nextApplyError =>
    cases h
    cases type <;> first | rfl | exact (hne rfl).elim
  case nextApplyTimeout =>
    cases h
    cases type <;> first | rfl | exact (hne rfl).elim
  case outOfBandDrift => exact raised_injectDrift h type
  case inputPortDown => exact raised_setOperStatus h type
  case outputPortDown => exact raised_setOperStatus h type
  case all =>
    cases h
    rfl

theorem raised_clearFault {fault : FaultSpec} (h : d.clearFault fault = .ok (e, d'))
    (type : FaultType) :
    raised d' type =
      (raised d type && decide (fault.type ≠ .all) && decide (type ≠ fault.type)) := by
  unfold SimulatedOcsDevice.clearFault at h
  cases htype : fault.type <;> simp only [htype] at h
  case inputPortDown =>
    rw [raised_setOperStatus h type]
    cases type <;> simp [raised]
  case outputPortDown =>
    rw [raised_setOperStatus h type]
    cases type <;> simp [raised]
  all_goals
    cases h
    cases type <;> simp [raised]

theorem oneShot_of_raised {type : FaultType} (h : raised d type = true) : oneShot type = true := by
  cases type <;> first | rfl | cases h

theorem clearFault_abort {fault : FaultSpec} {a : Abort} (h : d.clearFault fault = .error a) :
    fault.type ≠ .all ∧ oneShot fault.type = false := by
  unfold SimulatedOcsDevice.clearFault at h
  cases htype : fault.type <;> simp only [htype] at h <;>
    first | exact ⟨by decide, rfl⟩ | cases h

/-- What the link leaves of the device. -/
theorem faultOverLink_device (choice : Nat)
    (executed : Except Abort (Error × SimulatedOcsDevice CommandId)) :
    ((delivered choice = false ∨ ∃ a, executed = .error a) ∧
        (faultOverLink choice d executed).2 = d) ∨
      delivered choice = true ∧
        ∃ e d', executed = .ok (e, d') ∧ (faultOverLink choice d executed).2 = d' := by
  unfold faultOverLink
  cases executed with
  | error a => exact .inl ⟨.inr ⟨a, rfl⟩, rfl⟩
  | ok r =>
      obtain ⟨e, d'⟩ := r
      dsimp only
      split
      · exact .inr ⟨rfl, e, d', rfl, rfl⟩
      · exact .inl ⟨.inl rfl, rfl⟩
      · exact .inl ⟨.inl rfl, rfl⟩
      · exact .inr ⟨rfl, e, d', rfl, rfl⟩
      · exact .inr ⟨rfl, e, d', rfl, rfl⟩
      · refine .inr ⟨?_, e, d', rfl, rfl⟩
        simp_all [delivered]

theorem accounts_service {o : Op} {choice : Nat} (h : Accounts parse s)
    (hprompt : prompt (.service o) choice s) :
    Accounts parse (FaultOp.exec (.service o) choice s).2 := by
  by_cases happly : ∃ commands options, o = .syncd (.applyConnections commands options)
  · obtain ⟨commands, options, rfl⟩ := happly
    have hflags := applyOverLink_flags choice s.world.hwsim commands options
    by_cases hdelivered : delivered choice = true
    · cases hmet : flagMet s.world.hwsim commands options with
      | none =>
          refine h.mono ?_ (fun type hraised => ?_) List.prefix_rfl fun _ hid => hid
          · simp only [FaultOp.exec, observe, failedWith_eq, hmet, History.fail, ite_self]
          · change raised (applyOverLink choice s.world.hwsim commands options).2 type = true
              at hraised
            rw [hflags, Bool.and_eq_true] at hraised
            exact hraised.1
      | some type =>
          have hraised : raised s.world.hwsim type = true := by
            unfold flagMet at hmet
            split_ifs at hmet <;> cases hmet <;> assumption
          refine h.fail type ?_ hraised (fun type' hraised' => ?_) rfl rfl
            (hprompt hdelivered type hmet)
          · simp only [FaultOp.exec, observe, failedWith_eq, hmet, hdelivered, if_true]
          · change raised (applyOverLink choice s.world.hwsim commands options).2 type' = true
              at hraised'
            rw [hflags, Bool.and_eq_true, decide_eq_true_eq, hmet] at hraised'
            refine ⟨hraised'.1, ?_⟩
            rintro rfl
            exact hraised'.2 hdelivered rfl
    · refine h.mono ?_ (fun type hraised => ?_) List.prefix_rfl fun _ hid => hid
      · simp only [FaultOp.exec, observe, if_neg hdelivered]
      · change raised (applyOverLink choice s.world.hwsim commands options).2 type = true
          at hraised
        rw [hflags, Bool.and_eq_true] at hraised
        exact hraised.1
  · have hother : ∀ commands options, o ≠ .syncd (.applyConnections commands options) :=
      fun commands options heq => happly ⟨commands, options, heq⟩
    refine h.mono ?_ (fun type hraised => ?_) List.prefix_rfl fun _ hid => hid
    · simp only [FaultOp.exec]
      unfold observe
      split
      · exact (hother _ _ rfl).elim
      · rfl
    · simpa only [FaultOp.exec, hwsim_exec o choice s.world hother] using hraised

theorem accounts_injectFault {eventId : String} {fault : FaultSpec} {choice : Nat}
    (h : Accounts parse s) (hguard : injectGuard parse (.injectFault eventId fault) s) :
    Accounts parse (FaultOp.exec (.injectFault eventId fault) choice s).2 := by
  obtain ⟨hdeclared, hnew, hidle⟩ := hguard
  have hflags : ∀ type, (delivered choice = true → oneShot fault.type = true →
      type ≠ fault.type) →
      raised (FaultOp.exec (.injectFault eventId fault) choice s).2.world.hwsim type =
        raised s.world.hwsim type := by
    intro type hne
    rcases faultOverLink_device (d := s.world.hwsim) choice (s.world.hwsim.injectFault fault) with
      ⟨-, hdevice⟩ | ⟨hdelivered, e, d', hexecuted, hdevice⟩
    · exact congrArg (raised · type) hdevice
    · rw [← raised_injectFault hexecuted (hne hdelivered)]
      exact congrArg (raised · type) hdevice
  by_cases hraises : delivered choice = true ∧ oneShot fault.type = true
  · refine h.inject eventId fault.type ?_ hraises.2 (fun type hraised hne => ?_)
      rfl rfl hdeclared hnew hidle
    · simp only [FaultOp.exec, hraises.1, if_true]
    · rwa [hflags type fun _ _ => hne] at hraised
  · refine h.mono ?_ (fun type hraised => ?_) List.prefix_rfl fun _ hid => hid
    · simp only [FaultOp.exec]
      split_ifs with hdelivered
      · simp only [History.inject]
        rw [if_neg fun hone => hraises ⟨hdelivered, hone⟩]
      · rfl
    · rwa [hflags type fun hdelivered hone => (hraises ⟨hdelivered, hone⟩).elim] at hraised

theorem behind_clear (h : History) (type type' : FaultType) :
    (h.clear type).behind type' =
      if type = .all ∨ type' = type then [] else h.behind type' := by
  unfold History.clear
  split_ifs with hall hor hor
  · rfl
  · exact (hor (.inl hall)).elim
  · rcases hor with hor | rfl
    · exact (hall hor).elim
    · exact Function.update_self _ _ _
  · exact Function.update_of_ne (fun heq => hor (.inr heq)) _ _

theorem accounts_clearFault {fault : FaultSpec} {choice : Nat} (h : Accounts parse s) :
    Accounts parse (FaultOp.exec (.clearFault fault) choice s).2 := by
  have hlink := faultOverLink_device (d := s.world.hwsim) choice (s.world.hwsim.clearFault fault)
  by_cases hdelivered : delivered choice = true
  · have hhistory : (FaultOp.exec (.clearFault fault) choice s).2.history =
        s.history.clear fault.type := by
      simp only [FaultOp.exec, hdelivered, if_true]
    refine h.forget ?_ ?_ (fun type => ?_) (fun type hraised => ?_) rfl rfl
    · rw [hhistory]
      unfold History.clear
      split <;> rfl
    · rw [hhistory]
      unfold History.clear
      split <;> rfl
    · rw [hhistory, behind_clear]
      split_ifs
      · exact .inr rfl
      · exact .inl rfl
    · rw [hhistory, behind_clear]
      change raised (faultOverLink choice s.world.hwsim (s.world.hwsim.clearFault fault)).2 type =
        true at hraised
      rcases hlink with ⟨hlost | ⟨a, habort⟩, hdevice⟩ | ⟨-, e, d', hexecuted, hdevice⟩
      · rw [hdelivered] at hlost
        cases hlost
      · rw [hdevice] at hraised
        obtain ⟨hall, hone⟩ := clearFault_abort habort
        have hne : type ≠ fault.type := by
          rintro rfl
          rw [oneShot_of_raised hraised] at hone
          cases hone
        exact ⟨hraised, if_neg (by simp [hall, hne])⟩
      · rw [hdevice, raised_clearFault hexecuted] at hraised
        simp only [Bool.and_eq_true, decide_eq_true_eq] at hraised
        exact ⟨hraised.1.1, if_neg (by simp [hraised.1.2, hraised.2])⟩
  · refine h.mono ?_ (fun type hraised => ?_) List.prefix_rfl fun _ hid => hid
    · simp only [FaultOp.exec, if_neg hdelivered]
    · change raised (faultOverLink choice s.world.hwsim (s.world.hwsim.clearFault fault)).2 type =
        true at hraised
      rcases hlink with ⟨-, hdevice⟩ | ⟨hdelivered', -⟩
      · rwa [hdevice] at hraised
      · exact (hdelivered hdelivered').elim

/-- A call of any task keeps the accounts. -/
theorem accounts_exec {o : FaultOp} {choice : Nat} (h : Accounts parse s)
    (hguard : injectGuard parse o s) (hprompt : prompt o choice s) :
    Accounts parse (o.exec choice s).2 := by
  cases o with
  | service o => exact accounts_service h hprompt
  | injectFault eventId fault => exact accounts_injectFault h hguard
  | clearFault fault => exact accounts_clearFault h
  | putResultIfAbsent eventId record =>
      simp only [FaultOp.exec]
      split_ifs with hstored
      · exact h
      · refine h.mono rfl (fun _ hraised => hraised) List.prefix_rfl fun id hid => ?_
        by_cases heq : id = eventId
        · simp [heq]
        · simpa [Function.update_of_ne heq] using hid
  | _ => exact h.mono rfl (fun _ hraised => hraised) List.prefix_rfl fun _ hid => hid

theorem undisturbed_service (o : Op) (choice : Nat) (s : FaultWorld) :
    Undisturbed s (FaultOp.exec (.service o) choice s).2 := by
  refine ⟨rfl, ?_, List.prefix_rfl⟩
  simp only [FaultOp.exec]
  unfold observe
  split
  · split_ifs
    · unfold History.fail
      split <;> rfl
    · rfl
  · rfl

end Call

/-! ## The handler -/

section Handler

variable {parse : String → Except String Json} {α : Type} {K : FaultWorld → Prop}
  {Q : α → FaultWorld → Prop} {event : FaultEvent}

abbrev Handles (parse : String → Except String Json) (K : FaultWorld → Prop) (p : FaultService α)
    (Q : α → FaultWorld → Prop) : Prop :=
  Triple FaultOp.exec (faultContract parse .faults) K p Q fun _ _ => True

/-- The assertion is about what the handler relies on. -/
def Held (K : FaultWorld → Prop) : Prop := ∀ s t, K s → Undisturbed s t → K t

theorem held_idle : Held Idle := by
  intro s t hs hst id hid
  rw [hst.handled] at hid
  rw [hst.results]
  exact hs id hid

theorem Handles.send {o : FaultOp} {k : o.Reply → FaultService α}
    (M : o.Reply → FaultWorld → Prop) (hK : Held K) (hguard : ∀ s, K s → injectGuard parse o s)
    (hstep : ∀ s ch, K s → M (o.exec ch s).1 (o.exec ch s).2)
    (hk : ∀ r, Handles parse (M r) (k r) Q) : Handles parse K (sendFault o >>= k) Q :=
  Triple.call M hK (fun s _ => hguard s) (fun s ch _ hs _ => hstep s ch hs) hk

theorem Handles.last {o : FaultOp} {Q : o.Reply → FaultWorld → Prop} (hK : Held K)
    (hQ : ∀ r, Held (Q r)) (hguard : ∀ s, K s → injectGuard parse o s)
    (hstep : ∀ s ch, K s → Q (o.exec ch s).1 (o.exec ch s).2) :
    Handles parse K (sendFault o) Q :=
  Triple.call Q hK (fun s _ => hguard s) (fun s ch _ hs _ => hstep s ch hs) fun r =>
    Triple.pure (hQ r) fun _ h => h

/-- The message that was taken is of the stream. -/
def Taken (message : Option (Nat × FaultEvent)) (s : FaultWorld) : Prop :=
  Idle s ∧ ∀ n event, message = some (n, event) → event ∈ s.stream

theorem held_taken (message : Option (Nat × FaultEvent)) : Held (Taken message) :=
  fun s t hs hst => ⟨held_idle s t hs.1 hst, fun n event hm => hst.stream.subset (hs.2 n event hm)⟩

theorem handles_readGroup : Handles parse Idle (sendFault .readGroup) Taken := by
  refine Handles.last (o := .readGroup) held_idle held_taken (fun _ _ => trivial) fun s ch hs => ?_
  refine ⟨hs, fun n event hm => ?_⟩
  simp only [FaultOp.exec] at hm
  obtain ⟨m, -, hm⟩ := Option.bind_eq_some_iff.mp hm
  obtain ⟨e, he, heq⟩ := Option.map_eq_some_iff.mp hm
  cases heq
  exact List.mem_of_getElem? he

theorem handles_nextFault : Handles parse Idle nextFault Taken := by
  unfold nextFault
  refine Handles.send (o := .xpending) (fun _ => Idle) held_idle (fun _ _ => trivial)
    (fun _ _ hs => hs) fun candidate => ?_
  cases candidate with
  | none => exact handles_readGroup
  | some m =>
      refine Handles.send (o := .xclaim m) (fun claimed s => Idle s ∧ ∀ event,
        claimed = some event → event ∈ s.stream) held_idle (fun _ _ => trivial)
        (fun s ch hs => ⟨hs, fun event he => ?_⟩) fun claimed => ?_
      · simp only [FaultOp.exec] at he
        split_ifs at he
        exact List.mem_of_getElem? he
      · cases claimed with
        | none => exact handles_readGroup.pre fun s hs => hs.1
        | some event =>
            refine Triple.pure (held_taken _) fun s hs => ⟨hs.1, fun n event' hm => ?_⟩
            cases hm
            exact hs.2 _ rfl

/-- The command of the stream has no result. -/
def Unanswered (event : FaultEvent) (s : FaultWorld) : Prop :=
  Idle s ∧ event ∈ s.stream ∧ s.results event.eventId = none

theorem held_unanswered (event : FaultEvent) : Held (Unanswered event) := by
  rintro s t ⟨hidle, hmem, hnone⟩ hst
  refine ⟨held_idle s t hidle hst, hst.stream.subset hmem, ?_⟩
  rw [hst.results]
  exact hnone

/-- The command's flag is the only one that may be waiting for a result. -/
def Executed (event : FaultEvent) (s : FaultWorld) : Prop :=
  ∀ id, s.history.handled = some id → id = event.eventId ∨ (s.results id).isSome

theorem held_executed (event : FaultEvent) : Held (Executed event) := by
  intro s t hs hst id hid
  rw [hst.handled] at hid
  rw [hst.results]
  exact hs id hid

theorem Unanswered.executed {s : FaultWorld} (h : Unanswered event s) : Executed event s :=
  fun id hid => .inr (h.1 id hid)

theorem handles_executeFault :
    Handles parse (Unanswered event) (executeFault parse event) fun _ => Executed event := by
  have hdone : ∀ error : Error,
      Handles parse (Unanswered event) (.pure error) fun _ => Executed event := by
    intro error
    exact Triple.pure (held_executed event) fun s hs => hs.executed
  have hanswer : ∀ error : Error,
      Handles parse (Executed event) (.pure error) fun _ => Executed event := by
    intro error
    exact Triple.pure (held_executed event) fun _ hs => hs
  unfold executeFault
  split
  · exact hdone _
  · rename_i operation fault hdecode
    unfold requestFault
    refine Handles.send (o := .getDeviceInfo) (fun _ => Unanswered event) (held_unanswered event)
      (fun _ _ => trivial) (fun _ _ hs => hs) fun info => ?_
    cases info with
    | error what => exact hdone _
    | ok info =>
        dsimp only
        split_ifs
        · exact hdone _
        · refine Handles.send (o := .injectFault event.eventId fault) (fun _ => Executed event)
            (held_unanswered event) (fun s hs => ?_) (fun s ch hs => ?_)
            fun reply => hanswer _
          · exact ⟨⟨event, hs.2.1, rfl, operation, fault, hdecode, rfl⟩, hs.2.2, hs.1⟩
          · intro id hid
            simp only [FaultOp.exec, History.inject] at hid
            split_ifs at hid
            · exact .inl (Option.some.inj hid).symm
            · exact hs.executed id hid
            · exact hs.executed id hid
        · refine Handles.send (o := .clearFault fault) (fun _ => Executed event)
            (held_unanswered event) (fun _ _ => trivial) (fun s ch hs => ?_)
            fun reply => hanswer _
          intro id hid
          have hsame : (FaultOp.exec (.clearFault fault) ch s).2.history.handled =
              s.history.handled := by
            simp only [FaultOp.exec]
            unfold History.clear
            split_ifs <;> rfl
          rw [hsame] at hid
          exact hs.executed id hid

theorem handles_storeFault (error : Error) :
    Handles parse (Executed event) (storeFault event error) fun _ => Idle := by
  unfold storeFault
  refine Handles.send (o := .now) (fun _ => Executed event) (held_executed event)
    (fun _ _ => trivial) (fun _ _ hs => hs) fun completedAtNs => ?_
  refine Handles.send (o := .putResultIfAbsent _ _) (fun _ => Idle) (held_executed event)
    (fun _ _ => trivial) (fun s ch hs => ?_) fun _ => Triple.pure held_idle fun _ hs => hs
  intro id hid
  simp only [FaultOp.exec] at hid ⊢
  split_ifs at hid ⊢ with hstored
  · rcases hs id hid with rfl | hid
    · exact hstored
    · exact hid
  · by_cases heq : id = event.eventId
    · simp [heq]
    · rcases hs id hid with hid | hid
      · exact (heq hid).elim
      · simpa [Function.update_of_ne heq] using hid

theorem handles_acknowledgeFault (n : Nat) :
    Handles parse Idle (acknowledgeFault n) fun _ => Idle := by
  unfold acknowledgeFault
  refine Handles.send (o := .xack n) (fun _ => Idle) held_idle (fun _ _ => trivial)
    (fun _ _ hs => hs) fun acknowledged => ?_
  split_ifs
  · exact Triple.pure held_idle fun _ hs => hs
  · exact Triple.call (fun _ => Idle) held_idle (fun _ _ _ => trivial) (fun _ _ _ hs _ => hs)
      fun _ => Triple.throw (fun _ _ _ _ => trivial) fun _ _ => trivial

theorem handles_processFaultOne :
    Handles parse Idle (processFaultOne parse) fun _ => Idle := by
  unfold processFaultOne
  refine Triple.bind handles_nextFault fun message => ?_
  cases message with
  | none => exact Triple.pure held_idle fun s hs => hs.1
  | some message =>
      obtain ⟨n, event⟩ := message
      refine Handles.send (o := .getResult event.eventId)
        (fun stored s => Idle s ∧ event ∈ s.stream ∧ s.results event.eventId = stored)
        (held_taken _) (fun _ _ => trivial) (fun s ch hs => ⟨hs.1, hs.2 n event rfl, rfl⟩)
        fun stored => ?_
      cases stored with
      | some record => exact (handles_acknowledgeFault n).pre fun s hs => hs.1
      | none =>
          refine Triple.bind handles_executeFault fun error => ?_
          exact Triple.bind (handles_storeFault error) fun _ => handles_acknowledgeFault n

end Handler

section Runs

variable {parse : String → Except String Json} {programs : Service Bool → Prop}

theorem safe_embed {α : Type} (k : Nat) (q : Service α) (s : FaultWorld) :
    Safe FaultOp.exec (faultContract parse (.service k)) (fun _ _ => True) (embed q) s := by
  induction q generalizing s with
  | pure a => exact fun _ _ _ => trivial
  | throw e => exact fun _ _ _ => trivial
  | call o k' ih => exact fun t _ _ => ⟨⟨o, rfl⟩, fun ch _ => ih _ _⟩

theorem accounts_outside {s t : FaultWorld} (h : Accounts parse s) (ht : Outside s t) :
    Accounts parse t := by
  cases ht with
  | append event =>
      exact h.mono rfl (fun _ hraised => hraised) (List.prefix_append _ _) fun _ hid => hid
  | change w hw =>
      refine h.forget rfl rfl (fun type => ?_) (fun type hraised => ?_) rfl rfl
      · simp only [History.lower]
        split_ifs
        · exact .inl rfl
        · exact .inr rfl
      · refine ⟨hw type hraised, ?_⟩
        simp only [History.lower]
        rw [if_pos hraised]

theorem undisturbed_outside {s t : FaultWorld} (ht : Outside s t) : Undisturbed s t := by
  cases ht with
  | append event => exact ⟨rfl, rfl, List.prefix_append _ _⟩
  | change w hw => exact ⟨rfl, rfl, List.prefix_rfl⟩

def restsIdle : FaultTask → FaultWorld → Prop
  | .faults => Idle
  | .service _ => fun _ => True

theorem faults_restful :
    Restful (faultSystem parse programs prompt concluded) (Accounts parse) restsIdle
      (faultContract parse) where
  inv i _ _ := by cases i <;> trivial
  allow i _ _ _ _ := by cases i <;> trivial
  stable i s t hs hst := by
    cases i with
    | faults => exact held_idle s t hs hst
    | service k => trivial
  init := by
    rintro s ⟨w, hw, rfl⟩
    refine ⟨⟨fun type hraised => ?_, by simp, by simp, by simp [History.failuresBy],
      by simp [History.failuresBy]⟩, fun i => ?_⟩
    · rw [hw type] at hraised
      cases hraised
    · cases i with
      | faults => exact fun id hid => by cases hid
      | service k => trivial
  starts i s p _ hrest hp := by
    cases i with
    | faults =>
        cases hp
        refine (handles_processFaultOne s hrest).weaken fun r t _ hr a ha => ?_
        subst ha
        exact hr
    | service k =>
        obtain ⟨q, -, rfl⟩ := hp
        exact (safe_embed k q s).weaken fun _ _ _ _ _ _ => trivial
  call i o ch s h hguard hprompt := by
    cases i with
    | faults =>
        refine ⟨accounts_exec h hguard hprompt, fun j hj => ?_⟩
        cases j with
        | faults => exact (hj rfl).elim
        | service k => trivial
    | service k =>
        obtain ⟨o, rfl⟩ := hguard
        refine ⟨accounts_exec h trivial hprompt, fun j hj => ?_⟩
        cases j with
        | faults => exact undisturbed_service o ch s
        | service k => trivial
  crash i s h hcut := by
    cases i with
    | faults =>
        refine ⟨h.lose hcut, (fun id hid => by cases hid), fun j hj => ?_⟩
        cases j with
        | faults => exact (hj rfl).elim
        | service k => trivial
    | service k =>
        refine ⟨h, trivial, fun j hj => ?_⟩
        cases j with
        | faults => exact ⟨rfl, rfl, List.prefix_rfl⟩
        | service k => trivial
  env s t h ht := by
    refine ⟨accounts_outside h ht, fun j => ?_⟩
    cases j with
    | faults => exact undisturbed_outside ht
    | service k => trivial

/-- A one-shot command that was appended once makes one apply fail at most, whatever runs beside
the handler and wherever it is lost, if no apply fails by a command that a lost handler has left
without a result. Every injected failure has a command behind it. -/
theorem one_shot_fails_once
    {c : Config FaultOp FaultOp.Reply Raised Bool FaultWorld FaultTask}
    (h : Reachable (faultSystem parse programs prompt concluded) c) :
    (∀ id, AppendedOnce c.world.stream id → c.world.history.failuresBy id ≤ 1) ∧
      ∀ causes ∈ c.world.history.failures, causes ≠ [] := by
  have haccounts := (faults_restful.reachable h).1
  refine ⟨fun id honce => ?_, haccounts.caused⟩
  exact (Nat.le_add_right _ _).trans (haccounts.once id honce .nextApplyError)

end Runs

/-! ## A handler that is lost -/

def faultText : String :=
  "\x7b\"fault_type\":\"NEXT_APPLY_ERROR\",\"operation\":\"INJECT\",\"port_id\":0\x7d"

def faultParse (text : String) : Except String Json :=
  if text = faultText then
    .ok (.object [("fault_type", .str "NEXT_APPLY_ERROR"), ("operation", .str "INJECT"),
      ("port_id", .int 0)])
  else .error "[json.exception.parse_error.101] parse error"

def injectOnce : FaultEvent :=
  { eventId := "f1", device := "ocs1", resourceType := "fault", operation := "INJECT"
    payload := faultText }

/-- Two connections are committed, and their commands wait for syncd. -/
def twoConfigured : World :=
  orchestrated Orch.processConfigOne (Orch.afterSet 1 [Gnmi.connect Gnmi.idB 2 2] driftConfigured)

def twoStarted : FaultWorld := { world := (ranAt 1 initializeService twoConfigured).2 }

def faultQueued : FaultWorld := { twoStarted with stream := [injectOnce] }

def faultClock (time : Nat) : FaultOp → Nat
  | .service o => clock time o
  | .now => time
  | _ => 0

def faultChoices (calls time : Nat) (p : FaultService Bool) (s : FaultWorld) : List Nat :=
  p.schedule FaultOp.exec (faultClock time) calls s

/-- Some calls of a program, over a link that does not fail. -/
def faultRan (calls time : Nat) (p : FaultService Bool) (s : FaultWorld) :
    FaultService Bool × FaultWorld :=
  p.run FaultOp.exec (faultChoices calls time p s) s

def handlerLost (s : FaultWorld) : FaultWorld :=
  { s with history := { s.history with handled := none } }

/-- The handler raises the flag and is lost. -/
def injectLost : FaultWorld := handlerLost (faultRan 5 2 (processFaultOne faultParse) faultQueued).2

/-- An apply fails. -/
def failedFirst : FaultWorld := (faultRan 100 3 (embed processOne) injectLost).2

/-- The command is delivered again. -/
def injectedAgain : FaultWorld := (faultRan 20 4 (processFaultOne faultParse) failedFirst).2

/-- Another apply fails. -/
def failedAgain : FaultWorld := (faultRan 100 5 (embed processOne) injectedAgain).2

def faultsResting (s : FaultWorld) :
    Config FaultOp FaultOp.Reply Raised Bool FaultWorld FaultTask :=
  ⟨s, fun _ => none⟩

section Resting

variable {allow : FaultOp → Nat → FaultWorld → Prop} {cut : FaultWorld → Prop} {s : FaultWorld}

theorem faultQueued_reachable :
    Reachable (faultSystem faultParse (· = processOne) allow cut) (faultsResting faultQueued) := by
  have hinit : Reachable (faultSystem faultParse (· = processOne) allow cut)
      (faultsResting twoStarted) := by
    refine .init ⟨_, fun type => ?_, rfl⟩
    cases type <;> decide +kernel
  exact hinit.step (.env faultQueued (Outside.append injectOnce))

theorem resting_processOne (calls time : Nat)
    (h : Reachable (faultSystem faultParse (· = processOne) allow cut) (faultsResting s))
    (hallow : (embed processOne).along FaultOp.exec allow
      (faultChoices calls time (embed processOne) s) s)
    (hend : (faultRan calls time (embed processOne) s).1.outcome? = some (.ok true)) :
    Reachable (faultSystem faultParse (· = processOne) allow cut)
      (faultsResting (faultRan calls time (embed processOne) s).2) :=
  h.complete (i := .service 0) rfl ⟨processOne, rfl, rfl⟩ _ hallow hend

theorem resting_processFaultOne (calls time : Nat)
    (h : Reachable (faultSystem faultParse (· = processOne) allow cut) (faultsResting s))
    (hallow : (processFaultOne faultParse).along FaultOp.exec allow
      (faultChoices calls time (processFaultOne faultParse) s) s)
    (hend : (faultRan calls time (processFaultOne faultParse) s).1.outcome? = some (.ok true)) :
    Reachable (faultSystem faultParse (· = processOne) allow cut)
      (faultsResting (faultRan calls time (processFaultOne faultParse) s).2) :=
  h.complete (i := .faults) rfl rfl _ hallow hend

end Resting

/-- One command makes two applies fail. -/
theorem one_shot_fails_twice :
    Reachable (faultSystem faultParse (· = processOne) (fun _ _ _ => True) fun _ => True)
        (faultsResting failedAgain) ∧
      AppendedOnce failedAgain.stream "f1" ∧ failedAgain.history.failuresBy "f1" = 2 := by
  have hall : ∀ (p : FaultService Bool) (cs : List Nat) (s : FaultWorld),
      p.along FaultOp.exec (fun _ _ _ => True) cs s :=
    fun p cs s => Prog.along_of_forall (fun _ _ _ => trivial) p cs s
  have hlost : Reachable (faultSystem faultParse (· = processOne) (fun _ _ _ => True)
      fun _ => True) (faultsResting injectLost) :=
    faultQueued_reachable.cut (i := .faults) rfl rfl
      (faultChoices 5 2 (processFaultOne faultParse) faultQueued) (hall _ _ _) trivial
  have hfirst := resting_processOne 100 3 hlost (hall _ _ _)
    (by decide +kernel)
  have hagain := resting_processFaultOne 20 4 hfirst (hall _ _ _)
    (by decide +kernel)
  have hlast := resting_processOne 100 5 hagain (hall _ _ _)
    (by decide +kernel)
  have honce : AppendedOnce failedAgain.stream "f1" := by
    unfold AppendedOnce
    decide +kernel
  exact ⟨hlast, honce, by decide +kernel⟩

/-- The handler stores the result before the apply fails. -/
def injectStored : FaultWorld := (faultRan 20 2 (processFaultOne faultParse) faultQueued).2

def failedOnce : FaultWorld := (faultRan 100 3 (embed processOne) injectStored).2

theorem one_shot_fails_once_failedOnce :
    Reachable (faultSystem faultParse (· = processOne) prompt concluded)
        (faultsResting failedOnce) ∧
      failedOnce.history.failuresBy "f1" = 1 ∧
      ((∀ id, AppendedOnce failedOnce.stream id → failedOnce.history.failuresBy id ≤ 1) ∧
        ∀ causes ∈ failedOnce.history.failures, causes ≠ []) := by
  have hqueued : Reachable (faultSystem faultParse (· = processOne) prompt concluded)
      (faultsResting faultQueued) := faultQueued_reachable
  have hstored := resting_processFaultOne 20 2 hqueued (by decide +kernel) (by decide +kernel)
  have hfailed := resting_processOne 100 3 hstored (by decide +kernel)
    (by decide +kernel)
  exact ⟨hfailed, by decide +kernel, one_shot_fails_once hfailed⟩

end MiniOcs.Syncd
