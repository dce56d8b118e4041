import MiniOcs.Syncd.Contract

/-!
# Every call of the device poll is an action

The poll reads the intents of the orchestrator, the configuration and the device at different
moments. What it learns of them stays true: applications do not get older, and the device moves
as the exposure says.
-/
namespace MiniOcs.Syncd
open Std Concurrent

/-- What the poll keeps while it works. -/
structure Onward (X : Exposure) (s t : World) : Prop where
  deviceState : t.syncd.hash .deviceState = s.syncd.hash .deviceState
  deviceName : t.syncd.deviceName = s.syncd.deviceName
  device : X.moves s.hwsim t.hwsim
  name : t.hwsim.info.name = s.hwsim.info.name
  versions : ∀ id : String,
    Orch.currentVersion s.orch.appl[id]? ≤ Orch.currentVersion t.orch.appl[id]?

theorem Onward.refl {X : Exposure} (s : World) : Onward X s s :=
  ⟨rfl, rfl, X.refl _, rfl, fun _ => Nat.le_refl _⟩

theorem Onward.trans {X : Exposure} {a b c : World} (h₁ : Onward X a b) (h₂ : Onward X b c) :
    Onward X a c where
  deviceState := h₂.deviceState.trans h₁.deviceState
  deviceName := h₂.deviceName.trans h₁.deviceName
  device := X.trans h₁.device h₂.device
  name := h₂.name.trans h₁.name
  versions id := Nat.le_trans (h₁.versions id) (h₂.versions id)

theorem Near.onward {X : Exposure} {s t : World} (h : Near X s t) : Onward X s t :=
  ⟨h.hash _ rfl, h.deviceName, h.device, h.name, h.versions⟩

theorem Frame.onward {X : Exposure} {s t : World} (h : Frame X s t) : Onward X s t :=
  h.near.onward

theorem onward_mark {X : Exposure} {s : World} {k : SyncdKey} {v : SyncdHash k}
    (hk : .deviceState ≠ k) : Onward X s (s.markSyncd k v) :=
  ⟨World.markSyncd_hash_of_ne _ _ _ hk, rfl, X.refl _, rfl, fun _ => Nat.le_refl _⟩

theorem onward_publishState {X : Exposure} {s : World} {k : SyncdKey} {v : SyncdHash k}
    {id : String} {state : Option ConnectionState} {event : StateEvent} (hk : .deviceState ≠ k) :
    Onward X s (s.publishState k v id state event) :=
  ⟨World.markSyncd_hash_of_ne _ _ _ hk, rfl, X.refl _, rfl, fun _ => Nat.le_refl _⟩

/-- The application has seen this version of the connection. -/
def Seen (w : World) (c : ConnectionCommand) : Prop :=
  c.desiredVersion ≤ Orch.currentVersion w.orch.appl[c.id]?

theorem Seen.onward {X : Exposure} {s t : World} {c : ConnectionCommand} (h : Seen s c)
    (hst : Onward X s t) : Seen t c :=
  Nat.le_trans h (hst.versions c.id)

/-! ## Ports -/

section Ports

variable {X : Exposure} {α : Type} {s : World}

theorem calm_countAlarm (activation : ActivationId) (clear : Bool)
    (increments : List (CounterField × Int)) : Calm (countAlarm activation clear increments) :=
  ⟨⟨rfl, rfl⟩, fun _ => trivial⟩

theorem calm_publishPortAlarm (port : PortState) (activation : ActivationId) (affected : Nat) :
    Calm (publishPortAlarm port activation affected) := by
  refine Calm.send trivial fun marker => ?_
  cases marker with
  | some _ => exact calm_countAlarm _ _ _
  | none =>
      refine Calm.send trivial fun now => ?_
      exact Calm.send rfl fun _ => calm_countAlarm _ _ _

theorem calm_countClearedPortAlarm (activation : ActivationId) (marker : Option Unit) :
    Calm (countClearedPortAlarm activation marker) := by
  cases marker with
  | some _ => exact calm_countAlarm _ _ _
  | none => trivial

theorem calm_clearPortAlarm (port : PortState) (activation : ActivationId) :
    Calm (clearPortAlarm port activation) := by
  refine Calm.send trivial fun marker => ?_
  cases marker with
  | some _ => exact calm_countClearedPortAlarm _ _
  | none =>
      refine Calm.send trivial fun active => ?_
      cases active with
      | none => trivial
      | some alarm =>
          refine Calm.send trivial fun now => ?_
          refine Calm.send rfl fun _ => ?_
          exact Calm.send trivial fun marker => calm_countClearedPortAlarm _ marker

theorem calm_publishPortChange (port : PortState) (previous : Option PortState) :
    Calm (publishPortChange port previous) := by
  unfold publishPortChange
  split_ifs
  · trivial
  · refine Calm.send trivial fun now => ?_
    cases previous with
    | none => exact ⟨rfl, fun _ => trivial⟩
    | some _ => exact ⟨⟨rfl, rfl⟩, fun _ => trivial⟩

theorem calm_openPortFault (port : PortState) (fault : Option PortFault) :
    Calm (openPortFault port fault) := by
  unfold openPortFault
  split
  · trivial
  · refine Calm.send trivial fun now => ?_
    exact ⟨rfl, fun _ => trivial⟩

theorem calm_clearedStatus (fault : PortFault) : Calm (clearedStatus fault) := by
  unfold clearedStatus
  split
  · trivial
  · refine Calm.send trivial fun processed => ?_
    rcases processed with _ | _ | _ <;> trivial
  · trivial

theorem calm_closePortFault (port : PortState) (fault : Option PortFault) :
    Calm (closePortFault port fault) := by
  unfold closePortFault
  split
  · trivial
  · apply (calm_clearPortAlarm _ _).bind
    intro _
    apply (calm_clearedStatus _).bind
    intro status
    exact ⟨rfl, fun _ => trivial⟩

theorem calm_publishPortState (port : PortState) (affected : Nat) :
    Calm (publishPortState port affected) := by
  refine Calm.send trivial fun previous => ?_
  apply (calm_publishPortChange _ _).bind
  intro _
  refine Calm.send trivial fun fault => ?_
  split_ifs
  · exact (calm_openPortFault _ _).bind fun activation => calm_publishPortAlarm _ _ _
  · exact calm_closePortFault _ _

theorem UpBetween.mono {X : Exposure} {d e e' : SimulatedOcsDevice CommandId}
    (h : UpBetween X d e) (he : X.moves e' e) : UpBetween X d e' :=
  fun x hx hxe => h x hx (X.trans hxe he)

/-- The loop over the ports of one direction. -/
theorem safe_pollDirection {k : List Nat → Service α} {direction : PortDirection}
    {actual : List AppliedConnection} {unavailable ids : List Nat} {d : SimulatedOcsDevice CommandId}
    (hd : X.moves d s.hwsim) (hclean : UpBetween X d s.hwsim → unavailable = [])
    (hids : ∀ id ∈ ids, id ≠ 0 ∧ id ≤ d.portCount direction)
    (hk : ∀ t unavailable, Near X s t → (UpBetween X d t.hwsim → unavailable = []) →
      SafeAt X (k unavailable) t) :
    SafeAt X (pollDirection direction actual unavailable ids >>= k) s := by
  induction ids generalizing s unavailable with
  | nil => exact hk s unavailable (Frame.refl s).near hclean
  | cons id rest ih =>
      unfold pollDirection
      rw [Prog.bind_assoc']
      refine SafeAt.send (fun t _ _ ch _ => .idle) fun t _ hst ch _ => ?_
      simp only [SyncdOp.exec]
      have hread : ∀ reply : Except String PortState,
          (∀ port, reply = .ok port → t.hwsim.getPortState direction id = .ok port) →
          SafeAt X ((readOrRaise reply >>= fun port =>
            publishPortState port (actual.countP fun connection =>
              connectionPort port.direction connection = port.id) >>= fun _ =>
            pollDirection direction actual
              (if portUnavailable port then unavailable ++ [id] else unavailable) rest) >>= k) t := by
        intro reply hreply
        cases reply with
        | error message => exact SafeAt.raise_bind
        | ok port =>
            have hport := hreply port rfl
            rw [Prog.bind_assoc']
            change SafeAt X ((publishPortState port _ >>= _) >>= k) t
            rw [Prog.bind_assoc']
            refine SafeAt.calm (calm_publishPortState _ _) fun _ u hu => ?_
            have hsu : Near X s u := hst.near.trans hu
            refine ih (X.trans hd hsu.device) (fun hup => ?_)
              (fun i hi => hids i (by simp [hi])) fun v un hv hun => hk v un (hsu.trans hv) hun
            have hdt : X.moves d t.hwsim := X.trans hd hst.device
            obtain ⟨hall, hinfo⟩ := hup t.hwsim hdt hu.device
            have hcount : t.hwsim.portCount direction = d.portCount direction := by
              cases direction <;> simp [SimulatedOcsDevice.portCount, hinfo]
            have hrange := hids id (by simp)
            have havail := hall direction id port hport hrange.1 (by rw [hcount]; exact hrange.2)
            rw [havail, if_neg (by simp)]
            exact hclean (hup.mono hsu.device)
      refine hread _ fun port hport => ?_
      split at hport
      · rename_i p hp
        unfold MiniOcs.readDevice at hport
        split_ifs at hport
        cases hport
        exact hp
      · cases hport

theorem mem_portIds {count id : Nat} (h : id ∈ portIds count) : id ≠ 0 ∧ id ≤ count := by
  obtain ⟨i, hi, rfl⟩ := List.mem_map.mp h
  have := List.mem_range.mp hi
  omega

theorem safe_pollPortStates {k : List AppliedConnection → Service α}
    {actual : List AppliedConnection} {d : SimulatedOcsDevice CommandId}
    (hd : X.moves d s.hwsim)
    (hk : ∀ t effective, Near X s t → List.Sublist effective actual →
      (UpBetween X d t.hwsim → effective = actual) → SafeAt X (k effective) t) :
    SafeAt X (pollPortStates d.info actual >>= k) s := by
  unfold pollPortStates
  rw [Prog.bind_assoc']
  refine safe_pollDirection hd (fun _ => rfl) (fun id hid => mem_portIds hid)
    fun t inputs hst hinputs => ?_
  rw [Prog.bind_assoc']
  refine safe_pollDirection (X.trans hd hst.device) (fun _ => rfl)
    (fun id hid => mem_portIds hid) fun u outputs htu houtputs => ?_
  refine hk u _ (hst.trans htu) List.filter_sublist fun hup => ?_
  have hi := hinputs (hup.mono htu.device)
  have ho := houtputs hup
  simp [hi, ho]

end Ports

/-! ## Device state -/

section DeviceState

variable {X : Exposure} {α : Type} {s : World}

theorem safe_publishDeviceState {k : Unit → Service α} {generation count : Nat}
    {status : DeviceOperStatus} {error : Error}
    (hgen : (∃ d, X.moves d s.hwsim ∧ generation = d.info.generation) ∨
      (s.syncd.deviceName ≠ "" ∧ generation = s.syncd.deviceGeneration))
    (hk : ∀ t, (t.syncd.hash .deviceState).isSome → X.moves s.hwsim t.hwsim → SafeAt X (k ()) t) :
    SafeAt X (publishDeviceState generation count status error >>= k) s := by
  unfold publishDeviceState
  rw [Prog.bind_assoc']
  refine SafeAt.now fun now => ?_
  refine SafeAt.send (fun t _ hst ch _ => ?_) fun t _ hst ch _ => ?_
  · have haside : ∀ v : DeviceStateHash, ∀ event : StateEvent, isAsideEvent event = true →
        AsideOnly (t.markSyncd .deviceState v)
          ((SyncdOp.replaceHashAndAppendEvent .deviceState v event).exec ch t).2 := by
      intro v event hevent
      exact ⟨rfl, rfl, rfl, rfl, rfl, rfl, rfl, rfl, rfl, rfl, fun _ _ => rfl,
        ⟨[event], rfl, by simpa using hevent⟩, ⟨[], by simp [SyncdOp.exec, World.setSyncd], by simp⟩⟩
    rcases hgen with ⟨d, hd, hgen⟩ | ⟨hname, hgen⟩
    · exact .deviceState (X.trans hd hst.device) (.inl hgen) (haside _ _ rfl)
    · exact .deviceState (X.refl _)
        (.inr ⟨by rw [hst.syncd]; exact hname, by rw [hst.syncd]; exact hgen⟩) (haside _ _ rfl)
  · apply hk
    · simp [SyncdOp.exec, World.setSyncd, SyncdState.setHash]
    · exact hst.device

end DeviceState

/-! ## Generation recovery -/

section Recovery

variable {X : Exposure} {α : Type} {s t : World}

theorem NewGeneration.onward {generation : Nat} (h : NewGeneration X s generation)
    (hst : Onward X s t) : NewGeneration X t generation := by
  obtain ⟨d, hd, hgen, hstate⟩ := h
  exact ⟨d, X.trans hd hst.device, hgen, by rw [hst.deviceState]; exact hstate⟩

theorem safe_publishedDelta {k : Int → Service α} {published : Bool} {delta : Int}
    {marker : Service (Option Int)}
    (hread : ∀ k' : Option Int → Service α, (∀ m, SafeAt X (k' m) s) → SafeAt X (marker >>= k') s)
    (hk : ∀ delta, SafeAt X (k delta) s) :
    SafeAt X (publishedDelta published delta marker >>= k) s := by
  unfold publishedDelta
  split_ifs
  · exact hk delta
  · rw [Prog.bind_assoc']
    apply hread
    intro m
    cases m with
    | none => exact SafeAt.raise_bind
    | some delta => exact hk delta

theorem safe_replaceGenerationState {k : Int → Service α} {generation : Nat} {id : String}
    {version : Nat} {before after : Bool} {state : Option ConnectionState}
    (hnew : NewGeneration X s generation) (hk : ∀ t delta, Onward X s t → SafeAt X (k delta) t) :
    SafeAt X (replaceGenerationState generation id version before after state >>= k) s := by
  unfold replaceGenerationState
  rw [Prog.bind_assoc']
  have hrest : ∀ t published, Onward X s t →
      SafeAt X (publishedDelta published (activeDelta before after)
        (Syncd.send (.getHash (.generationStatePublication generation id))) >>= k) t := by
    intro t published ht
    exact safe_publishedDelta (fun k' h => SafeAt.getHash (h _)) fun delta => hk t delta ht
  cases hm : s.syncd.hash (.generationStatePublication generation id) with
  | some marker =>
      refine SafeAt.skip false (fun t hst _ => ?_) (hrest s false (Onward.refl s))
      simp only [SyncdOp.exec]
      exact onceSyncd_some (by rw [hst.syncd, hm]; rfl)
  | none =>
      refine SafeAt.write true _
        (fun t hst ch => exec_replaceStateOnce_none (by rw [hst.syncd]; exact hm) ch)
        (fun t _ hst => ?_) fun t _ hst => ?_
      · exact .generationState (hnew.onward hst.onward) (by rw [hst.syncd]; exact hm) rfl
      · exact hrest _ true (hst.onward.trans (onward_publishState (by simp)))

/-- What the scan for a recovery has gathered; `keys` are still to be read. -/
structure ScanOk (w : World) (scan : RecoveryScan) (keys : List String) : Prop where
  seen : ∀ c ∈ scan.commands, Seen w c ∧ validCommand c = true ∧ decodeCommand c = c
  nodup : (scan.commands.map (·.id)).Nodup
  fresh : ∀ c ∈ scan.commands, c.id ∉ keys ∧ ∀ x ∈ scan.remaining, x.id ≠ c.id
  distinct : (scan.remaining.map (·.id)).Nodup
  actual : ∀ x ∈ scan.remaining, Seen w (removal x)

theorem ScanOk.onward {scan : RecoveryScan} {keys : List String} (h : ScanOk s scan keys)
    (hst : Onward X s t) : ScanOk t scan keys where
  seen c hc := ⟨(h.seen c hc).1.onward hst, (h.seen c hc).2⟩
  nodup := h.nodup
  fresh := h.fresh
  distinct := h.distinct
  actual x hx := (h.actual x hx).onward hst

theorem ScanOk.drop {scan : RecoveryScan} {key : String} {keys : List String}
    (h : ScanOk s scan (key :: keys)) : ScanOk s scan keys where
  seen := h.seen
  nodup := h.nodup
  fresh c hc := ⟨fun hmem => (h.fresh c hc).1 (List.mem_cons_of_mem _ hmem), (h.fresh c hc).2⟩
  distinct := h.distinct
  actual := h.actual

theorem intendedCommand_ok {snapshot : Application} {command : ConnectionCommand}
    (h : intendedCommand snapshot = .ok command) : command.id = snapshot.id ∧
      command.desiredVersion = snapshot.desiredVersion ∧ validCommand command = true ∧
      decodeCommand command = command := by
  unfold intendedCommand at h
  split at h
  · cases h
    exact ⟨rfl, rfl, rfl, rfl⟩
  · split_ifs at h with hi ho
    cases h
    simp only [Bool.not_eq_true', Bool.not_eq_false] at hi ho
    exact ⟨rfl, rfl, by simp [validCommand, hi, ho], rfl⟩

/-- The scan after one more intent. -/
theorem ScanOk.next {scan : RecoveryScan} {key : String} {keys : List String} {delta : Int}
    {command : ConnectionCommand} {found : Option AppliedConnection}
    (h : ScanOk s scan (key :: keys)) (hkeys : (key :: keys).Nodup) (hid : command.id = key)
    (hseen : Seen s command) (hvalid : validCommand command = true)
    (hfixed : decodeCommand command = command) :
    ScanOk s {
      activeDelta := scan.activeDelta + delta
      commands := if intentMatches command found then scan.commands else scan.commands ++ [command]
      remaining := scan.remaining.filter fun connection => connection.id ≠ command.id } keys := by
  have hnotMem : command.id ∉ keys := by
    rw [hid]
    exact (List.nodup_cons.mp hkeys).1
  have hmem : ∀ x, x ∈ scan.remaining.filter (fun connection => connection.id ≠ command.id) →
      x ∈ scan.remaining ∧ x.id ≠ command.id := by
    intro x hx
    simpa using List.mem_filter.mp hx
  have hdistinct : ((scan.remaining.filter fun connection =>
      connection.id ≠ command.id).map (·.id)).Nodup :=
    (List.filter_sublist.map _).nodup h.distinct
  have hdrop := h.drop
  split_ifs
  · exact ⟨h.seen, h.nodup, fun c hc => ⟨(hdrop.fresh c hc).1, fun x hx =>
      (h.fresh c hc).2 x (hmem x hx).1⟩, hdistinct, fun x hx => h.actual x (hmem x hx).1⟩
  · refine ⟨fun c hc => ?_, ?_, fun c hc => ?_, hdistinct, fun x hx => h.actual x (hmem x hx).1⟩
    · rcases List.mem_append.mp hc with hc | hc
      · exact h.seen c hc
      · rw [List.mem_singleton.mp hc]
        exact ⟨hseen, hvalid, hfixed⟩
    · rw [List.map_append, List.nodup_append]
      refine ⟨h.nodup, by simp, fun a ha b hb => ?_⟩
      obtain ⟨c, hc, rfl⟩ := List.mem_map.mp ha
      rw [List.map_singleton, List.mem_singleton] at hb
      rw [hb, hid]
      exact fun heq => (h.fresh c hc).1 (by rw [heq]; simp)
    · rcases List.mem_append.mp hc with hc | hc
      · exact ⟨(hdrop.fresh c hc).1, fun x hx => (h.fresh c hc).2 x (hmem x hx).1⟩
      · rw [List.mem_singleton.mp hc]
        exact ⟨hnotMem, fun x hx => (hmem x hx).2⟩

theorem safe_refreshIntended {k : RecoveryScan → Service α} {generation : Nat}
    {scan : RecoveryScan} {keys : List String} (hnew : NewGeneration X s generation)
    (hscan : ScanOk s scan keys) (hkeys : keys.Nodup)
    (hk : ∀ t scan, Onward X s t → ScanOk t scan [] → SafeAt X (k scan) t) :
    SafeAt X (refreshIntended generation scan keys >>= k) s := by
  induction keys generalizing s scan with
  | nil => exact hk s scan (Onward.refl s) hscan
  | cons key rest ih =>
      unfold refreshIntended
      rw [Prog.bind_assoc']
      refine SafeAt.send (fun t _ _ ch _ => .idle) fun t hknown hst ch _ => ?_
      simp only [SyncdOp.exec]
      have hrest := (List.nodup_cons.mp hkeys).2
      cases hsnap : t.orch.device[key]? with
      | none =>
          exact ih (hnew.onward hst.onward) (hscan.drop.onward hst.onward) hrest
            fun u scan hu hok => hk u scan (hst.onward.trans hu) hok
      | some snapshot =>
          dsimp only
          cases hint : intendedCommand snapshot with
          | error message => exact SafeAt.raise_bind
          | ok command =>
              obtain ⟨hid, hversion, hvalid, hfixed⟩ := intendedCommand_ok hint
              have hkey : command.id = key := hid.trans (hknown.keyed key snapshot hsnap)
              have hseen : Seen t command := by
                have := hknown.intents key snapshot hsnap
                rw [Seen, hversion, hkey]
                exact this
              dsimp only
              rw [Prog.bind_assoc']
              refine SafeAt.getState ?_
              rw [Prog.bind_assoc']
              refine safe_replaceGenerationState (hnew.onward hst.onward) fun u delta hu => ?_
              have htrans := hst.onward.trans hu
              refine ih (hnew.onward htrans) ?_ hrest fun v scan hv hok =>
                hk v scan (htrans.trans hv) hok
              exact (hscan.onward htrans).next hkeys hkey (hseen.onward hu) hvalid hfixed

theorem safe_refreshUnexpected {k : RecoveryScan → Service α} {generation : Nat}
    {scan : RecoveryScan} {rest : List AppliedConnection} (hnew : NewGeneration X s generation)
    (hk : ∀ t scan', Onward X s t → scan'.commands = scan.commands ++ rest.map removal →
      SafeAt X (k scan') t) :
    SafeAt X (refreshUnexpected generation scan rest >>= k) s := by
  induction rest generalizing s scan with
  | nil => exact hk s scan (Onward.refl s) (by simp)
  | cons x rest ih =>
      unfold refreshUnexpected
      rw [Prog.bind_assoc']
      refine SafeAt.getState ?_
      rw [Prog.bind_assoc']
      refine safe_replaceGenerationState hnew fun t delta ht => ?_
      refine ih (hnew.onward ht) fun u scan' hu hcommands => ?_
      apply hk u scan' (ht.trans hu)
      rw [hcommands]
      simp

/-- What a repair is made of. -/
structure Repairable (w : World) (commands : List ConnectionCommand) : Prop where
  nodup : (commands.map (·.id)).Nodup
  seen : ∀ c ∈ commands, Seen w c ∧ validCommand c = true ∧ decodeCommand c = c

theorem Repairable.onward {commands : List ConnectionCommand} (h : Repairable s commands)
    (hst : Onward X s t) : Repairable t commands :=
  ⟨h.nodup, fun c hc => ⟨(h.seen c hc).1.onward hst, (h.seen c hc).2⟩⟩

theorem Repairable.perm {commands commands' : List ConnectionCommand} (h : Repairable s commands)
    (hp : commands'.Perm commands) : Repairable s commands' :=
  ⟨(hp.map _).nodup_iff.mpr h.nodup, fun c hc => h.seen c (hp.mem_iff.mp hc)⟩

theorem Repairable.repair {commands : List ConnectionCommand} (h : Repairable s commands)
    (hne : commands ≠ []) {info : DeviceInfo} (hname : s.hwsim.info.name = info.name)
    {id : CommandId} {requestId : String} {operation : CommandOperation} {version : Nat}
    {options : ApplyOptions CommandId} (htimeout : 0 < options.timeoutMs) :
    Repair s (repairEvent id requestId info operation version ⟨commands, options⟩) where
  device := hname.symm
  nodup := h.nodup
  decodes := decodeDeviceCommand_fixed htimeout hne fun c hc => (h.seen c hc).2
  known c hc := (h.seen c hc).1

theorem safe_publishRecovery {k : Unit → Service α} {info : DeviceInfo}
    {commands : List ConnectionCommand} (hnew : NewGeneration X s info.generation)
    (hname : s.hwsim.info.name = info.name) (hrep : Repairable s commands)
    (hk : ∀ t, Onward X s t → SafeAt X (k ()) t) :
    SafeAt X (publishRecovery info commands >>= k) s := by
  unfold publishRecovery
  split_ifs with hempty
  · rw [Prog.bind_assoc']
    cases hm : s.syncd.hash (.generationRecovery info.generation) with
    | some marker =>
        refine SafeAt.skip false (fun t hst _ => ?_) (hk s (Onward.refl s))
        simp only [SyncdOp.exec]
        exact onceSyncd_some (by rw [hst.syncd, hm]; rfl)
    | none =>
        refine SafeAt.write true
          (fun t => t.markSyncd (.generationRecovery info.generation) ⟨false, none⟩)
          (fun t hst _ => ?_) (fun t _ hst => ?_) fun t _ hst => ?_
        · simp only [SyncdOp.exec]
          rw [onceSyncd_none (by rw [hst.syncd]; exact hm)]
          rfl
        · exact .generationSettled (hnew.onward hst.onward)
        · exact hk _ (hst.onward.trans (onward_mark (by simp)))
  · rw [Prog.bind_assoc']
    refine SafeAt.write () (fun t => t.markSyncd (.configBatch (.recovery info.generation)) _)
      (fun _ _ _ => rfl) (fun t _ hst => .repairBatch (.inl rfl)) fun t _ hst => ?_
    rw [Prog.bind_assoc']
    have ht : Onward X s (t.markSyncd (.configBatch (.recovery info.generation)) ⟨commands,
        { operationId := some (.recovery info.generation) }⟩) :=
      hst.onward.trans (onward_mark (by simp))
    generalize hu : t.markSyncd (.configBatch (.recovery info.generation)) ⟨commands,
        { operationId := some (.recovery info.generation) }⟩ = u at ht ⊢
    cases hm : u.syncd.hash (.generationRecovery info.generation) with
    | some marker =>
        refine SafeAt.skip false (fun v hv _ => ?_) (hk u ht)
        simp only [SyncdOp.exec]
        exact onceSyncd_some (by rw [hv.syncd, hm]; rfl)
    | none =>
        refine SafeAt.write true (fun v => { v with
            commands := v.commands ++ [repairEvent (.recovery info.generation)
              (recoveryRequestId info) info .generationRecovery (maxVersion commands)
              ⟨commands, { operationId := some (.recovery info.generation) }⟩] }.markSyncd
            (.generationRecovery info.generation) ⟨true, some (.recovery info.generation)⟩)
          (fun v hv _ => ?_) (fun v _ hv => ?_) fun v _ hv => ?_
        · simp only [SyncdOp.exec]
          rw [onceSyncd_none (by rw [hv.syncd]; exact hm)]
        · have hsv := ht.trans hv.onward
          refine .recoveryCommand (hnew.onward hsv) (by rw [hv.syncd]; exact hm) rfl ?_
          exact (hrep.onward hsv).repair hempty (hsv.name.trans hname) (by simp)
        · refine hk _ ((ht.trans hv.onward).trans ?_)
          exact ⟨World.markSyncd_hash_of_ne _ _ _ (by simp), rfl, X.refl _, rfl,
            fun _ => Nat.le_refl _⟩

theorem seen_removal (hknown : Known s) {x : AppliedConnection} (hx : x ∈ s.hwsim.getConnections) :
    Seen s (removal x) := hknown.actual x hx

theorem safe_scheduleGenerationRecovery {k : Unit → Service α} {info : DeviceInfo}
    {actual : List AppliedConnection} (hnew : NewGeneration X s info.generation)
    (hname : s.hwsim.info.name = info.name) (hdistinct : (actual.map (·.id)).Nodup)
    (hactual : ∀ x ∈ actual, Seen s (removal x)) (hk : ∀ t, Onward X s t → SafeAt X (k ()) t) :
    SafeAt X (scheduleGenerationRecovery info actual >>= k) s := by
  unfold scheduleGenerationRecovery
  rw [Prog.bind_assoc']
  refine SafeAt.getHash ?_
  cases s.syncd.hash (.generationRecovery info.generation) with
  | some scheduled => exact hk s (Onward.refl s)
  | none =>
      dsimp only
      rw [Prog.bind_assoc']
      refine SafeAt.send (fun t _ _ ch _ => .idle) fun t _ hst ch _ => ?_
      simp only [SyncdOp.exec]
      rw [Prog.bind_assoc']
      have hscan : ScanOk t { remaining := actual } t.orch.device.keys :=
        ⟨by simp, by simp, by simp, hdistinct, fun x hx => (hactual x hx).onward hst.onward⟩
      refine safe_refreshIntended (hnew.onward hst.onward) hscan ExtTreeMap.nodup_keys
        fun u intended hu hok => ?_
      have hsu := hst.onward.trans hu
      rw [Prog.bind_assoc']
      refine safe_refreshUnexpected (hnew.onward hsu) fun v scan hv hcommands => ?_
      have hsv := hsu.trans hv
      rw [Prog.bind_assoc']
      refine SafeAt.calm (p := Syncd.send _) ⟨⟨rfl, rfl⟩, fun _ => trivial⟩ fun _ w hw => ?_
      have hsw := hsv.trans hw.onward
      refine safe_publishRecovery (hnew.onward hsw) (hsw.name.trans hname) ?_
        fun x hx => hk x (hsw.trans hx)
      refine Repairable.perm ?_ sortById_perm
      refine Repairable.onward (s := u) ?_ (hv.trans hw.onward)
      rw [hcommands]
      refine ⟨?_, fun c hc => ?_⟩
      · rw [List.map_append, List.nodup_append]
        refine ⟨hok.nodup, ?_, fun a ha b hb => ?_⟩
        · rw [List.map_map]
          exact hok.distinct
        · obtain ⟨c, hc, rfl⟩ := List.mem_map.mp ha
          obtain ⟨r, hr, rfl⟩ := List.mem_map.mp hb
          obtain ⟨x, hx, rfl⟩ := List.mem_map.mp hr
          exact ((hok.fresh c hc).2 x hx).symm
      · rcases List.mem_append.mp hc with hc | hc
        · exact hok.seen c hc
        · obtain ⟨x, hx, rfl⟩ := List.mem_map.mp hc
          exact ⟨hok.actual x hx, rfl, rfl⟩

end Recovery

/-! ## Plans -/

section Plans

variable {X : Exposure} {α : Type} {s t : World} {desired : List ConnectionCommand}
  {actual : List AppliedConnection} {plan : ReconciliationPlan}

theorem safe_loadDesired {k : List ConnectionCommand → Service α} {keys : List String}
    (hdesired : ∀ c ∈ desired, validCommand c = true ∧ decodeCommand c = c)
    (hk : ∀ t desired, Frame X s t → (∀ c ∈ desired, validCommand c = true ∧ decodeCommand c = c) →
      SafeAt X (k desired) t) :
    SafeAt X (loadDesired desired keys >>= k) s := by
  induction keys generalizing s desired with
  | nil => exact hk s desired (Frame.refl s) hdesired
  | cons key rest ih =>
      unfold loadDesired
      rw [Prog.bind_assoc']
      refine SafeAt.send (fun t _ _ ch _ => .idle) fun t _ hst ch _ => ?_
      simp only [SyncdOp.exec]
      have hnext : ∀ desired : List ConnectionCommand,
          (∀ c ∈ desired, validCommand c = true ∧ decodeCommand c = c) →
          SafeAt X (loadDesired desired rest >>= k) t := fun desired h =>
        ih h fun u desired hu hok => hk u desired (hst.trans hu) hok
      cases t.config.connections[key]? with
      | none => exact hnext desired hdesired
      | some config =>
          dsimp only
          split_ifs with hid hin hout
          · exact SafeAt.raise_bind
          · exact SafeAt.raise_bind
          · exact SafeAt.raise_bind
          · apply hnext
            intro c hc
            rcases List.mem_append.mp hc with hc | hc
            · exact hdesired c hc
            · rw [List.mem_singleton.mp hc]
              simp only [Bool.not_eq_true', Bool.not_eq_false] at hin hout
              exact ⟨by simp [validCommand, hin, hout], rfl⟩

/-- Every desired connection was met by an intent of its version. -/
def Met (w : World) (desired : List ConnectionCommand) : Prop :=
  ∀ c ∈ desired, ∃ c' ∈ desired, c'.id = c.id ∧ Seen w c'

theorem safe_settled {k : Bool → Service α} {keys : List String} (all : List ConnectionCommand)
    (hrest : ∀ c ∈ desired, c ∈ all)
    (hmet : ∀ c ∈ all, c ∈ desired ∨ ∃ c' ∈ all, c'.id = c.id ∧ Seen s c')
    (hk : ∀ t b, Frame X s t → (b = true → Met t all) → SafeAt X (k b) t) :
    SafeAt X (settled desired keys >>= k) s := by
  induction keys generalizing s desired with
  | nil =>
      refine hk s _ (Frame.refl s) fun hempty c hc => ?_
      rw [List.isEmpty_iff] at hempty
      subst hempty
      exact (hmet c hc).resolve_left (by simp)
  | cons key rest ih =>
      have hfalse : ∀ t, Frame X s t → SafeAt X (k false) t := fun t hst =>
        hk t false hst (by simp)
      unfold settled
      rw [Prog.bind_assoc']
      refine SafeAt.send (fun t _ _ ch _ => .idle) fun t hknown hst ch _ => ?_
      simp only [SyncdOp.exec]
      have hmet' : ∀ c ∈ all, c ∈ desired ∨ ∃ c' ∈ all, c'.id = c.id ∧ Seen t c' := by
        intro c hc
        obtain hc | ⟨c', hc', hid, hseen⟩ := hmet c hc
        · exact .inl hc
        · exact .inr ⟨c', hc', hid, hseen.onward hst.onward⟩
      have hk' : ∀ u b, Frame X t u → (b = true → Met u all) → SafeAt X (k b) u :=
        fun u b hu hb => hk u b (hst.trans hu) hb
      cases hsnap : t.orch.device[key]? with
      | none => exact hfalse t hst
      | some snapshot =>
          dsimp only
          have hid := hknown.keyed key snapshot hsnap
          have hversion := hknown.intents key snapshot hsnap
          cases hfind : desired.find? fun command => command.id = snapshot.id with
          | none =>
              dsimp only
              split_ifs
              · exact ih hrest hmet' hk'
              · exact hfalse t hst
          | some command =>
              dsimp only
              split_ifs with hstatus
              · exact hfalse t hst
              · exact SafeAt.raise_bind
              · exact hfalse t hst
              · exact SafeAt.raise_bind
              · exact hfalse t hst
              · push Not at hstatus
                have hcommand : command ∈ desired := List.mem_of_find?_eq_some hfind
                have hcid : command.id = snapshot.id := by simpa using List.find?_some hfind
                have hseen : Seen t command := by
                  rw [Seen, ← hstatus.2, hcid, hid]
                  exact hversion
                refine ih (fun c hc => hrest c (List.mem_filter.mp hc).1) (fun c hc => ?_) hk'
                obtain hc' | hc' := hmet' c hc
                · by_cases heq : c.id = snapshot.id
                  · exact .inr ⟨command, hrest _ hcommand, hcid.trans heq.symm, hseen⟩
                  · exact .inl (List.mem_filter.mpr ⟨hc', by simpa using heq⟩)
                · exact .inr hc'

/-- A plan that may be published: what it says of the actual connections is true, and its
commands repair. -/
structure PlanSafe (w : World) (actual : List AppliedConnection) (plan : ReconciliationPlan) :
    Prop where
  options : plan.fullSnapshot.options = {}
  repairable : Repairable w plan.fullSnapshot.commands
  drifts : ∀ drift ∈ plan.drifts, DriftOk actual drift
  planned : ∀ drift ∈ plan.drifts, drift.desired ∈ plan.fullSnapshot.commands

theorem PlanSafe.onward (h : PlanSafe s actual plan) (hst : Onward X s t) :
    PlanSafe t actual plan :=
  ⟨h.options, h.repairable.onward hst, h.drifts, h.planned⟩

theorem PlanSafe.commands_ne_nil (h : PlanSafe s actual plan) (hopen : plan.converged = false) :
    plan.fullSnapshot.commands ≠ [] := by
  cases hdrifts : plan.drifts with
  | nil => simp [ReconciliationPlan.converged, hdrifts] at hopen
  | cons drift rest =>
      have hmem := h.planned drift (by simp [hdrifts])
      exact List.ne_nil_of_mem hmem

theorem Met.seen (hmet : Met s desired) (hnd : (desired.map (·.id)).Nodup) {c : ConnectionCommand}
    (hc : c ∈ desired) : Seen s c := by
  obtain ⟨c', hc', hid, hseen⟩ := hmet c hc
  rwa [List.inj_on_of_nodup_map hnd hc' hc hid] at hseen

theorem mem_unexpectedOf {x : AppliedConnection} (h : x ∈ unexpectedOf desired actual) :
    x ∈ actual ∧ ∀ c ∈ desired, c.id ≠ x.id := by
  simpa [unexpectedOf] using h

theorem planSafe_of_planOk (h : PlanOk desired actual plan) (hmet : Met s desired)
    (hvalid : ∀ c ∈ desired, validCommand c = true ∧ decodeCommand c = c)
    (hactual : ∀ x ∈ actual, Seen s (removal x)) : PlanSafe s actual plan where
  options := h.options
  repairable := by
    refine Repairable.perm ⟨?_, fun c hc => ?_⟩ h.commands
    · rw [List.map_append, List.nodup_append]
      refine ⟨h.desiredIds, ?_, fun a ha b hb => ?_⟩
      · rw [List.map_map]
        exact (List.filter_sublist.map _).nodup h.actualIds
      · obtain ⟨c, hc, rfl⟩ := List.mem_map.mp ha
        obtain ⟨r, hr, rfl⟩ := List.mem_map.mp hb
        obtain ⟨x, hx, rfl⟩ := List.mem_map.mp hr
        exact (mem_unexpectedOf hx).2 c hc
    · rcases List.mem_append.mp hc with hc | hc
      · exact ⟨hmet.seen h.desiredIds hc, hvalid c hc⟩
      · obtain ⟨x, hx, rfl⟩ := List.mem_map.mp hc
        exact ⟨hactual x (mem_unexpectedOf hx).1, rfl, rfl⟩
  drifts := h.drifts
  planned := h.planned

theorem driftOk_mismatch {c : ConnectionCommand} {x : AppliedConnection}
    (h : actual.find? (fun connection => connection.id = c.id) = some x) :
    DriftOk actual (mismatch c x) :=
  mem_of_find? h

theorem safe_confirmedDrifts {k : List ConnectionDrift → Service α} {drifts : List ConnectionDrift}
    {all : List ConnectionCommand} (hall : ∀ c ∈ desired, c ∈ all)
    (hdrifts : ∀ drift ∈ drifts, DriftOk actual drift ∧ drift.desired ∈ all)
    (hk : ∀ t drifts, Frame X s t → (∀ drift ∈ drifts, DriftOk actual drift ∧ drift.desired ∈ all) →
      SafeAt X (k drifts) t) :
    SafeAt X (confirmedDrifts actual drifts desired >>= k) s := by
  induction desired generalizing s drifts with
  | nil => exact hk s drifts (Frame.refl s) hdrifts
  | cons c rest ih =>
      have hrest : ∀ c ∈ rest, c ∈ all := fun c hc => hall c (List.mem_cons_of_mem _ hc)
      unfold confirmedDrifts
      cases hfind : actual.find? fun connection => connection.id = c.id with
      | none => exact ih hrest hdrifts hk
      | some x =>
          dsimp only
          rw [Prog.bind_assoc']
          refine SafeAt.send (fun t _ _ ch _ => .idle) fun t _ hst ch _ => ?_
          rw [Prog.bind_assoc']
          refine SafeAt.send (fun t _ _ ch _ => .idle) fun u _ hu ch _ => ?_
          have hk' : ∀ v drifts, Frame X u v →
              (∀ drift ∈ drifts, DriftOk actual drift ∧ drift.desired ∈ all) →
              SafeAt X (k drifts) v := fun v drifts hv hok =>
            hk v drifts (hst.trans (hu.trans hv)) hok
          split_ifs
          · refine ih hrest (fun drift hdrift => ?_) hk'
            rcases List.mem_append.mp hdrift with hdrift | hdrift
            · exact hdrifts drift hdrift
            · rw [List.mem_singleton.mp hdrift]
              exact ⟨driftOk_mismatch hfind, hall c (by simp)⟩
          · exact ih hrest hdrifts hk'

/-- The removals that a plan is extended by; `keys` are still to be read. -/
structure RemovalsOk (w : World) (desired : List ConnectionCommand)
    (actual : List AppliedConnection) (removals : List ConnectionCommand) (keys : List String) :
    Prop where
  repairable : Repairable w removals
  fresh : ∀ c ∈ removals, (∀ d ∈ desired, d.id ≠ c.id) ∧ (∀ x ∈ actual, x.id ≠ c.id) ∧ c.id ∉ keys

theorem RemovalsOk.onward {removals : List ConnectionCommand} {keys : List String}
    (h : RemovalsOk s desired actual removals keys) (hst : Onward X s t) :
    RemovalsOk t desired actual removals keys :=
  ⟨h.repairable.onward hst, h.fresh⟩

theorem RemovalsOk.drop {removals : List ConnectionCommand} {key : String} {keys : List String}
    (h : RemovalsOk s desired actual removals (key :: keys)) :
    RemovalsOk s desired actual removals keys :=
  ⟨h.repairable, fun c hc => ⟨(h.fresh c hc).1, (h.fresh c hc).2.1,
    fun hmem => (h.fresh c hc).2.2 (List.mem_cons_of_mem _ hmem)⟩⟩

theorem RemovalsOk.snoc {removals : List ConnectionCommand} {key : String} {keys : List String}
    {c : ConnectionCommand} (h : RemovalsOk s desired actual removals (key :: keys))
    (hkeys : (key :: keys).Nodup) (hid : c.id = key) (hop : c = {
      operation := .remove, id := c.id, desiredVersion := c.desiredVersion }) (hseen : Seen s c)
    (hdesired : ∀ d ∈ desired, d.id ≠ c.id) (hactual : ∀ x ∈ actual, x.id ≠ c.id) :
    RemovalsOk s desired actual (removals ++ [c]) keys := by
  have hdrop := h.drop
  refine ⟨⟨?_, fun r hr => ?_⟩, fun r hr => ?_⟩
  · rw [List.map_append, List.nodup_append]
    refine ⟨h.repairable.nodup, by simp, fun a ha b hb => ?_⟩
    obtain ⟨r, hr, rfl⟩ := List.mem_map.mp ha
    rw [List.map_singleton, List.mem_singleton] at hb
    rw [hb, hid]
    exact fun heq => (h.fresh r hr).2.2 (by rw [heq]; simp)
  · rcases List.mem_append.mp hr with hr | hr
    · exact h.repairable.seen r hr
    · rw [List.mem_singleton.mp hr]
      refine ⟨hseen, ?_, ?_⟩
      · rw [hop]
        rfl
      · rw [hop]
        rfl
  · rcases List.mem_append.mp hr with hr | hr
    · exact hdrop.fresh r hr
    · rw [List.mem_singleton.mp hr]
      exact ⟨hdesired, hactual, by rw [hid]; exact (List.nodup_cons.mp hkeys).1⟩

theorem safe_failedRemovals {k : List ConnectionCommand → Service α}
    {removals : List ConnectionCommand} {keys : List String}
    (hok : RemovalsOk s desired actual removals keys) (hkeys : keys.Nodup)
    (hk : ∀ t removals, Frame X s t → RemovalsOk t desired actual removals [] →
      SafeAt X (k removals) t) :
    SafeAt X (failedRemovals desired actual removals keys >>= k) s := by
  induction keys generalizing s removals with
  | nil => exact hk s removals (Frame.refl s) hok
  | cons key rest ih =>
      have hrest := (List.nodup_cons.mp hkeys).2
      unfold failedRemovals
      rw [Prog.bind_assoc']
      refine SafeAt.send (fun t _ _ ch _ => .idle) fun t hknown hst ch _ => ?_
      simp only [SyncdOp.exec]
      have hok' := hok.onward hst.onward
      have hk' : ∀ u removals, Frame X t u → RemovalsOk u desired actual removals [] →
          SafeAt X (k removals) u := fun u removals hu => hk u removals (hst.trans hu)
      cases hsnap : t.orch.device[key]? with
      | none => exact ih hok'.drop hrest hk'
      | some snapshot =>
          dsimp only
          split_ifs with hskip
          · exact ih hok'.drop hrest hk'
          · simp only [not_or, List.any_eq_true, decide_eq_true_eq, not_exists, not_and] at hskip
            have hid := hknown.keyed key snapshot hsnap
            refine ih (hok'.snoc hkeys hid rfl ?_ hskip.1 hskip.2.2.2) hrest hk'
            have hversion := hknown.intents key snapshot hsnap
            rw [Seen]
            change snapshot.desiredVersion ≤ Orch.currentVersion t.orch.appl[snapshot.id]?
            rw [hid]
            exact hversion

theorem safe_confirmPlan {k : ReconciliationPlan × Bool → Service α}
    (hplan : PlanOk desired actual plan) (hmet : Met s desired)
    (hvalid : ∀ c ∈ desired, validCommand c = true ∧ decodeCommand c = c)
    (hactual : ∀ x ∈ actual, Seen s (removal x))
    (hk : ∀ t plan flag, Frame X s t → PlanSafe t actual plan →
      (∀ c ∈ desired, c ∈ plan.fullSnapshot.commands) → SafeAt X (k (plan, flag)) t) :
    SafeAt X (confirmPlan desired actual plan >>= k) s := by
  have hsafe := planSafe_of_planOk hplan hmet hvalid hactual
  have hmem : ∀ c ∈ desired, c ∈ plan.fullSnapshot.commands := fun c hc =>
    hplan.commands.mem_iff.mpr (List.mem_append_left _ hc)
  unfold confirmPlan
  split_ifs with hconverged
  · exact hk s plan false (Frame.refl s) hsafe hmem
  · rw [Prog.bind_assoc']
    refine safe_confirmedDrifts (fun c hc => hc) (by simp) fun t drifts hst hdrifts => ?_
    rw [Prog.bind_assoc']
    refine SafeAt.send (fun t _ _ ch _ => .idle) fun u _ hu ch _ => ?_
    simp only [SyncdOp.exec]
    rw [Prog.bind_assoc']
    refine safe_failedRemovals ⟨⟨by simp, by simp⟩, by simp⟩ ExtTreeMap.nodup_keys
      fun v removals hv hremovals => ?_
    have hsv := (hst.trans hu).trans hv
    refine hk v _ _ hsv ⟨hsafe.options, ?_, fun drift hdrift => ?_, fun drift hdrift => ?_⟩
      fun c hc => mem_sortById.mpr (List.mem_append_left _ (hmem c hc))
    · refine Repairable.perm ⟨?_, fun c hc => ?_⟩ sortById_perm
      · rw [List.map_append, List.nodup_append]
        refine ⟨hsafe.repairable.nodup, hremovals.repairable.nodup, fun a ha b hb => ?_⟩
        obtain ⟨c, hc, rfl⟩ := List.mem_map.mp ha
        obtain ⟨r, hr, rfl⟩ := List.mem_map.mp hb
        have hfresh := hremovals.fresh r hr
        rcases List.mem_append.mp (hplan.commands.mem_iff.mp hc) with hc | hc
        · exact hfresh.1 c hc
        · obtain ⟨x, hx, rfl⟩ := List.mem_map.mp hc
          exact hfresh.2.1 x (mem_unexpectedOf hx).1
      · rcases List.mem_append.mp hc with hc | hc
        · exact (hsafe.repairable.onward hsv.onward).seen c hc
        · exact hremovals.repairable.seen c hc
    · rcases List.mem_append.mp (mem_sortById.mp hdrift) with hdrift | hdrift
      · exact (hdrifts drift hdrift).1
      · obtain ⟨r, hr, rfl⟩ := List.mem_map.mp hdrift
        exact (hremovals.fresh r hr).2.1
    · apply mem_sortById.mpr
      rcases List.mem_append.mp (mem_sortById.mp hdrift) with hdrift | hdrift
      · exact List.mem_append_left _ (hmem _ (hdrifts drift hdrift).2)
      · obtain ⟨r, hr, rfl⟩ := List.mem_map.mp hdrift
        exact List.mem_append_right _ hr

theorem safe_portDrifts {k : List ConnectionDrift → Service α} {drifts : List ConnectionDrift}
    {all : List ConnectionCommand} (hall : ∀ c ∈ desired, c ∈ all)
    (hdrifts : ∀ drift ∈ drifts, DriftOk actual drift ∧ drift.desired ∈ all)
    (hk : ∀ drifts, (∀ drift ∈ drifts, DriftOk actual drift ∧ drift.desired ∈ all) →
      SafeAt X (k drifts) s) :
    SafeAt X (portDrifts actual drifts desired >>= k) s := by
  induction desired generalizing drifts with
  | nil => exact hk drifts hdrifts
  | cons c rest ih =>
      have hrest : ∀ c ∈ rest, c ∈ all := fun c hc => hall c (List.mem_cons_of_mem _ hc)
      unfold portDrifts
      rw [Prog.bind_assoc']
      refine SafeAt.getState ?_
      split_ifs
      · exact ih hrest hdrifts
      · cases hfind : actual.find? fun connection => connection.id = c.id with
        | none => exact ih hrest hdrifts
        | some x =>
            refine ih hrest fun drift hdrift => ?_
            rcases List.mem_append.mp hdrift with hdrift | hdrift
            · exact hdrifts drift hdrift
            · rw [List.mem_singleton.mp hdrift]
              exact ⟨driftOk_mismatch hfind, hall c (by simp)⟩

theorem calm_recoverFaults (faults : List ((PortDirection × Nat) × PortFault)) :
    Calm (recoverFaults faults) := by
  unfold recoverFaults
  dsimp only
  split_ifs
  · trivial
  · refine ⟨fun entry hentry => ?_, fun _ => trivial⟩
    obtain ⟨fault, -, rfl⟩ := List.mem_map.mp hentry
    rfl

theorem safe_recoverPlan {k : ReconciliationPlan → Service α}
    {faults : List ((PortDirection × Nat) × PortFault)} (hplan : PlanSafe s actual plan)
    (hmem : ∀ c ∈ desired, c ∈ plan.fullSnapshot.commands)
    (hk : ∀ t plan, Near X s t → PlanSafe t actual plan → SafeAt X (k plan) t) :
    SafeAt X (recoverPlan desired actual faults plan >>= k) s := by
  unfold recoverPlan
  split_ifs
  · exact hk s plan (Frame.refl s).near hplan
  · rw [Prog.bind_assoc']
    refine safe_portDrifts hmem (by simp) fun drifts hdrifts => ?_
    split_ifs
    · rw [Prog.bind_assoc']
      refine SafeAt.calm (calm_recoverFaults faults) fun _ t ht => ?_
      exact hk t plan ht (hplan.onward ht.onward)
    · refine hk s _ (Frame.refl s).near ⟨hplan.options, hplan.repairable, fun drift hdrift => ?_,
        fun drift hdrift => ?_⟩
      · exact (hdrifts drift (mem_sortById.mp hdrift)).1
      · exact (hdrifts drift (mem_sortById.mp hdrift)).2

end Plans

/-! ## Reconciliation -/

section Reconciliation

variable {X : Exposure} {α : Type} {s t : World} {actual : List AppliedConnection}
  {plan : ReconciliationPlan} {d e : SimulatedOcsDevice CommandId}

/-- The connections in hand are the ones of the device, unless a port went down. -/
structure Actual (X : Exposure) (w : World) (d e : SimulatedOcsDevice CommandId)
    (actual : List AppliedConnection) : Prop where
  before : X.moves d e
  since : X.moves e w.hwsim
  distinct : (e.getConnections.map (·.id)).Nodup
  effective : UpBetween X d w.hwsim → actual = e.getConnections

theorem Actual.onward (h : Actual X s d e actual) (hst : Onward X s t) : Actual X t d e actual :=
  ⟨h.before, X.trans h.since hst.device, h.distinct, fun hup => h.effective (hup.mono hst.device)⟩

theorem Actual.truthful (h : Actual X s d e actual) {drift : ConnectionDrift}
    (hdrift : DriftOk actual drift) (hup : UpBetween X d s.hwsim)
    (status : ConnectionApplyStatus) :
    Truthful e drift.id { driftedState drift with applyStatus := status } := by
  rw [h.effective hup] at hdrift
  unfold DriftOk at hdrift
  unfold Truthful
  split at hdrift
  · rename_i hkind
    have hnone : found e drift.id = none := by
      simpa [found] using hdrift
    rw [hnone]
    simp [driftedState, hkind]
  · rename_i hkind
    have hsome : found e drift.id = some drift.actual := by
      rw [← hdrift.2]
      exact find?_of_nodup h.distinct hdrift.1
    rw [hsome]
    have hpresent : drift.kind ≠ .missing := by simpa using hkind
    simp [driftedState, hpresent]

theorem safe_replaceReconciliationState {k : Bool → Service α} {command : CommandId}
    {id : String} {phase : ReconciliationPhase} {delta : Int} {state : ConnectionState}
    {event : StateEvent} (hactual : Actual X s d e actual)
    (htrue : ∀ t, Actual X t d e actual → UpBetween X d t.hwsim → Truthful e id state)
    (hid : event.id = .drifted command id ∨ event.id = .reconciling command id)
    (hk : ∀ t b, Onward X s t → SafeAt X (k b) t) :
    SafeAt X (Syncd.send (.replaceStateOnce (.reconciliationStatePublication command id phase)
      delta id (some state) event) >>= k) s := by
  cases hm : s.syncd.hash (.reconciliationStatePublication command id phase) with
  | some marker =>
      refine SafeAt.skip false (fun t hst _ => ?_) (hk s false (Onward.refl s))
      simp only [SyncdOp.exec]
      exact onceSyncd_some (by rw [hst.syncd, hm]; rfl)
  | none =>
      refine SafeAt.write true _
        (fun t hst ch => exec_replaceStateOnce_none (by rw [hst.syncd]; exact hm) ch)
        (fun t _ hst => ?_) fun t _ hst => ?_
      · have ht := hactual.onward hst.onward
        exact .reconciliationState (by rw [hst.syncd]; exact hm) ht.before ht.since
          (fun hup => htrue t ht hup) hid
      · exact hk _ true (hst.onward.trans (onward_publishState (by simp)))

theorem safe_publishDrift {k : Int → Service α} {command : CommandId} {drift : ConnectionDrift}
    {previous : Option ConnectionState} (hactual : Actual X s d e actual)
    (hdrift : DriftOk actual drift) (hk : ∀ t delta, Onward X s t → SafeAt X (k delta) t) :
    SafeAt X (publishDrift command drift previous >>= k) s := by
  unfold publishDrift
  rw [Prog.bind_assoc']
  refine safe_replaceReconciliationState hactual
    (fun t ht hup => ht.truthful hdrift hup .drifted) (.inl rfl) fun t b ht => ?_
  rw [Prog.bind_assoc']
  refine safe_publishedDelta (fun k' h => SafeAt.getHash (h _)) fun delta => ?_
  rw [Prog.bind_assoc']
  refine safe_replaceReconciliationState (hactual.onward ht)
    (fun u hu hup => hu.truthful hdrift hup .reconciling) (.inr rfl) fun u b' hu => ?_
  exact hk u delta (ht.trans hu)

theorem safe_publishDrifts {k : Int → Service α} {command : CommandId} {total : Int}
    {drifts : List ConnectionDrift} (hactual : Actual X s d e actual)
    (hdrifts : ∀ drift ∈ drifts, DriftOk actual drift)
    (hk : ∀ t delta, Onward X s t → SafeAt X (k delta) t) :
    SafeAt X (publishDrifts command total drifts >>= k) s := by
  induction drifts generalizing s total with
  | nil => exact hk s total (Onward.refl s)
  | cons drift rest ih =>
      have hrest : ∀ drift ∈ rest, DriftOk actual drift := fun x hx =>
        hdrifts x (List.mem_cons_of_mem _ hx)
      unfold publishDrifts
      rw [Prog.bind_assoc']
      refine SafeAt.getState ?_
      split_ifs
      · exact ih hactual hrest hk
      · rw [Prog.bind_assoc']
        refine safe_publishDrift hactual (hdrifts drift (by simp)) fun t delta ht => ?_
        exact ih (hactual.onward ht) hrest fun u delta hu => hk u delta (ht.trans hu)

theorem calm_countDriftAlarm (marker : Option AlarmMarker) : Calm (countDriftAlarm marker) := by
  unfold countDriftAlarm
  split
  · exact Calm.raise
  · split_ifs
    · exact calm_countAlarm _ _ _
    · trivial

theorem calm_publishDriftAlarm (command : CommandId) (desiredVersion count : Nat) :
    Calm (publishDriftAlarm command desiredVersion count) := by
  refine Calm.send trivial fun marker => ?_
  cases marker with
  | some marker => exact calm_countDriftAlarm _
  | none =>
      refine Calm.send trivial fun active => ?_
      refine Calm.send trivial fun now => ?_
      refine Calm.send rfl fun _ => ?_
      exact Calm.send trivial fun marker => calm_countDriftAlarm marker

theorem calm_countClearedDriftAlarm (marker : Option AlarmMarker) :
    Calm (countClearedDriftAlarm marker) := by
  cases marker with
  | none => exact Calm.raise
  | some marker => exact calm_countAlarm _ _ _

theorem calm_clearDriftAlarm (command : CommandId) (desiredVersion : Nat) :
    Calm (clearDriftAlarm command desiredVersion) := by
  refine Calm.send trivial fun marker => ?_
  refine Calm.send trivial fun active => ?_
  cases marker with
  | some marker =>
      cases active with
      | none => exact calm_countClearedDriftAlarm _
      | some alarm => exact calm_countClearedDriftAlarm _
  | none =>
      cases active with
      | none => trivial
      | some alarm =>
          refine Calm.send trivial fun now => ?_
          refine Calm.send rfl fun _ => ?_
          exact Calm.send trivial fun marker => calm_countClearedDriftAlarm marker

theorem calm_convergeControl (control : Option ReconciliationControl) :
    Calm (convergeControl control) := by
  unfold convergeControl
  split
  · trivial
  · split_ifs
    · trivial
    · apply (calm_clearDriftAlarm _ _).bind
      intro _
      exact ⟨rfl, fun _ => trivial⟩

theorem calm_associatePortFaults (command : CommandId) : Calm (associatePortFaults command) := by
  apply calm_portFaults.bind
  intro faults
  dsimp only
  split_ifs
  · trivial
  · refine ⟨fun entry hentry => ?_, fun _ => trivial⟩
    obtain ⟨fault, -, rfl⟩ := List.mem_map.mp hentry
    rfl

theorem safe_publishReconciliationState {k : Unit → Service α} {command : CommandId}
    (hactual : Actual X s d e actual) (hplan : PlanSafe s actual plan)
    (hk : ∀ t, Onward X s t → SafeAt X (k ()) t) :
    SafeAt X (publishReconciliationState plan command >>= k) s := by
  unfold publishReconciliationState
  rw [Prog.bind_assoc']
  refine safe_publishDrifts hactual hplan.drifts fun t delta ht => ?_
  rw [Prog.bind_assoc']
  refine SafeAt.calm (p := Syncd.send _) ⟨⟨rfl, rfl⟩, fun _ => trivial⟩ fun _ u hu => ?_
  exact hk u (ht.trans hu.onward)

theorem safe_publishReconciliation {k : Unit → Service α} {info : DeviceInfo}
    {control : ReconciliationControl} (hactual : Actual X s d e actual)
    (hplan : PlanSafe s actual plan) (hopen : plan.converged = false)
    (hname : s.hwsim.info.name = info.name) (hk : ∀ t, Onward X s t → SafeAt X (k ()) t) :
    SafeAt X (publishReconciliation info plan control >>= k) s := by
  unfold publishReconciliation
  rw [Prog.bind_assoc']
  refine SafeAt.calm (calm_associatePortFaults _) fun _ t ht => ?_
  rw [Prog.bind_assoc']
  refine safe_publishReconciliationState (hactual.onward ht.onward) (hplan.onward ht.onward)
    fun u hu => ?_
  rw [Prog.bind_assoc']
  refine SafeAt.calm (calm_publishDriftAlarm _ _ _) fun _ v hv => ?_
  have hsv := (ht.onward.trans hu).trans hv.onward
  rw [Prog.bind_assoc']
  refine SafeAt.write () (fun x => x.markSyncd (.configBatch control.command) _)
    (fun _ _ _ => rfl) (fun x _ _ => .repairBatch (.inr rfl)) fun x _ hx => ?_
  have hsx : Onward X s (x.markSyncd (.configBatch control.command) { plan.fullSnapshot with
      options := { plan.fullSnapshot.options with operationId := some control.command } }) :=
    (hsv.trans hx.onward).trans (onward_mark (by simp))
  generalize x.markSyncd (.configBatch control.command) _ = y at hsx ⊢
  have hlast : ∀ z, Onward X s z → SafeAt X (Syncd.send (.putHash .reconciliation
      { control with status := .published }) >>= k) z := fun z hz =>
    SafeAt.calm (p := Syncd.send _) ⟨rfl, fun _ => trivial⟩ fun _ z' hz' =>
      hk z' (hz.trans hz'.onward)
  rw [Prog.bind_assoc']
  cases hm : y.syncd.hash (.reconciliationCommandPublication control.command) with
  | some marker =>
      refine SafeAt.skip false (fun z hz _ => ?_) (hlast y hsx)
      simp only [SyncdOp.exec]
      exact onceSyncd_some (by rw [hz.syncd, hm]; rfl)
  | none =>
      have hexec : ∀ z, Frame X y z → ∀ ch, (SyncdOp.appendCommandOnce
          (.reconciliationCommandPublication control.command) ()
          (repairEvent control.command (reconciliationRequestId info control) info .reconcile
            control.desiredVersion { plan.fullSnapshot with options :=
              { plan.fullSnapshot.options with operationId := some control.command } })).exec ch z =
          (true, { z with commands := z.commands ++ [repairEvent control.command
            (reconciliationRequestId info control) info .reconcile control.desiredVersion
            { plan.fullSnapshot with options :=
              { plan.fullSnapshot.options with operationId := some control.command } }] }.markSyncd
            (.reconciliationCommandPublication control.command) ()) := by
        intro z hz ch
        simp only [SyncdOp.exec]
        rw [onceSyncd_none (by rw [hz.syncd]; exact hm)]
      refine SafeAt.write true _ hexec (fun z _ hz => ?_) fun z _ hz => ?_
      · have hsz := hsx.trans hz.onward
        refine .reconciliationCommand (by rw [hz.syncd]; exact hm) rfl ?_
        refine (hplan.repairable.onward hsz).repair (hplan.commands_ne_nil hopen)
          (hsz.name.trans hname) ?_
        rw [hplan.options]
        simp
      · refine hlast _ ((hsx.trans hz.onward).trans ?_)
        exact ⟨World.markSyncd_hash_of_ne _ _ _ (by simp), rfl, X.refl _, rfl,
          fun _ => Nat.le_refl _⟩

theorem safe_openReconciliation {k : Unit → Service α} {info : DeviceInfo}
    {portRecovery stateRecovery : Bool} {control : Option ReconciliationControl}
    (hactual : Actual X s d e actual) (hplan : PlanSafe s actual plan)
    (hopen : plan.converged = false) (hname : s.hwsim.info.name = info.name)
    (hk : ∀ t, Onward X s t → SafeAt X (k ()) t) :
    SafeAt X (openReconciliation info plan portRecovery stateRecovery control >>= k) s := by
  unfold openReconciliation
  split
  · split_ifs
    · exact hk s (Onward.refl s)
    · exact safe_publishReconciliation hactual hplan hopen hname hk
  · rw [Prog.bind_assoc']
    refine SafeAt.now fun now => ?_
    dsimp only
    rw [Prog.bind_assoc']
    refine SafeAt.calm (p := Syncd.send _) ⟨rfl, fun _ => trivial⟩ fun _ t ht => ?_
    exact safe_publishReconciliation (hactual.onward ht.onward) (hplan.onward ht.onward) hopen
      (ht.onward.name.trans hname) fun u hu => hk u (ht.onward.trans hu)

theorem safe_reconcilePlan {k : Unit → Service α} {info : DeviceInfo}
    {desired : List ConnectionCommand} (hactual : Actual X s d e actual)
    (hplan : PlanOk desired actual plan) (hmet : Met s desired)
    (hvalid : ∀ c ∈ desired, validCommand c = true ∧ decodeCommand c = c)
    (hseen : ∀ x ∈ actual, Seen s (removal x)) (hname : s.hwsim.info.name = info.name)
    (hk : ∀ t, Onward X s t → SafeAt X (k ()) t) :
    SafeAt X (reconcilePlan info desired actual plan >>= k) s := by
  unfold reconcilePlan
  rw [Prog.bind_assoc']
  refine safe_confirmPlan hplan hmet hvalid hseen fun t plan flag hst hsafe hmem => ?_
  rw [Prog.bind_assoc']
  refine SafeAt.calm calm_portFaults fun faults u hu => ?_
  rw [Prog.bind_assoc']
  refine safe_recoverPlan (hsafe.onward hu.onward) hmem fun v plan hv hsafe => ?_
  rw [Prog.bind_assoc']
  refine SafeAt.getHash ?_
  have hsv := (hst.onward.trans hu.onward).trans hv.onward
  split_ifs with hconverged
  · exact SafeAt.calm (calm_convergeControl _) fun _ x hx => hk x (hsv.trans hx.onward)
  · exact safe_openReconciliation (hactual.onward hsv) hsafe (by simpa using hconverged)
      (hsv.name.trans hname) fun x hx => hk x (hsv.trans hx)

theorem safe_reconcileDevice {k : Unit → Service α} {info : DeviceInfo}
    (hactual : Actual X s d e actual) (hseen : ∀ x ∈ actual, Seen s (removal x))
    (hname : s.hwsim.info.name = info.name) (hk : ∀ t, Onward X s t → SafeAt X (k ()) t) :
    SafeAt X (reconcileDevice info actual >>= k) s := by
  unfold reconcileDevice loadDesiredConnections orchestrationSettled
  rw [Prog.bind_assoc', Prog.bind_assoc']
  refine SafeAt.send (fun t _ _ ch _ => .idle) fun t _ hst ch _ => ?_
  simp only [SyncdOp.exec]
  refine safe_loadDesired (by simp) fun u desired hu hvalid => ?_
  rw [Prog.bind_assoc', Prog.bind_assoc']
  refine SafeAt.send (fun t _ _ ch _ => .idle) fun v _ hv ch _ => ?_
  simp only [SyncdOp.exec]
  refine safe_settled desired (fun c hc => hc) (fun c hc => .inl hc)
    fun x b hx hmet => ?_
  have hsx := ((hst.onward.trans hu.onward).trans hv.onward).trans hx.onward
  split_ifs with hsettled
  · exact hk x hsx
  · cases hplan : buildReconciliationPlan desired actual with
    | error message => exact SafeAt.raise_bind
    | ok plan =>
        exact safe_reconcilePlan (hactual.onward hsx) (buildReconciliationPlan_ok hplan)
          (hmet (by simpa using hsettled)) hvalid (fun x hx => (hseen x hx).onward hsx)
          (hsx.name.trans hname) fun y hy => hk y (hsx.trans hy)

end Reconciliation

/-! ## Polling -/

section Polling

variable {X : Exposure} {α : Type} {s t : World}

theorem calm_recoveryPending (recovery : Option GenerationRecovery) :
    Calm (recoveryPending recovery) := by
  unfold recoveryPending
  split
  · exact ⟨trivial, fun _ => trivial⟩
  · trivial

theorem SafeAt.bind {β : Type} {p : Service β} {k : β → Service α} (hp : SafeAt X p s)
    (hk : ∀ b t, SafeAt X (k b) t) : SafeAt X (p >>= k) s :=
  Safe.bind hp (fun b t _ _ => hk b t) fun _ _ _ _ => trivial

theorem safe_readOrRaise {β : Type} {reply : Except String β} {k : β → Service α}
    (hk : ∀ b, reply = .ok b → SafeAt X (k b) s) : SafeAt X (readOrRaise reply >>= k) s := by
  cases reply with
  | error message => exact SafeAt.raise_bind
  | ok b => exact hk b rfl

theorem readDevice_eq_ok {β : Type} {choice : Nat} {value b : β}
    (h : MiniOcs.readDevice choice value = .ok b) : b = value := by
  unfold MiniOcs.readDevice at h
  split_ifs at h
  cases h
  rfl

theorem seen_sublist (hknown : Known s) {effective : List AppliedConnection}
    (hsub : List.Sublist effective s.hwsim.getConnections) :
    ∀ x ∈ effective, Seen s (removal x) :=
  fun _ hx => seen_removal hknown (hsub.mem hx)

/-- The end of a poll that published something. -/
theorem safe_refreshDeviceState {d : SimulatedOcsDevice CommandId} {count : Nat}
    {state : Option DeviceStateHash} (hd : X.moves d s.hwsim) :
    SafeAt X (refreshDeviceState d.info count state >>= fun _ => (.pure true : Service Bool)) s := by
  have hpublish : SafeAt X (publishDeviceState d.info.generation count .ready Error.success >>=
      fun _ => (.pure true : Service Bool)) s :=
    safe_publishDeviceState (.inl ⟨d, hd, rfl⟩) fun _ _ _ => SafeAt.done true
  unfold refreshDeviceState
  split
  · split_ifs
    · exact SafeAt.done true
    · exact hpublish
  · exact hpublish

theorem onward_remember {name : String} (generation : Nat) (hname : name = s.syncd.deviceName) :
    Onward X s (s.setSyncd { s.syncd with
      deviceName := name
      deviceGeneration := generation }) :=
  ⟨rfl, hname, X.refl _, rfl, fun _ => Nat.le_refl _⟩

theorem safe_reconcileUnlessRecovering {k : Unit → Service α}
    {d e : SimulatedOcsDevice CommandId} {info : DeviceInfo} {effective : List AppliedConnection}
    (hactual : Actual X s d e effective) (hseen : ∀ x ∈ effective, Seen s (removal x))
    (hname : s.hwsim.info.name = info.name) (hk : ∀ t, Onward X s t → SafeAt X (k ()) t) :
    SafeAt X (reconcileUnlessRecovering info effective >>= k) s := by
  unfold reconcileUnlessRecovering
  rw [Prog.bind_assoc']
  refine SafeAt.getHash ?_
  rw [Prog.bind_assoc']
  refine SafeAt.calm (calm_recoveryPending _) fun pending t ht => ?_
  split_ifs
  · exact hk t ht.onward
  · exact safe_reconcileDevice (hactual.onward ht.onward)
      (fun x hx => (hseen x hx).onward ht.onward) (ht.onward.name.trans hname)
      fun u hu => hk u (ht.onward.trans hu)

/-- The poll after the device and its ports were read. `d` told its name and generation, `e`
its connections. -/
theorem safe_refreshConnections {k : Unit → Service α} {d e : SimulatedOcsDevice CommandId}
    {effective : List AppliedConnection} (hactual : Actual X s d e effective)
    (heffective : ∀ x ∈ effective, Seen s (removal x))
    (hconnections : ∀ x ∈ e.getConnections, Seen s (removal x))
    (hname : s.hwsim.info.name = d.info.name) (hk : ∀ t, Onward X s t → SafeAt X (k ()) t) :
    SafeAt X (refreshConnections d.info e.getConnections effective
      (s.syncd.hash .deviceState) >>= k) s := by
  unfold refreshConnections
  split_ifs with hgeneration
  · exact safe_reconcileUnlessRecovering hactual heffective hname hk
  · exact safe_scheduleGenerationRecovery
      ⟨d, X.trans hactual.before hactual.since, rfl, by simpa using hgeneration⟩ hname
      hactual.distinct hconnections hk

theorem safe_pollConnected (hname : s.syncd.deviceName ≠ "") : SafeAt X pollConnected s := by
  unfold pollConnected
  refine SafeAt.send (fun t _ _ ch _ => .idle) fun t _ hst ch _ => ?_
  simp only [SyncdOp.exec]
  refine safe_readOrRaise fun info hinfo => ?_
  cases readDevice_eq_ok hinfo
  refine SafeAt.readMemory ?_
  rw [hst.syncd]
  split_ifs with hother
  · exact SafeAt.raise
  · have hsame : t.hwsim.info.name = s.syncd.deviceName := by
      simpa [hname] using hother
    refine SafeAt.send (fun u _ _ ch _ => .idle) fun u hknown htu ch _ => ?_
    simp only [SyncdOp.exec]
    refine safe_readOrRaise fun actual hactual => ?_
    cases readDevice_eq_ok hactual
    refine safe_pollPortStates htu.device fun v effective huv hsub heff => ?_
    refine SafeAt.getHash ?_
    have htv : Onward X t v := htu.onward.trans huv.onward
    have hsv : Onward X s v := hst.onward.trans htv
    refine SafeAt.write () (fun x => x.setSyncd { x.syncd with
        deviceName := t.hwsim.info.name
        deviceGeneration := t.hwsim.info.generation }) (fun _ _ _ => rfl) (fun x _ hx => ?_)
      fun x _ hx => ?_
    · refine .remember (X.trans htv.device hx.device) rfl rfl (.inl ?_)
      rw [hx.syncd, hsv.deviceName]
      exact hname
    · have hmemory : t.hwsim.info.name = x.syncd.deviceName := by
        rw [hx.syncd, hsv.deviceName]
        exact hsame
      have hvy := hx.onward.trans (onward_remember (X := X)
        t.hwsim.info.generation hmemory)
      generalize x.setSyncd _ = y at hvy ⊢
      have hact : Actual X y t.hwsim u.hwsim effective :=
        ⟨htu.device, (huv.onward.trans hvy).device, hknown.distinct,
          fun hup => heff (hup.mono hvy.device)⟩
      rw [← hvy.deviceState]
      refine safe_refreshConnections hact
        (fun c hc => (seen_sublist hknown hsub c hc).onward (huv.onward.trans hvy))
        (fun c hc => (seen_removal hknown hc).onward (huv.onward.trans hvy))
        (htv.trans hvy).name fun z hz => ?_
      exact safe_refreshDeviceState ((htv.trans hvy).trans hz).device

theorem safe_pollFailed {error : Raised} : SafeAt X (pollFailed error) s := by
  unfold pollFailed
  refine SafeAt.readMemory ?_
  split_ifs with hempty
  · exact SafeAt.done false
  · refine SafeAt.getHash ?_
    have hpublish : ∀ count error, SafeAt X (publishDeviceState s.syncd.deviceGeneration count
        .failed error >>= fun _ => (.pure false : Service Bool)) s := fun count error =>
      safe_publishDeviceState (.inr ⟨hempty, rfl⟩) fun _ _ _ => SafeAt.done false
    unfold publishUnavailable
    split
    · exact SafeAt.done false
    · exact hpublish _ _
    · exact hpublish _ _

theorem safe_pollDevice (hname : s.syncd.deviceName ≠ "") : SafeAt X pollDevice s := by
  unfold pollDevice
  refine Safe.tryCatch (safe_pollConnected hname) (fun _ _ _ _ => trivial) fun e t _ _ => ?_
  exact safe_pollFailed

/-! ## Start -/

theorem safe_initializeDeviceState {k : Unit → Service α} {d e : SimulatedOcsDevice CommandId}
    (hactual : Actual X s d e e.getConnections)
    (hseen : ∀ x ∈ e.getConnections, Seen s (removal x))
    (hname : s.hwsim.info.name = d.info.name)
    (hk : ∀ t, (t.syncd.hash .deviceState).isSome → X.moves d t.hwsim → SafeAt X (k ()) t) :
    SafeAt X (initializeDeviceState d.info e.getConnections (s.syncd.hash .deviceState) >>= k)
      s := by
  have hd : X.moves d s.hwsim := X.trans hactual.before hactual.since
  have hpublish : ∀ t count, X.moves d t.hwsim → SafeAt X (publishDeviceState d.info.generation
      count .ready Error.success >>= k) t := fun t count ht =>
    safe_publishDeviceState (.inl ⟨d, ht, rfl⟩) fun u hu htu => hk u hu (X.trans ht htu)
  unfold initializeDeviceState
  cases hstate : s.syncd.hash .deviceState with
  | none =>
      refine SafeAt.write () (fun t => t.markSyncd .deviceState _) (fun _ _ _ => rfl)
        (fun t _ hst => ?_) fun t _ hst => ?_
      · exact .deviceState (X.trans hd hst.device) (.inl rfl) (asideOnly_refl _)
      · apply hk
        · rw [World.markSyncd_hash_self]
          rfl
        · exact X.trans hd hst.device
  | some state =>
      dsimp only
      split_ifs with hgeneration hready
      · rw [Prog.bind_assoc']
        refine safe_scheduleGenerationRecovery ⟨d, hd, rfl, ?_⟩ hname hactual.distinct hseen
          fun t hst => hpublish t _ (X.trans hd hst.device)
        rw [hstate]
        simpa [sameGeneration] using hgeneration
      · exact hpublish s _ hd
      · refine hk s ?_ hd
        rw [hstate]
        rfl

theorem safe_initializeService : SafeAt X initializeService s := by
  unfold initializeService
  refine SafeAt.send (fun t _ _ ch _ => .idle) fun t _ hst ch _ => ?_
  simp only [SyncdOp.exec]
  refine safe_readOrRaise fun info hinfo => ?_
  cases readDevice_eq_ok hinfo
  refine SafeAt.send (fun u _ _ ch _ => .idle) fun u hknown htu ch _ => ?_
  simp only [SyncdOp.exec]
  refine safe_readOrRaise fun actual hactual => ?_
  cases readDevice_eq_ok hactual
  refine safe_pollPortStates htu.device fun v effective huv hsub heff => ?_
  refine SafeAt.getHash ?_
  have htv : Onward X t v := htu.onward.trans huv.onward
  refine safe_initializeDeviceState ⟨htu.device, huv.device, hknown.distinct, fun _ => rfl⟩
    (fun c hc => (seen_removal hknown hc).onward huv.onward) htv.name fun x hx hdx => ?_
  refine SafeAt.write () (fun y => y.setSyncd { y.syncd with
      deviceName := t.hwsim.info.name
      deviceGeneration := t.hwsim.info.generation }) (fun _ _ _ => rfl) (fun y _ hy => ?_)
    fun y _ _ => SafeAt.done true
  exact .remember (X.trans hdx hy.device) rfl rfl (.inr (by rw [hy.syncd]; exact hx))

end Polling

end MiniOcs.Syncd
