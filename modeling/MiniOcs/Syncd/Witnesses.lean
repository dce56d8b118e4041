import MiniOcs.Concurrent.Chronicle
import MiniOcs.Provenance
import MiniOcs.Syncd.Service

/-!
# Successes and the moments that bear them out

A success that the command handler stores stands for a moment at which the device had what the
batch asks for, after the attempt was recorded. The device may answer from its memory, and the
link may lose any reply; the moment then lies further back.
-/
namespace MiniOcs.Syncd
open Std Concurrent

/-! ## What a batch asks for -/

/-- The device has every upsert of the batch as it is, and nothing that the batch removes. -/
structure InEffect (d : SimulatedOcsDevice CommandId) (commands : List ConnectionCommand) :
    Prop where
  upserts : ∀ c ∈ commands, c.operation = .upsert → d.connections[c.id]? = some (made c)
  removes : ∀ c ∈ commands, c.operation = .remove → d.connections[c.id]? = none

/-- The result has an entry for every upsert. -/
def Lists (commands : List ConnectionCommand) (result : ApplyResult) : Prop :=
  ∀ c ∈ commands, c.operation = .upsert →
    (result.connections.find? fun item => item.id = c.id) = some (made c)

def Distinct (commands : List ConnectionCommand) : Prop := (commands.map (·.id)).Nodup

theorem Distinct.eq {commands : List ConnectionCommand} (h : Distinct commands)
    {c c' : ConnectionCommand} (hc : c ∈ commands) (hc' : c' ∈ commands) (hid : c.id = c'.id) :
    c = c' := List.inj_on_of_nodup_map h hc hc' hid

section Device

variable {d : SimulatedOcsDevice CommandId} {commands : List ConnectionCommand}

theorem getElem?_foldCommands_removed {c : ConnectionCommand} (hop : c.operation = .remove)
    {batch : List ConnectionCommand} (hall : ∀ c' ∈ batch, c'.id = c.id → c' = c)
    {table : ExtTreeMap String AppliedConnection} (h : table[c.id]? = none ∨ c ∈ batch) :
    (foldCommands table batch)[c.id]? = none := by
  induction batch generalizing table with
  | nil =>
      rcases h with h | h
      · exact h
      · cases h
  | cons c' rest ih =>
      refine ih (fun b hb => hall b (List.mem_cons_of_mem _ hb)) ?_
      rw [getElem?_editCommand]
      by_cases hid : c'.id = c.id
      · have heq := hall c' List.mem_cons_self hid
        subst heq
        simp [hop]
      · rw [if_neg hid]
        refine h.imp_right fun hmem => ?_
        rcases List.mem_cons.mp hmem with rfl | hmem
        · exact absurd rfl hid
        · exact hmem

/-- A list without other entries of the ids has the wanted entry of every upsert. -/
theorem lists_of_mem {connections : List AppliedConnection}
    (hmem : ∀ c ∈ commands, c.operation = .upsert → made c ∈ connections)
    (honly : ∀ c ∈ commands, c.operation = .upsert → ∀ x ∈ connections, x.id = c.id → x = made c)
    (error : Error) : Lists commands ⟨error, connections⟩ := by
  intro c hc hop
  cases hfind : connections.find? fun item => item.id = c.id with
  | none =>
      have hnone := List.find?_eq_none.mp hfind (made c) (hmem c hc hop)
      exact absurd (decide_eq_true rfl) hnone
  | some x =>
      have hid : x.id = c.id := by simpa using List.find?_some hfind
      rw [honly c hc hop x (List.mem_of_find?_eq_some hfind) hid]

theorem find?_getConnections (h : SimulatedOcsDevice.Coherent d) (id : String) :
    (d.getConnections.find? fun connection => connection.id = id) = d.connections[id]? := by
  unfold SimulatedOcsDevice.getConnections
  cases hfind : (d.connections.toList.map Prod.snd).find? fun connection => connection.id = id with
  | some x =>
      have hid : x.id = id := by simpa using List.find?_some hfind
      obtain ⟨id', hget⟩ := SimulatedOcsDevice.mem_getConnections.mp
        (List.mem_of_find?_eq_some hfind)
      rw [← hid, (h.keyed id' x hget).1, hget]
  | none =>
      cases hget : d.connections[id]? with
      | none => rfl
      | some x =>
          have hmem := SimulatedOcsDevice.mem_getConnections.mpr ⟨id, hget⟩
          have hnone := List.find?_eq_none.mp hfind x hmem
          exact absurd (decide_eq_true (h.keyed id x hget).1) hnone

theorem inEffect_fold (hdistinct : Distinct commands)
    (hconnections : d.connections = foldCommands table commands) :
    InEffect d commands := by
  have hall : ∀ c ∈ commands, ∀ c' ∈ commands, c'.id = c.id → c' = c :=
    fun c hc c' hc' hid => hdistinct.eq hc' hc hid
  refine ⟨fun c hc hop => ?_, fun c hc hop => ?_⟩
  · rw [hconnections]
    exact getElem?_foldCommands_definite hop (hall c hc) (.inr hc)
  · rw [hconnections]
    exact getElem?_foldCommands_removed hop (hall c hc) (.inr hc)

/-- What the device reports of the changed connections. -/
theorem lists_changed (hdistinct : Distinct commands) (h : InEffect d commands) (error : Error) :
    Lists commands ⟨error, SimulatedOcsDevice.changedConnections d.connections commands⟩ := by
  refine lists_of_mem (fun c hc hop => ?_) (fun c hc hop x hx hid => ?_) error
  · exact List.mem_filterMap.mpr ⟨c, hc, h.upserts c hc hop⟩
  · obtain ⟨c', hc', hget⟩ := List.mem_filterMap.mp hx
    cases hop' : c'.operation with
    | remove =>
        rw [h.removes c' hc' hop'] at hget
        cases hget
    | upsert =>
        rw [h.upserts c' hc' hop'] at hget
        cases hget
        rw [hdistinct.eq hc' hc hid]

open SimulatedOcsDevice in
/-- A batch that succeeds now is in effect on the device that it leaves. -/
theorem inEffect_of_outcome {options : ApplyOptions CommandId}
    {r : ApplyResult × SimulatedOcsDevice CommandId} (h : Outcome d commands options r)
    (hok : r.1.isOk = true) (hdistinct : Distinct commands) :
    InEffect r.2 commands ∧ Lists commands r.1 := by
  cases h with
  | refused herror _ =>
      rw [finish_fst] at hok
      exact absurd hok (by simpa [ApplyResult.isOk] using herror)
  | injected herror _ _ _ =>
      rw [finish_fst] at hok
      exact absurd hok (by simpa [ApplyResult.isOk] using herror)
  | @applied copies _ _ _ _ =>
      have hsame := (d.commit commands copies).finish_same options
        ⟨Error.success, changedConnections (foldCommands d.connections commands) commands⟩
      have heffect := inEffect_fold hdistinct hsame.connections
      refine ⟨heffect, ?_⟩
      have hlists := lists_changed hdistinct heffect Error.success
      rw [hsame.connections] at hlists
      rw [finish_fst]
      exact hlists

end Device

/-! ## Moments -/

def AttemptMade (w : World) (id : CommandId) : Prop := (w.syncd.hash (.applyAttempt id)).isSome

def Success (w : World) (id : CommandId) (stored : StoredResult) : Prop :=
  w.syncd.hash (.applyResult id) = some stored ∧ stored.result.isOk = true

/-- The command was recorded as attempted and its batch was in effect, at one of the moments. -/
def HeldAt (moments : List World) (event : CommandEvent) (commands : List ConnectionCommand) :
    Prop :=
  ∃ m ∈ moments, AttemptMade m event.id ∧ InEffect m.hwsim commands

/-- A success of the command is complete, and one of the moments bears it out. -/
def BornOut (moments : List World) (event : CommandEvent) (result : ApplyResult) : Prop :=
  ∃ batch, decodeDeviceCommand event.payload = .ok batch ∧
    (Distinct batch.commands → Lists batch.commands result ∧ HeldAt moments event batch.commands)

def Proven (commands : List CommandEvent) (moments : List World) (id : CommandId)
    (result : ApplyResult) : Prop :=
  result.isOk = true → ∃ event ∈ commands, event.id = id ∧ BornOut moments event result

/-- What a state says is applied. -/
def appliedOf (state : ConnectionState) : AppliedConnection where
  id := state.id
  inputPort := state.inputPort
  outputPort := state.outputPort
  appliedVersion := state.appliedVersion

/-- A state that a command published as active is the one its batch asks for, and a success was
stored for the command before. -/
def StateProven (commands : List CommandEvent) (moments : List World) (e : StateEvent) : Prop :=
  ∀ id member state, e.id = .command id member → e.connection = some state →
    state.applyStatus = .active → ∃ event ∈ commands, event.id = id ∧
      (∃ u ∈ moments, ∃ stored, Success u id stored) ∧
      ∃ batch, decodeDeviceCommand event.payload = .ok batch ∧ ∃ c ∈ batch.commands,
        c.operation = .upsert ∧ c.id = member ∧
          (Distinct batch.commands → appliedOf state = made c)

section Growing

variable {commands commands' : List CommandEvent} {moments moments' : List World}

theorem HeldAt.mono {event : CommandEvent} {batch : List ConnectionCommand}
    (h : HeldAt moments event batch) (hsub : moments ⊆ moments') : HeldAt moments' event batch := by
  obtain ⟨m, hm, hheld⟩ := h
  exact ⟨m, hsub hm, hheld⟩

theorem BornOut.mono {event : CommandEvent} {result : ApplyResult}
    (h : BornOut moments event result) (hsub : moments ⊆ moments') :
    BornOut moments' event result := by
  obtain ⟨batch, hdecode, hborn⟩ := h
  exact ⟨batch, hdecode, fun hdistinct => ⟨(hborn hdistinct).1, (hborn hdistinct).2.mono hsub⟩⟩

theorem Proven.mono {id : CommandId} {result : ApplyResult} (h : Proven commands moments id result)
    (hcommands : commands ⊆ commands') (hmoments : moments ⊆ moments') :
    Proven commands' moments' id result := by
  intro hok
  obtain ⟨event, hmem, hid, hborn⟩ := h hok
  exact ⟨event, hcommands hmem, hid, hborn.mono hmoments⟩

theorem StateProven.mono {e : StateEvent} (h : StateProven commands moments e)
    (hcommands : commands ⊆ commands') (hmoments : moments ⊆ moments') :
    StateProven commands' moments' e := by
  intro id member state hid hconnection hactive
  obtain ⟨event, hmem, heq, ⟨u, hu, hstored⟩, hclaim⟩ := h id member state hid hconnection hactive
  exact ⟨event, hcommands hmem, heq, ⟨u, hmoments hu, hstored⟩, hclaim⟩

end Growing

/-! ## The invariant -/

structure Faithful (h : Chronicle World) : Prop where
  commands : (h.now.commands.map (·.id)).Nodup
  sound : h.now.hwsim.Sound
  cached : ∀ id result, h.now.hwsim.applyResults.lookup id = some result →
    Proven h.now.commands h.moments id result
  /-- What was stored at any moment is borne out by the moments before. -/
  stored : ∀ u us, u :: us <:+ h.moments → ∀ id stored,
    u.syncd.hash (.applyResult id) = some stored → Proven h.now.commands us id stored.result
  states : ∀ e ∈ h.now.syncd.stateEvents, StateProven h.now.commands h.moments e

/-- What only grows: the history, the commands, and the records of attempts and results. -/
structure Grown (h h' : Chronicle World) : Prop where
  later : h.Later h'
  commands : h.now.commands ⊆ h'.now.commands
  attempts : ∀ id, AttemptMade h.now id → AttemptMade h'.now id
  results : ∀ id, (h.now.syncd.hash (.applyResult id)).isSome →
    (h'.now.syncd.hash (.applyResult id)).isSome

theorem Grown.refl (h : Chronicle World) : Grown h h :=
  ⟨.refl h, List.Subset.refl _, fun _ ha => ha, fun _ hr => hr⟩

theorem Grown.trans {a b c : Chronicle World} (h : Grown a b) (h' : Grown b c) : Grown a c :=
  ⟨h.later.trans h'.later, List.Subset.trans h.commands h'.commands,
    fun id ha => h'.attempts id (h.attempts id ha), fun id hr => h'.results id (h.results id hr)⟩

/-- A step of the world that keeps the invariant. -/
structure Extends (h : Chronicle World) (t : World) : Prop where
  commands : h.now.commands ⊆ t.commands
  nodup : (t.commands.map (·.id)).Nodup
  sound : t.hwsim.Sound
  cached : ∀ id result, t.hwsim.applyResults.lookup id = some result →
    Proven t.commands (t :: h.moments) id result
  attempts : ∀ id, AttemptMade h.now id → AttemptMade t id
  kept : ∀ id, (h.now.syncd.hash (.applyResult id)).isSome →
    (t.syncd.hash (.applyResult id)).isSome
  results : ∀ id stored, t.syncd.hash (.applyResult id) = some stored →
    Proven t.commands h.moments id stored.result
  states : ∀ e ∈ t.syncd.stateEvents, StateProven t.commands (t :: h.moments) e

theorem Extends.faithful {h : Chronicle World} {t : World} (H : Faithful h) (E : Extends h t) :
    Faithful (h.next t) := by
  refine ⟨E.nodup, E.sound, E.cached, fun u us hsuffix id stored hget => ?_, E.states⟩
  rcases List.suffix_cons_iff.mp hsuffix with heq | hsuffix
  · cases heq
    exact E.results id stored hget
  · exact (H.stored u us hsuffix id stored hget).mono E.commands (List.Subset.refl _)

theorem Extends.grown {h : Chronicle World} {t : World} (E : Extends h t) : Grown h (h.next t) :=
  ⟨h.later_next t, E.commands, E.attempts, E.kept⟩

/-- A success that was stored has a moment before it was: the attempt was recorded, the batch in
effect, and the success not stored yet. -/
theorem Faithful.moment {h : Chronicle World} (H : Faithful h) {event : CommandEvent}
    (hmem : event ∈ h.now.commands) {batch : DeviceCommandBatch}
    (hdecode : decodeDeviceCommand event.payload = .ok batch)
    (hdistinct : Distinct batch.commands) {stored : StoredResult} {u : World} {us : List World}
    (hsuffix : u :: us <:+ h.moments) (hsuccess : Success u event.id stored) :
    Lists batch.commands stored.result ∧ ∃ m ∈ us, AttemptMade m event.id ∧
      m.syncd.hash (.applyResult event.id) ≠ some stored ∧ InEffect m.hwsim batch.commands := by
  have hborn : ∀ {u : World} {us : List World}, u :: us <:+ h.moments →
      Success u event.id stored →
      Lists batch.commands stored.result ∧ HeldAt us event batch.commands := by
    intro u us hsuffix hsuccess
    obtain ⟨event', hmem', hid, batch', hdecode', hborn⟩ :=
      H.stored u us hsuffix event.id stored hsuccess.1 hsuccess.2
    cases List.inj_on_of_nodup_map H.commands hmem' hmem hid
    rw [hdecode] at hdecode'
    cases hdecode'
    exact hborn hdistinct
  refine ⟨(hborn hsuffix hsuccess).1, ?_⟩
  -- a moment at which the success is stored already has one before it
  induction hlen : us.length using Nat.strong_induction_on generalizing u us with
  | _ n ih =>
      obtain ⟨-, m, hm, hattempt, heffect⟩ := hborn hsuffix hsuccess
      by_cases hstored : m.syncd.hash (.applyResult event.id) = some stored
      · obtain ⟨before, after, rfl⟩ := List.append_of_mem hm
        have hshorter : m :: after <:+ h.moments :=
          List.IsSuffix.trans (List.suffix_append (u :: before) (m :: after)) hsuffix
        have hlt : after.length < n := by
          rw [← hlen]
          simp only [List.length_append, List.length_cons]
          omega
        obtain ⟨m', hm', hrest⟩ := ih _ hlt hshorter ⟨hstored, hsuccess.2⟩ rfl
        exact ⟨m', by simp [hm'], hrest⟩
      · exact ⟨m, hm, hattempt, hstored, heffect⟩

/-! ## What the command handler may do -/

/-- The exception of a success without an entry for a member. -/
def omittedConnection : Raised :=
  .runtimeError "successful device apply omitted connection result"

def ResultOk (h : Chronicle World) : (k : SyncdKey) → SyncdHash k → Prop
  | .applyResult id, stored => Proven h.now.commands h.moments id stored.result
  | _, _ => True

def HandlerAsks (h : Chronicle World) : Op → Prop
  | .orch _ => False
  | .syncd o => match o with
    | .putHash k v => ResultOk h k v
    | .putHashIfAbsent k v => ResultOk h k v
    | .putHashesAtomically entries => ∀ entry ∈ entries, ResultOk h entry.1 entry.2
    | .replaceStateOnce marker fields _ _ event =>
        ResultOk h marker fields ∧ StateProven h.now.commands h.moments event
    | .appendResultOnce marker fields _ => ResultOk h marker fields
    | .incrementOnce marker fields _ => ResultOk h marker fields
    | .applyConnections commands options => ∃ event ∈ h.now.commands,
        options.operationId = some event.id ∧ AttemptMade h.now event.id ∧
          ∃ batch, decodeDeviceCommand event.payload = .ok batch ∧ batch.commands = commands
    | .raise e => e = omittedConnection → ∃ event ∈ h.now.commands, ∃ batch,
        decodeDeviceCommand event.payload = .ok batch ∧ ¬Distinct batch.commands
    | .replaceHashAndAppendEvent _ _ _ | .replaceAlarmOnce _ _ _ _ _ | .appendCommandOnce _ _ _ =>
        False
    | _ => True

section Operations

variable {h : Chronicle World} {t : World}

/-- The records of attempts and results after some writes. -/
structure HashGrown (h : Chronicle World) (t : World) : Prop where
  attempts : ∀ id, AttemptMade h.now id → AttemptMade t id
  kept : ∀ id, (h.now.syncd.hash (.applyResult id)).isSome →
    (t.syncd.hash (.applyResult id)).isSome
  results : ∀ id stored, t.syncd.hash (.applyResult id) = some stored →
    Proven h.now.commands h.moments id stored.result

theorem Faithful.proven_now (H : Faithful h) {id : CommandId} {stored : StoredResult}
    (hget : h.now.syncd.hash (.applyResult id) = some stored) :
    Proven h.now.commands h.moments id stored.result :=
  (H.stored h.now h.past (List.suffix_refl _) id stored hget).mono (List.Subset.refl _)
    (List.subset_cons_self _ _)

theorem HashGrown.of_eq (H : Faithful h) (hhash : t.syncd.hash = h.now.syncd.hash) :
    HashGrown h t := by
  refine ⟨fun id ha => ?_, fun id hr => ?_, fun id stored hget => ?_⟩
  · unfold AttemptMade
    rw [hhash]
    exact ha
  · rw [hhash]
    exact hr
  · rw [hhash] at hget
    exact H.proven_now hget

theorem HashGrown.mark (G : HashGrown h t) {k : SyncdKey} {v : SyncdHash k} (hok : ResultOk h k v) :
    HashGrown h (t.markSyncd k v) := by
  have hsome : ∀ k' : SyncdKey, (t.syncd.hash k').isSome →
      ((t.markSyncd k v).syncd.hash k').isSome := by
    intro k' hk'
    by_cases hk : k' = k
    · subst hk
      rw [World.markSyncd_hash_self]
      rfl
    · rw [World.markSyncd_hash_of_ne _ _ _ hk]
      exact hk'
  refine ⟨fun id ha => hsome _ (G.attempts id ha), fun id hr => hsome _ (G.kept id hr),
    fun id stored hget => ?_⟩
  by_cases hk : SyncdKey.applyResult id = k
  · subst hk
    rw [World.markSyncd_hash_self] at hget
    cases hget
    exact hok
  · rw [World.markSyncd_hash_of_ne _ _ _ hk] at hget
    exact G.results id stored hget

theorem HashGrown.putEntries (G : HashGrown h t) {entries : List SyncdEntry}
    (hok : ∀ entry ∈ entries, ResultOk h entry.1 entry.2) : HashGrown h (t.putEntries entries) := by
  induction entries generalizing t with
  | nil => exact G
  | cons entry rest ih =>
      rw [putEntries_cons]
      exact ih (G.mark (hok entry List.mem_cons_self))
        fun e he => hok e (List.mem_cons_of_mem _ he)

/-- Writes that leave the commands and the device alone. -/
theorem HashGrown.extends (G : HashGrown h t) (H : Faithful h)
    (hcommands : t.commands = h.now.commands) (hdevice : t.hwsim = h.now.hwsim)
    (hstates : ∀ e ∈ t.syncd.stateEvents, e ∈ h.now.syncd.stateEvents ∨
      StateProven h.now.commands h.moments e) : Extends h t := by
  refine ⟨by rw [hcommands]; exact List.Subset.refl _, by rw [hcommands]; exact H.commands,
    by rw [hdevice]; exact H.sound, fun id result hget => ?_, G.attempts, G.kept,
    by rw [hcommands]; exact G.results, fun e he => ?_⟩
  · rw [hdevice] at hget
    rw [hcommands]
    exact (H.cached id result hget).mono (List.Subset.refl _) (List.subset_cons_self _ _)
  · rw [hcommands]
    rcases hstates e he with hold | hnew
    · exact (H.states e hold).mono (List.Subset.refl _) (List.subset_cons_self _ _)
    · exact hnew.mono (List.Subset.refl _) (List.subset_cons_self _ _)

/-- A step that does not touch what the invariant is about. -/
theorem Faithful.idle (H : Faithful h) (hcommands : t.commands = h.now.commands)
    (hdevice : t.hwsim = h.now.hwsim) (hhash : t.syncd.hash = h.now.syncd.hash)
    (hstates : t.syncd.stateEvents = h.now.syncd.stateEvents) : Extends h t :=
  (HashGrown.of_eq H hhash).extends H hcommands hdevice fun _ he => .inl (hstates ▸ he)

/-- A success arrives only when nothing was lost. -/
theorem applyOverLink_success {d : SimulatedOcsDevice CommandId} {commands : List ConnectionCommand}
    {options : ApplyOptions CommandId} {r : ApplyResult × SimulatedOcsDevice CommandId}
    (hr : d.applyConnections commands options = .ok r) {choice : Nat} {result : ApplyResult}
    (hreply : (applyOverLink choice d commands options).1 = .ok result)
    (hok : result.isOk = true) :
    result = r.1 ∧ (applyOverLink choice d commands options).2 = r.2 := by
  unfold applyOverLink at hreply ⊢
  rw [hr] at hreply ⊢
  rcases choice with _ | _ | _ | _ | _ | _
  · cases hreply
    exact ⟨rfl, rfl⟩
  all_goals
    cases hreply
    try exact absurd hok (by decide)

/-- A request that the device answers now or from its memory. -/
theorem Faithful.apply (H : Faithful h) {event : CommandEvent} (hmem : event ∈ h.now.commands)
    {options : ApplyOptions CommandId} (hop : options.operationId = some event.id)
    (hattempt : AttemptMade h.now event.id) {batch : DeviceCommandBatch}
    (hdecode : decodeDeviceCommand event.payload = .ok batch) (choice : Nat) :
    Extends h { h.now with
        hwsim := (applyOverLink choice h.now.hwsim batch.commands options).2 } ∧
      ∀ result, (applyOverLink choice h.now.hwsim batch.commands options).1 = .ok result →
        Proven h.now.commands ({ h.now with
          hwsim := (applyOverLink choice h.now.hwsim batch.commands options).2 } :: h.moments)
          event.id result := by
  obtain ⟨r, hr, hsound⟩ := H.sound.applyConnections batch.commands options
  have hdevice := (applyOverLink_cases hr choice).1
  have hreply : ∀ result, (applyOverLink choice h.now.hwsim batch.commands options).1 =
      .ok result → result.isOk = true → result = r.1 ∧
        (applyOverLink choice h.now.hwsim batch.commands options).2 = r.2 :=
    fun result => applyOverLink_success hr
  generalize applyOverLink choice h.now.hwsim batch.commands options = link at *
  have hmoments : h.moments ⊆ { h.now with hwsim := link.2 } :: h.moments :=
    List.subset_cons_self _ _
  have hold : ∀ id result, h.now.hwsim.applyResults.lookup id = some result →
      Proven h.now.commands ({ h.now with hwsim := link.2 } :: h.moments) id result :=
    fun id result hget => (H.cached id result hget).mono (List.Subset.refl _) hmoments
  -- a success is remembered, or in effect on the device that it leaves
  have hcases : (h.now.hwsim.cachedResult options = some r.1 ∧ r.2 = h.now.hwsim) ∨
      SimulatedOcsDevice.Outcome h.now.hwsim batch.commands options r := by
    cases hcached : h.now.hwsim.cachedResult options with
    | some cached =>
        simp only [SimulatedOcsDevice.applyConnections, hcached, Except.ok.injEq] at hr
        subst hr
        exact .inl ⟨rfl, rfl⟩
    | none =>
        obtain ⟨r', hr', hout⟩ := H.sound.outcome batch.commands hcached
        rw [hr] at hr'
        cases hr'
        exact .inr hout
  have hproven : link.2 = r.2 → Proven h.now.commands
      ({ h.now with hwsim := link.2 } :: h.moments) event.id r.1 := by
    intro heq
    rcases hcases with ⟨hcached, -⟩ | hout
    · rw [SimulatedOcsDevice.cachedResult, hop] at hcached
      exact hold event.id r.1 hcached
    · intro hok
      refine ⟨event, hmem, rfl, batch, hdecode, fun hdistinct => ?_⟩
      obtain ⟨heffect, hlists⟩ := inEffect_of_outcome hout hok hdistinct
      exact ⟨hlists, _, List.mem_cons_self, hattempt, heq ▸ heffect⟩
  refine ⟨⟨List.Subset.refl _, H.commands, ?_, fun id result hget => ?_, fun _ ha => ha,
    fun _ hkept => hkept, fun id stored hget => H.proven_now hget, fun e he => ?_⟩,
    fun result hresult hok => ?_⟩
  · rcases hdevice with heq | heq
    · exact heq ▸ H.sound
    · exact heq ▸ hsound
  · change link.2.applyResults.lookup id = some result at hget
    rcases hdevice with heq | heq
    · rw [heq] at hget
      exact hold id result hget
    · rw [heq] at hget
      rcases hcases with ⟨-, hsame⟩ | hout
      · rw [hsame] at hget
        exact hold id result hget
      · rcases hout.lookup hget with ⟨hid, rfl⟩ | hget
        · rw [hop] at hid
          cases hid
          exact hproven heq
        · exact hold id result hget
  · exact (H.states e he).mono (List.Subset.refl _) hmoments
  · obtain ⟨rfl, heq⟩ := hreply result hresult hok
    exact hproven heq hok

/-- A block behind a marker. -/
theorem Faithful.once (H : Faithful h) {k : SyncdKey} {v : SyncdHash k} (hok : ResultOk h k v)
    {write : World → World} (hcommands : (write h.now).commands = h.now.commands)
    (hdevice : (write h.now).hwsim = h.now.hwsim)
    (hhash : (write h.now).syncd.hash = h.now.syncd.hash)
    (hstates : ∀ e ∈ (write h.now).syncd.stateEvents, e ∈ h.now.syncd.stateEvents ∨
      StateProven h.now.commands h.moments e) : Extends h (h.now.onceSyncd k v write).2 := by
  unfold World.onceSyncd
  split_ifs
  · exact H.idle rfl rfl rfl rfl
  · exact ((HashGrown.of_eq H hhash).mark hok).extends H hcommands hdevice hstates

theorem Faithful.exec (H : Faithful h) {o : SyncdOp} (ha : HandlerAsks h (.syncd o))
    (choice : Nat) : Extends h (o.exec choice h.now).2 := by
  have G : HashGrown h h.now := HashGrown.of_eq H rfl
  cases o with
  | putHash k v => exact (G.mark ha).extends H rfl rfl fun _ he => .inl he
  | putHashIfAbsent k v => exact H.once ha rfl rfl rfl fun _ he => .inl he
  | putHashesAtomically entries =>
      have hrest : ∀ w : World, (w.putEntries entries).syncd.stateEvents = w.syncd.stateEvents := by
        intro w
        induction entries generalizing w with
        | nil => rfl
        | cons entry rest ih =>
            rw [putEntries_cons, ih (fun e he => ha e (List.mem_cons_of_mem _ he))]
            rfl
      exact (G.putEntries ha).extends H rfl rfl fun _ he => .inl (hrest h.now ▸ he)
  | replaceStateOnce marker fields id state event =>
      refine H.once ha.1 rfl rfl rfl fun e he => ?_
      rcases List.mem_append.mp he with he | he
      · exact .inl he
      · cases List.mem_singleton.mp he
        exact .inr ha.2
  | appendResultOnce marker fields event => exact H.once ha rfl rfl rfl fun _ he => .inl he
  | incrementOnce marker fields update => exact H.once ha rfl rfl rfl fun _ he => .inl he
  | applyConnections commands options =>
      obtain ⟨event, hmem, hop, hattempt, batch, hdecode, rfl⟩ := ha
      exact (H.apply hmem hop hattempt hdecode choice).1
  | replaceHashAndAppendEvent k v event => exact ha.elim
  | replaceAlarmOnce marker fields id alarm event => exact ha.elim
  | appendCommandOnce marker fields event => exact ha.elim
  | _ => exact H.idle rfl rfl rfl rfl

end Operations

end MiniOcs.Syncd
