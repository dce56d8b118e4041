import MiniOcs.Orch.Agreement
import MiniOcs.Syncd.Reads
import MiniOcs.Syncd.Witnesses

/-!
# No false success

Any number of command handlers over one device and a link that may lose every request and reply.
The other programs write neither attempts nor results, and leave the state events of commands
alone; the device may be disturbed, reset and restarted at any time.
-/
namespace MiniOcs.Syncd
open Std Concurrent

/-! ## The system -/

/-- What happens to the device besides the commands. -/
inductive DeviceMoves (d : SimulatedOcsDevice CommandId) : SimulatedOcsDevice CommandId → Prop
  | stays : DeviceMoves d d
  | calls {call d'} : SimulatedOcsDevice.Call.run d call = .ok d' →
      (∀ commands options, call = .applyConnections commands options →
        options.operationId = none) → DeviceMoves d d'
  | restarts {info d'} : SimulatedOcsDevice.construct info = some (.ok d') → DeviceMoves d d'

/-- What the rest of the system does between two calls. -/
structure Meanwhile (s t : World) : Prop where
  commands : s.commands <+: t.commands
  nodup : (t.commands.map (·.id)).Nodup
  device : DeviceMoves s.hwsim t.hwsim
  attempts : ∀ id, t.syncd.hash (.applyAttempt id) = s.syncd.hash (.applyAttempt id)
  results : ∀ id, t.syncd.hash (.applyResult id) = s.syncd.hash (.applyResult id)
  states : ∃ extra, t.syncd.stateEvents = s.syncd.stateEvents ++ extra ∧
    ∀ e ∈ extra, ∀ id member, e.id ≠ .command id member

/-- Command handlers that run at once, and may be cut anywhere. -/
def handlers (ι : Type) : System Op Op.Reply Raised Bool World ι where
  exec := exec
  init w := ∃ inventory info hwsim, SimulatedOcsDevice.construct info = some (.ok hwsim) ∧
    w = { inventory := inventory, hwsim := hwsim }
  starts _ _ p := p = processOne
  crash _ w := w
  env := Meanwhile
  allow _ _ _ _ := True

/-- The contract of a handler over the history. -/
def witnessing : Contract Op (Chronicle World) where
  inv := Faithful
  rely := Grown
  guard o h := HandlerAsks h o
  allow _ _ _ := True
  refl := Grown.refl
  trans := Grown.trans

def execRecorded (o : Op) (choice : Nat) (h : Chronicle World) : o.Reply × Chronicle World :=
  ((exec o choice h.now).1, h.next (exec o choice h.now).2)

abbrev SafeH {α : Type} (p : Service α) (h : Chronicle World) : Prop :=
  Safe execRecorded witnessing (fun _ _ => True) p h

/-- Calls that a handler may make at any time. -/
def Anytime (o : Op) : Prop := ∀ h, HandlerAsks h o

abbrev AnytimeTo {α : Type} (Q : α → Prop) (p : Service α) : Prop :=
  p.Given Anytime (fun _ _ => True) Q

abbrev AskedAt {α : Type} (h : Chronicle World) (p : Service α) : Prop :=
  p.Given (HandlerAsks h) (fun _ _ => True) fun _ => True

/-! ## Rules -/

section Rules

variable {α β : Type} {s : Chronicle World}

theorem faithful_call {o : Op} {h : Chronicle World} (H : Faithful h) (ha : HandlerAsks h o)
    (choice : Nat) : Extends h (exec o choice h.now).2 := by
  cases o with
  | orch o => exact ha.elim
  | syncd o => exact H.exec ha choice

theorem SafeH.send {o : SyncdOp} {k : o.Reply → Service α}
    (hask : ∀ t, Faithful t → Grown s t → HandlerAsks t (.syncd o))
    (hk : ∀ t choice, Faithful t → Grown s t →
      Grown s (t.next (o.exec choice t.now).2) → Faithful (t.next (o.exec choice t.now).2) →
        SafeH (k (o.exec choice t.now).1) (t.next (o.exec choice t.now).2)) :
    SafeH (Syncd.send o >>= k) s := by
  intro t ht hst
  refine ⟨hask t ht hst, fun choice _ => ?_⟩
  have hext := ht.exec (hask t ht hst) choice
  exact hk t choice ht hst (hst.trans hext.grown) (hext.faithful ht)

/-- A call that may be made at any time, and whose reply says nothing. -/
theorem SafeH.skip {o : SyncdOp} {k : o.Reply → Service α} (hanytime : Anytime (.syncd o))
    (hk : ∀ r t, Faithful t → Grown s t → SafeH (k r) t) : SafeH (Syncd.send o >>= k) s :=
  SafeH.send (fun t _ _ => hanytime t) fun _ _ _ _ hgrown hfaithful => hk _ _ hfaithful hgrown

theorem SafeH.anytime {Q : β → Prop} {p : Service β} {k : β → Service α} (hp : AnytimeTo Q p)
    (hk : ∀ b t, Q b → Faithful t → Grown s t → SafeH (k b) t) : SafeH (p >>= k) s :=
  Safe.of_given_bind (fun _ t ho _ => ho t)
    (fun _ choice _ ho ht _ => (faithful_call ht (ho _) choice).grown) hp hk
    fun _ _ _ _ => trivial

/-- The last part of a program, whose calls are permitted from now on. -/
theorem SafeH.asked {p : Service α} (hp : ∀ t, Faithful t → Grown s t → AskedAt t p) :
    SafeH p s := by
  have hreply : ∀ t o choice, Faithful t → HandlerAsks t o → True →
      Grown t (execRecorded o choice t).2 ∧ True :=
    fun _ _ choice ht ho _ => ⟨(faithful_call ht ho choice).grown, trivial⟩
  exact Safe.of_given (C := witnessing) (P := HandlerAsks) (R := fun _ _ _ => True)
    (fun _ _ _ ho => ho) hreply (fun _ _ _ _ _ _ => trivial) hp

theorem SafeH.raise {e : Raised} (h : e ≠ omittedConnection) :
    SafeH (Syncd.raise e : Service α) s :=
  fun _ _ _ => ⟨fun heq => absurd heq h, fun _ _ _ _ _ => trivial⟩

theorem SafeH.done (a : α) : SafeH (.pure a) s := fun _ _ _ => trivial

variable {Q : α → Prop}

theorem AnytimeTo.asked {p : Service α} (hp : AnytimeTo Q p) (h : Chronicle World) :
    p.Given (HandlerAsks h) (fun _ _ => True) Q :=
  hp.permit fun _ ho => ho h

theorem anytime_raise {message : String}
    (h : message ≠ "successful device apply omitted connection result") :
    Anytime (.syncd (.raise (.runtimeError message))) := by
  intro t heq
  cases heq
  exact absurd rfl h

theorem ReadOp.anytime {o : Op} (ho : ReadOp o) : Anytime o := by
  intro h
  cases o with
  | orch o => exact ho.elim
  | syncd o =>
      cases o with
      | putHash _ _ | putHashIfAbsent _ _ | putHashesAtomically _ | replaceHashAndAppendEvent _ _ _
      | replaceStateOnce _ _ _ _ _ | replaceAlarmOnce _ _ _ _ _ | appendResultOnce _ _ _
      | appendCommandOnce _ _ _ | incrementOnce _ _ _ | applyConnections _ _ | raise _ => cases ho
      | _ => trivial

theorem anytime_of_reads {p : Service α} (hp : ReadsTo Q p) : AnytimeTo Q p :=
  hp.permit fun _ => ReadOp.anytime

end Rules

/-! ## Programs that may run at any time -/

section Anytime

variable {event : CommandEvent} {batch : DeviceCommandBatch}

theorem anytime_markedDelta (delta : Option Int) : AnytimeTo (fun _ => True) (markedDelta delta) := by
  cases delta with
  | none => exact given_raise (anytime_raise (by decide))
  | some delta => trivial

theorem anytime_acknowledge (n : Nat) : AnytimeTo (fun _ => True) (acknowledge n) := by
  refine given_send (fun _ => trivial) fun acknowledged => ?_
  split_ifs
  · trivial
  · exact given_raise (anytime_raise (by decide))

theorem anytime_skipMemberState (event : CommandEvent) (c : ConnectionCommand)
    (marker : StatePublication) : AnytimeTo (fun _ => True) (skipMemberState event c marker) :=
  given_send (fun _ => trivial) fun _ => given_send (fun _ => trivial) fun _ => anytime_markedDelta _

theorem anytime_publishMemberResults (event : CommandEvent) (result : ApplyResult)
    (commands : List ConnectionCommand) :
    AnytimeTo (fun _ => True) (publishMemberResults event result commands) := by
  induction commands with
  | nil => trivial
  | cons c rest ih =>
      exact given_send (fun _ => trivial) fun _ => given_send (fun _ => trivial) fun _ => ih

theorem anytime_publishResult (event : CommandEvent) (batch : DeviceCommandBatch)
    (result : ApplyResult) : AnytimeTo (fun _ => True) (publishResult event batch result) := by
  unfold publishResult
  split_ifs
  · exact given_send (fun _ => trivial) fun _ => trivial
  · exact anytime_publishMemberResults event result batch.commands

theorem anytime_markProcessed (event : CommandEvent) (batch : DeviceCommandBatch) (applied : Bool) :
    AnytimeTo (fun _ => True) (markProcessed event batch applied) := by
  refine given_markProcessed (fun o ho => ?_) fun generation versions repairs hversions hrepairs => ?_
  · rcases ho with hreads | rfl
    · exact hreads.anytime
    · exact fun _ => trivial
  · intro h entry hmem
    rcases List.mem_append.mp hmem with hmem | hmem
    · rcases List.mem_cons.mp hmem with rfl | hmem
      · trivial
      · obtain ⟨c, -, rfl⟩ := hversions entry hmem
        trivial
    · have hkey := hrepairs entry hmem
      obtain ⟨k, v⟩ := entry
      cases k with
      | reconciliation => trivial
      | portFault direction id => trivial
      | _ => cases hkey

/-! ### Confirmation by query -/

/-- The connections that a query confirms for a batch. -/
structure Confirmed (actual connections : List AppliedConnection)
    (commands : List ConnectionCommand) : Prop where
  removes : ∀ c ∈ commands, c.operation = .remove →
    (actual.find? fun connection => connection.id = c.id) = none
  upserts : ∀ c ∈ commands, c.operation = .upsert →
    (actual.find? fun connection => connection.id = c.id) = some (made c)
  listed : ∀ c ∈ commands, c.operation = .upsert → made c ∈ connections

/-- Every connection was there already or is an upsert's own. -/
def AddedBy (commands : List ConnectionCommand) (confirmed connections : List AppliedConnection) :
    Prop :=
  (∀ x ∈ confirmed, x ∈ connections) ∧
    ∀ x ∈ connections, x ∈ confirmed ∨ ∃ c ∈ commands, x = made c

theorem made_of_applies {c : ConnectionCommand} {x : AppliedConnection} (hid : x.id = c.id)
    (h : applies c x = true) : x = made c := by
  obtain ⟨id, inputPort, outputPort, version⟩ := x
  simp only [applies, Bool.and_eq_true, decide_eq_true_eq] at h
  obtain ⟨⟨rfl, rfl⟩, rfl⟩ := h
  cases hid
  rfl

theorem Confirmed.cons {actual connections : List AppliedConnection} {c : ConnectionCommand}
    {rest : List ConnectionCommand} (h : Confirmed actual connections rest)
    (hremove : c.operation = .remove →
      (actual.find? fun connection => connection.id = c.id) = none)
    (hupsert : c.operation = .upsert →
      (actual.find? fun connection => connection.id = c.id) = some (made c) ∧
        made c ∈ connections) : Confirmed actual connections (c :: rest) := by
  refine ⟨fun a ha hop => ?_, fun a ha hop => ?_, fun a ha hop => ?_⟩
  all_goals rcases List.mem_cons.mp ha with rfl | ha
  · exact hremove hop
  · exact h.removes a ha hop
  · exact (hupsert hop).1
  · exact h.upserts a ha hop
  · exact (hupsert hop).2
  · exact h.listed a ha hop

theorem AddedBy.cons {c : ConnectionCommand} {rest : List ConnectionCommand}
    {confirmed connections : List AppliedConnection} (h : AddedBy rest confirmed connections) :
    AddedBy (c :: rest) confirmed connections :=
  ⟨h.1, fun x hx => (h.2 x hx).imp_right fun ⟨a, ha, heq⟩ => ⟨a, List.mem_cons_of_mem _ ha, heq⟩⟩

theorem AddedBy.snoc {c : ConnectionCommand} {rest : List ConnectionCommand}
    {confirmed connections : List AppliedConnection}
    (h : AddedBy rest (confirmed ++ [made c]) connections) :
    AddedBy (c :: rest) confirmed connections ∧ made c ∈ connections := by
  refine ⟨⟨fun x hx => h.1 x (List.mem_append_left _ hx), fun x hx => ?_⟩, h.1 _ (by simp)⟩
  rcases h.2 x hx with hx | ⟨a, ha, heq⟩
  · rcases List.mem_append.mp hx with hx | hx
    · exact .inl hx
    · exact .inr ⟨c, List.mem_cons_self, List.mem_singleton.mp hx⟩
  · exact .inr ⟨a, List.mem_cons_of_mem _ ha, heq⟩

theorem reads_confirmMembers (actual confirmed : List AppliedConnection)
    (commands : List ConnectionCommand) :
    ReadsTo (fun r => ∀ connections, r = some connections →
      Confirmed actual connections commands ∧ AddedBy commands confirmed connections)
      (confirmMembers actual confirmed commands) := by
  induction commands generalizing confirmed with
  | nil =>
      intro connections heq
      cases heq
      exact ⟨⟨nofun, nofun, nofun⟩, fun _ hx => hx, fun _ hx => .inl hx⟩
  | cons c rest ih =>
      have hgiveUp : ReadsTo (fun r => ∀ connections, r = some connections →
          Confirmed actual connections (c :: rest) ∧ AddedBy (c :: rest) confirmed connections)
          (.pure none) := by
        intro connections heq
        cases heq
      unfold confirmMembers
      dsimp only
      cases hop : c.operation with
      | remove =>
          cases hfind : actual.find? fun connection => connection.id = c.id with
          | some connection => exact hgiveUp
          | none =>
              refine (ih confirmed).mono fun r hr connections heq => ?_
              obtain ⟨hconfirmed, hadded⟩ := hr connections heq
              refine ⟨hconfirmed.cons (fun _ => hfind) fun hupsert => ?_, hadded.cons⟩
              rw [hop] at hupsert
              cases hupsert
      | upsert =>
          cases hfind : actual.find? fun connection => connection.id = c.id with
          | none => exact hgiveUp
          | some connection =>
              dsimp only
              split_ifs with happlies
              · exact hgiveUp
              have hid : connection.id = c.id := by simpa using List.find?_some hfind
              have hmade := made_of_applies hid (by simpa using happlies)
              subst hmade
              refine given_send rfl fun input => ?_
              cases input with
              | error message => exact hgiveUp
              | ok input =>
                  refine given_send rfl fun output => ?_
                  cases output with
                  | error message => exact hgiveUp
                  | ok output =>
                      dsimp only
                      split_ifs
                      · exact hgiveUp
                      refine (ih _).mono fun r hr connections heq => ?_
                      obtain ⟨hconfirmed, hadded⟩ := hr connections heq
                      refine ⟨hconfirmed.cons (fun hremove => ?_) fun _ =>
                        ⟨hfind, hadded.snoc.2⟩, hadded.snoc.1⟩
                      rw [hop] at hremove
                      cases hremove

theorem reads_confirmAttempt (batch : DeviceCommandBatch) (result : ApplyResult) :
    ReadsTo (fun _ => True) (confirmAttempt batch result) := by
  unfold confirmAttempt confirmAppliedResult
  split_ifs
  · trivial
  · trivial
  · refine given_send rfl fun actual => ?_
    cases actual with
    | error message => trivial
    | ok actual =>
        refine (reads_confirmMembers actual [] _).bind fun confirmed _ => ?_
        cases confirmed <;> trivial

theorem Confirmed.inEffect {d : SimulatedOcsDevice CommandId} (h : SimulatedOcsDevice.Coherent d)
    {connections : List AppliedConnection} {commands : List ConnectionCommand}
    (hc : Confirmed d.getConnections connections commands) : InEffect d commands := by
  refine ⟨fun c hmem hop => ?_, fun c hmem hop => ?_⟩
  · rw [← find?_getConnections h]
    exact hc.upserts c hmem hop
  · rw [← find?_getConnections h]
    exact hc.removes c hmem hop

theorem Confirmed.lists {actual connections : List AppliedConnection}
    {commands : List ConnectionCommand} (hdistinct : Distinct commands)
    (hc : Confirmed actual connections commands) (hadded : AddedBy commands [] connections)
    (error : Error) : Lists commands ⟨error, connections⟩ := by
  refine lists_of_mem (fun c hmem hop => hc.listed c hmem hop) (fun c hmem _ x hx hid => ?_) error
  rcases hadded.2 x hx with hx | ⟨a, ha, rfl⟩
  · cases hx
  · rw [hdistinct.eq ha hmem hid]

end Anytime

/-! ## Publishing a result -/

section Publishing

variable {h : Chronicle World} {event : CommandEvent} {batch : DeviceCommandBatch}
  {result : ApplyResult} {c : ConnectionCommand}

/-- A result that may be published: a success was stored, and lists every upsert. -/
structure Publishable (h : Chronicle World) (event : CommandEvent) (batch : DeviceCommandBatch)
    (result : ApplyResult) : Prop where
  mem : event ∈ h.now.commands
  decoded : result.isOk = true → ∃ decoded, decodeDeviceCommand event.payload = .ok decoded ∧
    decoded.commands = batch.commands
  listed : result.isOk = true → Distinct batch.commands → Lists batch.commands result
  stored : result.isOk = true → ∃ u ∈ h.moments, ∃ stored, Success u event.id stored

theorem Publishable.mono {h' : Chronicle World} (hp : Publishable h event batch result)
    (hgrown : Grown h h') : Publishable h' event batch result := by
  refine ⟨hgrown.commands hp.mem, hp.decoded, hp.listed, fun hok => ?_⟩
  obtain ⟨u, hu, hstored⟩ := hp.stored hok
  exact ⟨u, hgrown.later.mem hu, hstored⟩

/-- What is found for an upsert is what the upsert asks for. -/
theorem Publishable.found (hp : Publishable h event batch result) (hok : result.isOk = true)
    (hdistinct : Distinct batch.commands) (hc : c ∈ batch.commands)
    (hop : c.operation = .upsert) :
    (result.connections.find? fun item => item.id = c.id) = some (made c) :=
  hp.listed hok hdistinct c hc hop

theorem Publishable.omitted (hp : Publishable h event batch result) (hok : result.isOk = true)
    (hc : c ∈ batch.commands) (hop : c.operation = .upsert)
    (hfind : (result.connections.find? fun item => item.id = c.id) = none) :
    HandlerAsks h (.syncd (.raise omittedConnection)) := by
  intro _
  obtain ⟨decoded, hdecode, hcommands⟩ := hp.decoded hok
  refine ⟨event, hp.mem, decoded, hdecode, fun hdistinct => ?_⟩
  have hfound := hp.found hok (hcommands ▸ hdistinct) hc hop
  rw [hfind] at hfound
  cases hfound

theorem Publishable.stateProven (hp : Publishable h event batch result) (hok : result.isOk = true)
    (hc : c ∈ batch.commands) (hop : c.operation = .upsert) {applied : AppliedConnection}
    (hfind : (result.connections.find? fun item => item.id = c.id) = some applied) :
    StateProven h.now.commands h.moments
      (memberStateEvent event c .upsert (some (appliedState c result applied))) := by
  intro id member state hid hstate _
  cases hid
  cases hstate
  obtain ⟨decoded, hdecode, hcommands⟩ := hp.decoded hok
  refine ⟨event, hp.mem, rfl, hp.stored hok, decoded, hdecode, c, hcommands ▸ hc, hop, rfl,
    fun hdistinct => ?_⟩
  have hfound := hp.found hok (hcommands ▸ hdistinct) hc hop
  rw [hfind] at hfound
  cases hfound
  rfl

theorem stateProven_of_inactive {commands : List CommandEvent} {moments : List World}
    {e : StateEvent} (h : ∀ state, e.connection = some state → state.applyStatus ≠ .active) :
    StateProven commands moments e :=
  fun _ _ state _ hstate hactive => absurd hactive (h state hstate)

theorem asked_replaceMemberState {before after : Bool} {operation : ConnectionOperation}
    {state : Option ConnectionState}
    (hs : StateProven h.now.commands h.moments (memberStateEvent event c operation state)) :
    AskedAt h (replaceMemberState event c before after operation state) := by
  refine given_send ⟨trivial, hs⟩ fun published => ?_
  split_ifs
  · trivial
  · exact given_send trivial fun marker => (anytime_markedDelta _).asked h

theorem asked_publishMemberState (hp : Publishable h event batch result)
    (hc : c ∈ batch.commands) (previous : Option ConnectionState) :
    AskedAt h (publishMemberState event result c previous) := by
  unfold publishMemberState
  dsimp only
  split_ifs with hok
  · cases hop : c.operation with
    | remove =>
        refine asked_replaceMemberState (stateProven_of_inactive fun state hstate => ?_)
        cases hstate
    | upsert =>
        dsimp only
        cases hfind : result.connections.find? fun item => item.id = c.id with
        | none => exact given_raise (hp.omitted hok hc hop hfind)
        | some applied =>
            exact asked_replaceMemberState (hp.stateProven hok hc hop hfind)
  · refine given_send trivial fun state => ?_
    refine asked_replaceMemberState (stateProven_of_inactive fun state' hstate => ?_)
    cases hstate
    simp [failedState]

theorem asked_publishMember (hp : Publishable h event batch result) (hc : c ∈ batch.commands) :
    AskedAt h (publishMember event result c) := by
  refine given_send trivial fun published => ?_
  cases published with
  | some marker => trivial
  | none =>
      refine given_send trivial fun previous => ?_
      split_ifs
      · exact (anytime_skipMemberState event c _).asked h
      · split
        · exact given_raise fun heq => by cases heq
        · exact (anytime_skipMemberState event c _).asked h
        · exact asked_publishMemberState hp hc previous

theorem asked_publishState (hp : Publishable h event batch result) (total : Int)
    {rest : List ConnectionCommand} (hsub : rest ⊆ batch.commands) :
    AskedAt h (publishState event result total rest) := by
  induction rest generalizing total with
  | nil => trivial
  | cons c rest ih =>
      refine (asked_publishMember hp (hsub List.mem_cons_self)).bind fun delta _ => ?_
      exact ih _ fun a ha => hsub (List.mem_cons_of_mem _ ha)

theorem asked_finishCommand (n : Nat) {stored : StoredResult}
    (hp : Publishable h event batch stored.result) :
    AskedAt h (finishCommand n event batch stored) := by
  refine (asked_publishState hp 0 (List.Subset.refl _)).bind fun delta _ => ?_
  refine given_send trivial fun _ => ?_
  refine ((anytime_publishResult event batch stored.result).asked h).bind fun _ _ => ?_
  refine ((anytime_markProcessed event batch _).asked h).bind fun _ _ => ?_
  exact (anytime_acknowledge n).asked h

/-- Were the command alone in the stream, an omitted connection would be its own fault. -/
theorem Publishable.never_omits (hp : Publishable h event batch result)
    (hdecode : decodeDeviceCommand event.payload = .ok batch) (hdistinct : Distinct batch.commands)
    (total : Int) : (publishState event result total batch.commands).Only fun o =>
      o ≠ .syncd (.raise omittedConnection) := by
  have halone : Publishable ⟨h.moments, { h.now with commands := [event] }⟩ event batch result := by
    refine ⟨List.mem_singleton_self event, hp.decoded, hp.listed, fun hok => ?_⟩
    obtain ⟨u, hu, hstored⟩ := hp.stored hok
    exact ⟨u, List.mem_cons_of_mem _ hu, hstored⟩
  refine (asked_publishState halone total (List.Subset.refl _)).only fun o ho heq => ?_
  subst heq
  obtain ⟨event', hmem, decoded, hdecode', hnot⟩ := ho rfl
  cases List.mem_singleton.mp hmem
  rw [hdecode] at hdecode'
  cases hdecode'
  exact hnot hdistinct

/-- A stored result of a command may be published with the command's batch. -/
theorem publishable_stored (H : Faithful h) (hmem : event ∈ h.now.commands)
    (hbatch : ∀ decoded, decodeDeviceCommand event.payload = .ok decoded →
      decoded.commands = batch.commands) {stored : StoredResult}
    (hget : h.now.syncd.hash (.applyResult event.id) = some stored) :
    Publishable h event batch stored.result := by
  have hborn : stored.result.isOk = true → BornOut h.moments event stored.result := by
    intro hok
    obtain ⟨event', hmem', hid, hborn⟩ := H.proven_now hget hok
    cases List.inj_on_of_nodup_map H.commands hmem' hmem hid
    exact hborn
  refine ⟨hmem, fun hok => ?_, fun hok hdistinct => ?_, fun hok => ?_⟩
  · obtain ⟨decoded, hdecode, -⟩ := hborn hok
    exact ⟨decoded, hdecode, hbatch decoded hdecode⟩
  · obtain ⟨decoded, hdecode, hlists⟩ := hborn hok
    rw [← hbatch decoded hdecode] at hdistinct ⊢
    exact (hlists hdistinct).1
  · exact ⟨h.now, h.now_mem, stored, hget, hok⟩

end Publishing

/-! ## Applying a command -/

section Applying

variable {α : Type} {s : Chronicle World} {event : CommandEvent} {batch : DeviceCommandBatch}

/-- A command that decodes, was recorded as attempted, and is processed with its own batch. -/
structure OnItsWay (h : Chronicle World) (event : CommandEvent) (batch : DeviceCommandBatch) :
    Prop where
  mem : event ∈ h.now.commands
  decoded : ∃ decoded, decodeDeviceCommand event.payload = .ok decoded ∧
    decoded.commands = batch.commands
  operation : batch.options.operationId = some event.id
  attempted : AttemptMade h.now event.id

theorem OnItsWay.mono {h h' : Chronicle World} (ho : OnItsWay h event batch) (hgrown : Grown h h') :
    OnItsWay h' event batch :=
  ⟨hgrown.commands ho.mem, ho.decoded, ho.operation, hgrown.attempts _ ho.attempted⟩

abbrev ProvenAt (h : Chronicle World) (event : CommandEvent) (result : ApplyResult) : Prop :=
  Proven h.now.commands h.moments event.id result

theorem ProvenAt.mono {h h' : Chronicle World} {result : ApplyResult}
    (hp : ProvenAt h event result) (hgrown : Grown h h') : ProvenAt h' event result :=
  Proven.mono hp hgrown.commands hgrown.later.subset

theorem ProvenAt.of_failed {h : Chronicle World} {result : ApplyResult}
    (hfailed : result.isOk = false) : ProvenAt h event result := by
  intro hok
  rw [hfailed] at hok
  cases hok

theorem proven_refused (h : Chronicle World) {code : ErrorCode} (message : String)
    (hcode : code ≠ .ok) : ProvenAt h event (refused code message) :=
  .of_failed (by simp [refused, ApplyResult.isOk, Error.isOk, hcode])

/-- Queries that confirm every member of the batch, at one moment. -/
theorem OnItsWay.confirmed {h : Chronicle World} (ho : OnItsWay h event batch) (H : Faithful h)
    {connections : List AppliedConnection}
    (hc : Confirmed h.now.hwsim.getConnections connections batch.commands)
    (hadded : AddedBy batch.commands [] connections) :
    ProvenAt h event ⟨Error.success, connections⟩ := by
  intro _
  obtain ⟨decoded, hdecode, hcommands⟩ := ho.decoded
  rw [← hcommands] at hc hadded
  refine ⟨event, ho.mem, rfl, decoded, hdecode, fun hdistinct => ?_⟩
  exact ⟨hc.lists hdistinct hadded _, h.now, h.now_mem, ho.attempted, hc.inEffect H.sound.coherent⟩

theorem faithful_confirmAppliedResult {k : ApplyResult → Service α} {result : ApplyResult}
    (ho : OnItsWay s event batch) (hp : ProvenAt s event result)
    (hk : ∀ result t, Faithful t → Grown s t → ProvenAt t event result → SafeH (k result) t) :
    SafeH (confirmAppliedResult batch result >>= k) s := by
  have hkeep : ∀ t, Faithful t → Grown s t → SafeH (k result) t :=
    fun t ht hst => hk result t ht hst (hp.mono hst)
  unfold confirmAppliedResult
  split_ifs
  · exact Safe.of_inv hkeep
  · rw [Prog.bind_assoc']
    refine SafeH.send (fun _ _ _ => trivial) fun t choice ht hst hsu hu => ?_
    by_cases hchoice : choice = 0
    · subst hchoice
      simp only [SyncdOp.exec, MiniOcs.readDevice, if_true]
      rw [Prog.bind_assoc']
      refine SafeH.anytime (anytime_of_reads (reads_confirmMembers _ [] batch.commands)) fun confirmed v hc hv huv => ?_
      cases confirmed with
      | none => exact hkeep v hv (hsu.trans huv)
      | some connections =>
          obtain ⟨hconfirmed, hadded⟩ := hc connections rfl
          exact hk _ v hv (hsu.trans huv)
            (((ho.mono hsu).confirmed hu hconfirmed hadded).mono huv)
    · simp only [SyncdOp.exec, MiniOcs.readDevice, if_neg hchoice]
      exact hkeep _ hu hsu

theorem faithful_confirmAttempt {k : ApplyResult → Service α} {result : ApplyResult}
    (ho : OnItsWay s event batch) (hp : ProvenAt s event result)
    (hk : ∀ result t, Faithful t → Grown s t → ProvenAt t event result → SafeH (k result) t) :
    SafeH (confirmAttempt batch result >>= k) s := by
  unfold confirmAttempt
  split_ifs
  · exact Safe.of_inv fun t ht hst => hk result t ht hst (hp.mono hst)
  · exact faithful_confirmAppliedResult ho hp hk

theorem OnItsWay.asks {h : Chronicle World} (ho : OnItsWay h event batch) :
    HandlerAsks h (.syncd (.applyConnections batch.commands batch.options)) := by
  obtain ⟨decoded, hdecode, hcommands⟩ := ho.decoded
  exact ⟨event, ho.mem, ho.operation, ho.attempted, decoded, hdecode, hcommands⟩

/-- Whatever the link makes of an apply request, a success is borne out. -/
theorem OnItsWay.reply {h : Chronicle World} (ho : OnItsWay h event batch) (H : Faithful h)
    (choice : Nat) :
    ProvenAt (h.next { h.now with
        hwsim := (applyOverLink choice h.now.hwsim batch.commands batch.options).2 }) event
      (appliedResult (applyOverLink choice h.now.hwsim batch.commands batch.options).1) := by
  obtain ⟨decoded, hdecode, hcommands⟩ := ho.decoded
  have hproven := (H.apply ho.mem ho.operation ho.attempted hdecode choice).2
  rw [hcommands] at hproven
  cases hreply : (applyOverLink choice h.now.hwsim batch.commands batch.options).1 with
  | error message => exact proven_refused _ message (by decide)
  | ok result => exact hproven result hreply

theorem faithful_applyCommand {k : ApplyResult → Service α} (ho : OnItsWay s event batch)
    (hk : ∀ result t, Faithful t → Grown s t → ProvenAt t event result → SafeH (k result) t) :
    SafeH (applyCommand event batch >>= k) s := by
  unfold applyCommand
  rw [Prog.bind_assoc']
  refine SafeH.skip (fun _ => trivial) fun info t ht hst => ?_
  cases info with
  | error message => exact hk _ t ht hst (proven_refused t message (by decide))
  | ok info =>
      dsimp only
      rw [Prog.bind_assoc']
      refine SafeH.skip (fun _ => trivial) fun _ u hu htu => ?_
      have hsu := hst.trans htu
      split_ifs
      · exact hk _ u hu hsu (proven_refused u _ (by decide))
      · rw [Prog.bind_assoc']
        refine SafeH.send (fun v _ huv => ((ho.mono hsu).mono huv).asks)
          fun v choice hv huv huw hw => ?_
        refine faithful_confirmAttempt ((ho.mono hsu).mono huw)
          (((ho.mono hsu).mono huv).reply hv choice) fun result x hx hwx hp => ?_
        exact hk result x hx ((hsu.trans huw).trans hwx) hp

end Applying

/-! ## Commands -/

section Commands

variable {s : Chronicle World} {event : CommandEvent} {batch : DeviceCommandBatch}

theorem commands_of_batch (hbatch : BatchOf event batch) {decoded : DeviceCommandBatch}
    (hdecode : decodeDeviceCommand event.payload = .ok decoded) :
    batch = withOperation event decoded := by
  unfold BatchOf at hbatch
  rw [hdecode] at hbatch
  exact hbatch

/-- What is read of a result may be published. -/
theorem faithful_finishStored (n : Nat) (H : Faithful s) (hmem : event ∈ s.now.commands)
    (hbatch : BatchOf event batch) {stored : StoredResult}
    (hget : s.now.syncd.hash (.applyResult event.id) = some stored) :
    SafeH (finishCommand n event batch stored) s := by
  have hcommands : ∀ decoded, decodeDeviceCommand event.payload = .ok decoded →
      decoded.commands = batch.commands := by
    intro decoded hdecode
    rw [commands_of_batch hbatch hdecode]
    rfl
  have hpublishable := publishable_stored H hmem hcommands hget
  exact SafeH.asked fun t _ hst => asked_finishCommand n (hpublishable.mono hst)

theorem faithful_attemptCommand (n : Nat) (hmem : event ∈ s.now.commands)
    (hbatch : BatchOf event batch) {decoded : DeviceCommandBatch}
    (hdecode : decodeDeviceCommand event.payload = .ok decoded) :
    SafeH (attemptCommand n event batch) s := by
  have heq := commands_of_batch hbatch hdecode
  unfold attemptCommand
  refine SafeH.send (fun _ _ _ => trivial) fun t choice ht hst hsu hu => ?_
  have hattempted : AttemptMade ((SyncdOp.exec choice t.now
      (.putHashIfAbsent (.applyAttempt event.id) batch)).2) event.id := by
    change AttemptMade (t.now.onceSyncd (.applyAttempt event.id) batch id).2 event.id
    unfold AttemptMade
    cases hm : t.now.syncd.hash (.applyAttempt event.id) with
    | some attempt =>
        rw [onceSyncd_some (by rw [hm]; rfl), hm]
        rfl
    | none =>
        rw [onceSyncd_none hm]
        simp
  have hway : OnItsWay (t.next (SyncdOp.exec choice t.now
      (.putHashIfAbsent (.applyAttempt event.id) batch)).2) event batch :=
    ⟨hsu.commands hmem, ⟨decoded, hdecode, by rw [heq]; rfl⟩, by rw [heq]; rfl, hattempted⟩
  refine faithful_applyCommand hway fun result v hv huv hp => ?_
  refine SafeH.skip (fun _ => trivial) fun latencyMs w hw hvw => ?_
  refine SafeH.send (fun x _ hwx => (hp.mono hvw).mono hwx) fun x _ hx hwx hwy hy => ?_
  refine SafeH.send (fun _ _ _ => trivial) fun y _ _ hyy hyz hz => ?_
  have hsz := ((hsu.trans huv).trans (hvw.trans hwy)).trans hyz
  cases hstored : y.now.syncd.hash (.applyResult event.id) with
  | none =>
      simp only [SyncdOp.exec, hstored]
      exact SafeH.raise (by decide)
  | some stored =>
      simp only [SyncdOp.exec, hstored]
      exact faithful_finishStored n hz (hsz.commands hmem) hbatch hstored

/-- A command whose result is stored, or that decodes. -/
theorem faithful_startCommand (n : Nat) (hmem : event ∈ s.now.commands)
    (hbatch : BatchOf event batch)
    (hready : (s.now.syncd.hash (.applyResult event.id)).isSome ∨
      ∃ decoded, decodeDeviceCommand event.payload = .ok decoded) :
    SafeH (startCommand n event batch) s := by
  unfold startCommand
  refine SafeH.send (fun _ _ _ => trivial) fun t _ ht hst hsu hu => ?_
  cases hstored : t.now.syncd.hash (.applyResult event.id) with
  | some stored =>
      simp only [SyncdOp.exec, hstored]
      exact faithful_finishStored n hu (hsu.commands hmem) hbatch hstored
  | none =>
      have hdecodes : ∃ decoded, decodeDeviceCommand event.payload = .ok decoded := by
        refine hready.resolve_left fun hsome => ?_
        have hkept := hst.results event.id hsome
        rw [hstored] at hkept
        cases hkept
      obtain ⟨decoded, hdecode⟩ := hdecodes
      simp only [SyncdOp.exec, hstored]
      refine SafeH.skip (fun _ => trivial) fun attempt v hv huv => ?_
      have hattempt : ∀ x, Faithful x → Grown v x → SafeH (attemptCommand n event batch) x :=
        fun x _ hvx => faithful_attemptCommand n
          (((hsu.trans huv).trans hvx).commands hmem) hbatch hdecode
      cases attempt with
      | some _ => exact hattempt v hv (Grown.refl v)
      | none =>
          refine SafeH.anytime (anytime_of_reads (reads_isStaleVersion event batch)) fun stale x _ hx hvx => ?_
          split_ifs
          · refine SafeH.anytime (anytime_markProcessed event batch false) fun _ y _ _ _ => ?_
            exact SafeH.asked fun z _ _ => (anytime_acknowledge n).asked z
          · exact hattempt x hx hvx

theorem faithful_malformedCommand (n : Nat) (hmem : event ∈ s.now.commands) {message : String}
    (hdecode : decodeDeviceCommand event.payload = .error message) :
    SafeH (malformedCommand n event message) s := by
  unfold malformedCommand
  refine SafeH.anytime (anytime_of_reads (reads_recoverPreparedBatch event)) fun batch t _ ht hst => ?_
  have hbatch : BatchOf event batch := by
    unfold BatchOf
    rw [hdecode]
    trivial
  refine SafeH.send (fun u _ _ => proven_refused u message (by decide))
    fun u _ hu htu htv hv => ?_
  refine faithful_startCommand n ((hst.trans htv).commands hmem) hbatch (.inl ?_)
  change ((u.now.markSyncd (.applyResult event.id) _).syncd.hash (.applyResult event.id)).isSome
  rw [World.markSyncd_hash_self]
  rfl

theorem faithful_handleCommand (n : Nat) (hmem : event ∈ s.now.commands) :
    SafeH (handleCommand n event) s := by
  unfold handleCommand
  refine SafeH.skip (fun _ => trivial) fun processed t ht hst => ?_
  cases processed with
  | some _ => exact SafeH.asked fun u _ _ => (anytime_acknowledge n).asked u
  | none =>
      dsimp only
      cases hdecode : decodeDeviceCommand event.payload with
      | error message => exact faithful_malformedCommand n (hst.commands hmem) hdecode
      | ok decoded =>
          refine faithful_startCommand n (hst.commands hmem) ?_ (.inr ⟨decoded, hdecode⟩)
          unfold BatchOf
          rw [hdecode]

/-- Whatever is delivered is a command of the stream. -/
theorem faithful_nextCommand {α : Type} {k : Option (Nat × CommandEvent) → Service α}
    (hk : ∀ message t, Faithful t → Grown s t →
      (∀ n event, message = some (n, event) → event ∈ t.now.commands) → SafeH (k message) t) :
    SafeH (nextCommand >>= k) s := by
  have hread : ∀ t, Faithful t → Grown s t → SafeH (Syncd.send .readGroup >>= k) t := by
    intro t ht hst
    refine SafeH.send (fun _ _ _ => trivial) fun u _ _ _ htv hv =>
      hk _ _ hv (hst.trans htv) fun n event heq => ?_
    simp only [SyncdOp.exec, Option.bind_eq_some_iff, Option.map_eq_some_iff] at heq
    obtain ⟨m, -, e, hget, heq⟩ := heq
    cases heq
    exact List.mem_of_getElem? hget
  unfold nextCommand
  rw [Prog.bind_assoc']
  refine SafeH.skip (fun _ => trivial) fun candidate t ht hst => ?_
  cases candidate with
  | none => exact hread t ht hst
  | some n =>
      dsimp only
      rw [Prog.bind_assoc']
      refine SafeH.send (fun _ _ _ => trivial) fun u choice _ _ htv hv => ?_
      have hclaimed : ∀ event, (SyncdOp.exec choice u.now (.xclaim n)).1 = some event →
          event ∈ u.now.commands := by
        intro event heq
        simp only [SyncdOp.exec] at heq
        split_ifs at heq
        · exact List.mem_of_getElem? heq
      cases hreply : (SyncdOp.exec choice u.now (.xclaim n)).1 with
      | none => exact hread _ hv (hst.trans htv)
      | some event =>
          refine hk _ _ hv (hst.trans htv) fun n' event' heq => ?_
          cases heq
          exact hclaimed event hreply

theorem faithful_processOne (h : Chronicle World) : SafeH processOne h := by
  unfold processOne
  refine faithful_nextCommand fun message t ht hst hmem => ?_
  match message with
  | none => exact SafeH.done false
  | some (n, event) => exact faithful_handleCommand n (hmem n event rfl)

end Commands

/-! ## The system keeps the invariant -/

section System

theorem DeviceMoves.keeps {d d' : SimulatedOcsDevice CommandId} (h : DeviceMoves d d')
    (hsound : d.Sound) : d'.Sound ∧ ∀ id result, d'.applyResults.lookup id = some result →
      d.applyResults.lookup id = some result := by
  cases h with
  | stays => exact ⟨hsound, fun _ _ hget => hget⟩
  | calls hrun hop =>
      obtain ⟨d'', hrun', hsound'⟩ := hsound.call _
      rw [hrun] at hrun'
      cases hrun'
      exact ⟨hsound', fun _ _ hget => hsound.call_lookup hop hrun hget⟩
  | restarts hconstruct =>
      refine ⟨SimulatedOcsDevice.Sound.construct hconstruct, fun id result hget => ?_⟩
      rw [(SimulatedOcsDevice.empty_construct hconstruct).1] at hget
      cases hget

theorem Faithful.init {h : Chronicle World} (hpast : h.past = []) {inventory : Gnmi.Inventory}
    {info : DeviceInfo} {hwsim : SimulatedOcsDevice CommandId}
    (hconstruct : SimulatedOcsDevice.construct info = some (.ok hwsim))
    (hnow : h.now = { inventory := inventory, hwsim := hwsim }) : Faithful h := by
  obtain ⟨past, now⟩ := h
  dsimp only at hpast hnow
  subst hpast hnow
  refine ⟨List.nodup_nil, SimulatedOcsDevice.Sound.construct hconstruct, fun id result hget => ?_,
    fun u us hsuffix id stored hget => ?_, fun e he => absurd he List.not_mem_nil⟩
  · rw [(SimulatedOcsDevice.empty_construct hconstruct).1] at hget
    cases hget
  · rcases List.suffix_cons_iff.mp hsuffix with heq | hsuffix
    · cases heq
      cases hget
    · exact absurd (List.suffix_nil.mp hsuffix) (List.cons_ne_nil _ _)

theorem Faithful.meanwhile {h : Chronicle World} (H : Faithful h) {t : World}
    (hm : Meanwhile h.now t) : Extends h t := by
  have hcommands : h.now.commands ⊆ t.commands := hm.commands.subset
  have hmoments : h.moments ⊆ t :: h.moments := List.subset_cons_self _ _
  obtain ⟨hsound, hlookup⟩ := hm.device.keeps H.sound
  refine ⟨hcommands, hm.nodup, hsound, fun id result hget => ?_, fun id ha => ?_, fun id hr => ?_,
    fun id stored hget => ?_, fun e he => ?_⟩
  · exact (H.cached id result (hlookup id result hget)).mono hcommands hmoments
  · unfold AttemptMade
    rw [hm.attempts]
    exact ha
  · rw [hm.results]
    exact hr
  · rw [hm.results] at hget
    exact (H.proven_now hget).mono hcommands (List.Subset.refl _)
  · obtain ⟨extra, heq, hforeign⟩ := hm.states
    rw [heq] at he
    rcases List.mem_append.mp he with he | he
    · exact (H.states e he).mono hcommands hmoments
    · exact fun id member state hid => absurd hid (hforeign e he id member)

theorem handlers_verified (ι : Type) :
    Verified (handlers ι).recorded Faithful (fun _ => witnessing) fun _ _ _ _ => True where
  inv _ _ hI := hI
  allow _ _ _ _ _ := trivial
  init := by
    rintro h ⟨hpast, inventory, info, hwsim, hconstruct, hnow⟩
    exact Faithful.init hpast hconstruct hnow
  starts := by
    rintro i h p _ hp
    cases hp
    exact faithful_processOne h
  call i o choice h hI hg _ :=
    ⟨(faithful_call hI hg choice).faithful hI, fun _ _ => (faithful_call hI hg choice).grown⟩
  crash i h hI _ :=
    have hidle := hI.idle rfl rfl rfl rfl
    ⟨hidle.faithful hI, fun _ _ => hidle.grown⟩
  env := by
    rintro h _ hI ⟨t, ht, rfl⟩
    exact ⟨(hI.meanwhile ht).faithful hI, fun _ => (hI.meanwhile ht).grown⟩

end System

/-! ## No false success -/

/-- The command was recorded as attempted and the success was not stored yet; the batch was in
effect, and the device had what every state says that the command published as active. -/
structure BearsOut (h : Chronicle World) (event : CommandEvent) (commands : List ConnectionCommand)
    (stored : StoredResult) (m : World) : Prop where
  attempted : AttemptMade m event.id
  unstored : m.syncd.hash (.applyResult event.id) ≠ some stored
  effect : InEffect m.hwsim commands
  shown : ∀ e ∈ h.now.syncd.stateEvents, ∀ member state, e.id = .command event.id member →
    e.connection = some state → state.applyStatus = .active →
      m.hwsim.connections[member]? = some (appliedOf state)

/-- A success is complete, one of the moments before it was stored bears it out, and its
publication does not fail for an omitted connection. -/
structure TrueSuccess (h : Chronicle World) (event : CommandEvent)
    (commands : List ConnectionCommand) (stored : StoredResult) (before : List World) : Prop where
  listed : Lists commands stored.result
  borneOut : ∃ m ∈ before, BearsOut h event commands stored m
  published : (publishState event stored.result 0 commands).Only fun o =>
    o ≠ .syncd (.raise omittedConnection)

section

variable {h : Chronicle World} {event : CommandEvent} {batch : DeviceCommandBatch}

theorem Faithful.shown (H : Faithful h) (hmem : event ∈ h.now.commands)
    (hdecode : decodeDeviceCommand event.payload = .ok batch) (hdistinct : Distinct batch.commands)
    {d : SimulatedOcsDevice CommandId} (heffect : InEffect d batch.commands) {e : StateEvent}
    (he : e ∈ h.now.syncd.stateEvents) {member : String} {state : ConnectionState}
    (hid : e.id = .command event.id member) (hstate : e.connection = some state)
    (hactive : state.applyStatus = .active) : d.connections[member]? = some (appliedOf state) := by
  obtain ⟨event', hmem', heq, -, batch', hdecode', c, hc, hop, rfl, hclaim⟩ :=
    H.states e he event.id member state hid hstate hactive
  cases List.inj_on_of_nodup_map H.commands hmem' hmem heq
  rw [hdecode] at hdecode'
  cases hdecode'
  rw [hclaim hdistinct]
  exact heffect.upserts c hc hop

theorem Faithful.trueSuccess (H : Faithful h) (hmem : event ∈ h.now.commands)
    (hdecode : decodeDeviceCommand event.payload = .ok batch) (hdistinct : Distinct batch.commands)
    {u : World} {before : List World} (hsuffix : u :: before <:+ h.moments)
    {stored : StoredResult} (hsuccess : Success u event.id stored) :
    TrueSuccess h event batch.commands stored before := by
  obtain ⟨hlists, m, hm, hattempt, hunstored, heffect⟩ :=
    H.moment hmem hdecode hdistinct hsuffix hsuccess
  have hpublishable : Publishable h event batch stored.result :=
    ⟨hmem, fun _ => ⟨batch, hdecode, rfl⟩, fun _ _ => hlists,
      fun _ => ⟨u, hsuffix.subset List.mem_cons_self, stored, hsuccess⟩⟩
  refine ⟨hlists, ⟨m, hm, hattempt, hunstored, heffect, fun e he member state => ?_⟩,
    hpublishable.never_omits hdecode hdistinct 0⟩
  exact H.shown hmem hdecode hdistinct heffect he

end

/-- Every success that was ever stored for a batch of distinct ids is a true one, a state is
published as active only for a stored success, and no handler comes to the exception of an
omitted connection unless a batch of the stream has one id twice. -/
theorem no_false_success {ι : Type} [DecidableEq ι]
    {c : Config Op Op.Reply Raised Bool (Chronicle World) ι}
    (h : Reachable (handlers ι).recorded c) :
    (∀ event ∈ c.world.now.commands, ∀ batch, decodeDeviceCommand event.payload = .ok batch →
      Distinct batch.commands →
        (∀ u before, u :: before <:+ c.world.moments → ∀ stored, Success u event.id stored →
          TrueSuccess c.world event batch.commands stored before) ∧
        ∀ e ∈ c.world.now.syncd.stateEvents, ∀ member state, e.id = .command event.id member →
          e.connection = some state → state.applyStatus = .active →
            ∃ u ∈ c.world.moments, ∃ stored, Success u event.id stored) ∧
    ∀ i since k, c.procs i = some ⟨since, .call (.syncd (.raise omittedConnection)) k⟩ →
      ∃ event ∈ c.world.now.commands, ∃ batch, decodeDeviceCommand event.payload = .ok batch ∧
        ¬Distinct batch.commands := by
  obtain ⟨hfaithful, hsafe⟩ := (handlers_verified ι).reachable h
  refine ⟨fun event hmem batch hdecode hdistinct => ⟨fun u before hsuffix stored hsuccess => ?_,
    fun e he member state hid hstate hactive => ?_⟩, fun i since k hi => ?_⟩
  · exact hfaithful.trueSuccess hmem hdecode hdistinct hsuffix hsuccess
  · obtain ⟨event', hmem', heq, ⟨u, hu, hstored⟩, -⟩ :=
      hfaithful.states e he event.id member state hid hstate hactive
    exact ⟨u, hu, hstored⟩
  · have hasks := (hsafe i _ hi c.world hfaithful (Grown.refl _)).1
    exact hasks rfl

/-- The history only watches: what a success lists holds of every run of the handlers. -/
theorem lists_of_success {ι : Type} [DecidableEq ι]
    {c : Config Op Op.Reply Raised Bool World ι} (h : Reachable (handlers ι) c)
    {event : CommandEvent} (hmem : event ∈ c.world.commands) {batch : DeviceCommandBatch}
    (hdecode : decodeDeviceCommand event.payload = .ok batch) (hdistinct : Distinct batch.commands)
    {stored : StoredResult} (hsuccess : Success c.world event.id stored) :
    Lists batch.commands stored.result := by
  obtain ⟨d, hd, rfl⟩ := h.recorded
  have hfaithful := (handlers_verified ι).invariant hd
  exact (hfaithful.trueSuccess hmem hdecode hdistinct (List.suffix_refl _) hsuccess).listed

/-! ## A lost reply -/

/-- Two connections of one command. -/
def pairCommand : CommandEvent where
  id := .config 0
  requestId := "0"
  device := "ocs1"
  resourceId := "a"
  operation := .applyBatch
  desiredVersion := 1
  payload := Orch.pairBatch

def pairPublished : Chronicle World :=
  ⟨[Orch.smallWorld], { Orch.smallWorld with commands := [pairCommand] }⟩

/-- The reply to the apply request is lost. -/
def losesReply : Op → Nat
  | .syncd (.applyConnections _ _) => 3
  | _ => 0

def lostReply : Service Bool × Chronicle World :=
  processOne.run execRecorded (processOne.schedule execRecorded losesReply 60 pairPublished)
    pairPublished

def idle (h : Chronicle World) : Config Op Op.Reply Raised Bool (Chronicle World) Unit :=
  ⟨h, fun _ => none⟩

theorem lostReply_reachable : Reachable (handlers Unit).recorded (idle lostReply.2) := by
  have hinit : Reachable (handlers Unit).recorded (idle ⟨[], Orch.smallWorld⟩) :=
    .init ⟨rfl, _, Orch.smallDevice.info, Orch.smallDevice, rfl, rfl⟩
  have hpublished : Reachable (handlers Unit).recorded (idle pairPublished) := by
    have hmeanwhile : Meanwhile Orch.smallWorld pairPublished.now := by
      refine ⟨List.nil_prefix, List.nodup_singleton _, .stays, fun _ => rfl, fun _ => rfl, [], rfl,
        fun e he => absurd he List.not_mem_nil⟩
    exact hinit.step (.env pairPublished ⟨pairPublished.now, hmeanwhile, rfl⟩)
  have hallow : processOne.along execRecorded (fun _ _ _ => True)
      (processOne.schedule execRecorded losesReply 60 pairPublished) pairPublished :=
    Prog.along_of_forall (fun _ _ _ => trivial) _ _ _
  exact hpublished.complete (i := ()) (a := true) rfl rfl _ hallow (by decide +kernel)

/-- The queries confirm what the lost reply said. -/
theorem no_false_success_lostReply :
    Reachable (handlers Unit).recorded (idle lostReply.2) ∧
      ∃ stored, Success lostReply.2.now pairCommand.id stored ∧
        TrueSuccess lostReply.2 pairCommand Orch.pairBatch.commands stored lostReply.2.past := by
  have hsome : ((lostReply.2.now.syncd.hash (.applyResult pairCommand.id)).map
      fun stored => stored.result.isOk) = some true := by decide +kernel
  obtain ⟨stored, hget, hok⟩ := Option.map_eq_some_iff.mp hsome
  have hmem : pairCommand ∈ lostReply.2.now.commands := by decide +kernel
  have hdecode : decodeDeviceCommand pairCommand.payload = .ok Orch.pairBatch := by decide +kernel
  have hdistinct : Distinct Orch.pairBatch.commands := by
    unfold Distinct
    decide +kernel
  have htrue := ((no_false_success lostReply_reachable).1 pairCommand hmem _ hdecode hdistinct).1
    lostReply.2.now lostReply.2.past (List.suffix_refl _) stored ⟨hget, hok⟩
  exact ⟨lostReply_reachable, stored, ⟨hget, hok⟩, htrue⟩

end MiniOcs.Syncd
