import MiniOcs.Cli
import MiniOcs.Concurrent.Journal
import MiniOcs.Orch.Announcements
import MiniOcs.Orch.Connections
import MiniOcs.Syncd.OneShots

/-!
# The whole control plane

Any number of orchestrators, syncds and clients, with crashes between any two operations and a
device that is disturbed, reset and started again. Three things hold whatever the order of the
steps is: nothing is issued, published as active or connected that no Set committed; a version of
APPL_DB never goes back; and STATE_DB and ALARM_DB can be read off their event streams.
-/
namespace MiniOcs.Cli
open Std Concurrent

/-! ## Contracts of all tasks -/

/-- The calls of a client. -/
def Remote : CliOp → Prop
  | .service _ => False
  | _ => True

theorem remote_waitForConnection (device id : String) (since : Option Nat)
    (last : Option ConnectionState) (rounds : Nat) :
    (waitForConnection device id since last rounds).Only Remote := by
  induction rounds generalizing last with
  | zero => trivial
  | succ rounds ih =>
      refine ⟨trivial, fun reply => ?_⟩
      dsimp only
      split
      · trivial
      · exact ih none
      · split_ifs
        · trivial
        · exact ih _

theorem remote_setOne (request : Request) : (setOne request).Only Remote := by
  refine Prog.Only.bind ⟨trivial, fun reply => ?_⟩ fun response => ?_
  · cases reply <;> trivial
  · split_ifs
    · exact (remote_waitForConnection _ _ _ _ _).bind fun _ => trivial
    · trivial

/-- What the calls of the services uphold. The calls of a client are free. -/
def Upholds (P : Op → Prop) : CliOp → Prop
  | .service o => P o
  | _ => True

def Learns (R : (o : Op) → o.Reply → Prop) : (o : CliOp) → o.Reply → Prop
  | .service o, reply => R o reply
  | _, _ => True

/-- What every program of the services upholds as long as the replies before it do. -/
structure Upheld (policy : Orch.ApplyRetryPolicy) (P : Op → Prop) (R : (o : Op) → o.Reply → Prop) :
    Prop where
  config : Orch.processConfigOne.Given P R fun _ => True
  result : (Orch.processResultOne policy).Given P R fun _ => True
  retry : Orch.processRetryOne.Given P R fun _ => True
  start : Syncd.initializeService.Given P R fun _ => True
  command : Syncd.processOne.Given P R fun _ => True
  poll : Syncd.pollDevice.Given P R fun _ => True

/-- What such calls keep, and what their replies then say. The rest of the world is free. -/
structure Keeps (I : World → Prop) (P : Op → Prop) (R : (o : Op) → o.Reply → Prop) : Prop where
  init : ∀ inventory hwsim, I { inventory := inventory, hwsim := hwsim }
  exec : ∀ o choice w, I w → P o → I (MiniOcs.exec o choice w).2
  reply : ∀ o choice w, I w → R o (MiniOcs.exec o choice w).1
  config : ∀ w db, I w → I { w with config := db }
  device : ∀ w d, I w → I { w with hwsim := d }
  forget : ∀ w, I w → I (Syncd.forget w)

def upholding (I : World → Prop) (P : Op → Prop) : Contract CliOp World where
  inv := I
  rely _ _ := True
  guard o _ := Upholds P o
  allow _ _ _ := True
  refl _ := trivial
  trans _ _ := trivial

theorem given_embed_upholds {P : Op → Prop} {R : (o : Op) → o.Reply → Prop} {p : Service Bool}
    (h : p.Given P R fun _ => True) : (embed p).Given (Upholds P) (Learns R) fun _ => True := by
  induction p with
  | pure more => trivial
  | throw e => trivial
  | call o k ih => exact ⟨h.1, fun r hr => ih r (h.2 r hr)⟩

section Upholding

variable {policy : Orch.ApplyRetryPolicy} {allow : CliOp → Nat → World → Prop} {I : World → Prop}
  {P : Op → Prop} {R : (o : Op) → o.Reply → Prop}

theorem Upheld.given (h : Upheld policy P R) {i : Task} {s : World} {p : Client Answer}
    (hp : (controlPlane policy allow).starts i s p) :
    p.Given (Upholds P) (Learns R) fun _ => True := by
  cases i with
  | orch n =>
      rcases hp with rfl | rfl | rfl
      · exact given_embed_upholds h.config
      · exact given_embed_upholds h.result
      · exact given_embed_upholds h.retry
  | syncd n =>
      rcases hp with rfl | rfl | rfl
      · exact given_embed_upholds h.start
      · exact given_embed_upholds h.command
      · exact given_embed_upholds h.poll
  | client n =>
      obtain ⟨request, -, rfl⟩ := hp
      refine ((remote_setOne request).mono fun o ho => ?_).given
      cases o with
      | service o => exact ho.elim
      | _ => trivial

theorem Keeps.setConfig (h : Keeps I P R) {w : World} (hw : I w) (plan : Gnmi.SetPlan)
    (timestampNs eventId : Nat) : I (Cli.setConfig w plan timestampNs eventId).2 := by
  rcases setConfig_cases w plan timestampNs eventId with ⟨heq, -⟩ | ⟨candidate, db, -, -, heq⟩
  · rw [heq]
    exact hw
  · rw [heq]
    exact h.config w db hw

theorem Keeps.call (h : Keeps I P R) {w : World} (hw : I w) {o : CliOp} (ho : Upholds P o)
    (choice : Nat) : I (o.exec choice w).2 := by
  cases o with
  | service o => exact h.exec o choice w hw ho
  | set plan timestampNs eventId =>
      have hset := h.setConfig hw plan timestampNs eventId
      rcases choice with _ | _ | choice
      · exact hset
      · exact hset
      · exact hw
  | getState device id since =>
      rw [getState_world]
      exact hw

theorem Keeps.learns (h : Keeps I P R) {w : World} (hw : I w) (o : CliOp) (choice : Nat) :
    Learns R o (o.exec choice w).1 := by
  cases o with
  | service o => exact h.reply o choice w hw
  | _ => trivial

theorem Keeps.around (h : Keeps I P R) {s t : World} (hs : I s) (ha : Around s t) : I t := by
  cases ha with
  | commit _ => exact h.config s _ hs
  | device _ _ => exact h.device s _ hs
  | restart _ => exact h.device s _ hs

/-- Programs that uphold it and a world that keeps it: it holds in every run. -/
theorem Upheld.verified (hp : Upheld policy P R) (hk : Keeps I P R) :
    Verified (controlPlane policy allow) I (fun _ => upholding I P) fun _ _ _ _ => True where
  inv _ _ h := h
  allow _ _ _ _ _ := trivial
  init := by
    rintro w ⟨inventory, info, hwsim, -, rfl⟩
    exact hk.init inventory hwsim
  starts i s p _ hstart := by
    refine Safe.of_given (P := fun _ => Upholds P) (R := fun _ => Learns R) (fun _ _ _ ho => ho)
      (fun t o choice ht ho _ => ⟨trivial, hk.learns ht o choice⟩) (fun _ _ _ _ _ hr => hr)
      fun _ _ _ => hp.given hstart
  call _ o choice s hs ho _ := ⟨hk.call hs ho choice, fun _ _ => trivial⟩
  crash i s hs _ := by
    cases i with
    | syncd n => exact ⟨hk.forget s hs, fun _ _ => trivial⟩
    | _ => exact ⟨hs, fun _ _ => trivial⟩
  env _ _ hs ht := ⟨hk.around hs ht, fun _ => trivial⟩

end Upholding

/-! ## Nothing is invented -/

/-- What stands in the streams, the databases and the device was asked for by a committed Set. -/
structure Authorised (w : World) : Prop where
  issued : ∀ event ∈ w.commands, ∀ c ∈ event.payload.commands, Logged w.config.events c
  distinct : (w.commands.map (·.id)).Nodup
  intended : ∀ copy id a, (w.orch.table copy)[id]? = some a → Intended w.config.events id a
  vouched : ∀ (id : String) state, w.syncd.state[id]? = some state → Vouched w.config.events id state
  connected : FromUpsert (Logged w.config.events) w.hwsim.connections

theorem fromUpsert_fold {upserts : ConnectionCommand → Prop}
    {table : ExtTreeMap String AppliedConnection} (h : FromUpsert upserts table)
    {batch : List ConnectionCommand} (hall : ∀ c ∈ batch, c.operation = .upsert → upserts c) :
    FromUpsert upserts (foldCommands table batch) := by
  induction batch generalizing table with
  | nil => exact h
  | cons c rest ih =>
      suffices hedit : FromUpsert upserts (editCommand table c) from
        ih hedit fun c' hc' => hall c' (List.mem_cons_of_mem _ hc')
      intro id x hx
      rw [getElem?_editCommand] at hx
      split_ifs at hx
      · have hc := hall c List.mem_cons_self
        obtain ⟨operation, id', inputPort, outputPort, version⟩ := c
        cases operation with
        | remove => cases hx
        | upsert =>
            cases hx
            exact hc rfl
      · exact h id x hx

theorem fromUpsert_mono {upserts upserts' : ConnectionCommand → Prop}
    {table : ExtTreeMap String AppliedConnection} (h : FromUpsert upserts table)
    (hsub : ∀ c, upserts c → upserts' c) : FromUpsert upserts' table :=
  fun id x hx => hsub _ (h id x hx)

theorem connections_construct {info : DeviceInfo} {d : SimulatedOcsDevice CommandId}
    (h : SimulatedOcsDevice.construct info = some (.ok d)) : d.connections = ∅ := by
  unfold SimulatedOcsDevice.construct at h
  split at h
  · split_ifs at h
    · cases h
    · cases h
      rfl
  · cases h

theorem fromUpsert_empty (upserts : ConnectionCommand → Prop) : FromUpsert upserts ∅ := by
  intro id x hx
  simp at hx

open SimulatedOcsDevice in
/-- Whatever an apply replies, the matrix holds what it held or what the batch asks for. -/
theorem fromUpsert_apply {d : SimulatedOcsDevice CommandId} (hsound : d.Sound)
    {upserts : ConnectionCommand → Prop} (h : FromUpsert upserts d.connections)
    {batch : List ConnectionCommand} (hall : ∀ c ∈ batch, c.operation = .upsert → upserts c)
    {options : ApplyOptions CommandId} {r : ApplyResult × SimulatedOcsDevice CommandId}
    (hr : d.applyConnections batch options = .ok r) : FromUpsert upserts r.2.connections := by
  cases hcached : d.cachedResult options with
  | some cached =>
      simp only [SimulatedOcsDevice.applyConnections, hcached, Except.ok.injEq] at hr
      subst hr
      exact h
  | none =>
      obtain ⟨r', hr', hout⟩ := hsound.outcome batch hcached
      rw [hr] at hr'
      cases hr'
      cases hout with
      | refused _ _ =>
          rw [(finish_same d options _).connections]
          exact h
      | injected _ _ _ harmed =>
          rw [(disarm_kept (finish_same d.disarm options _)).connections]
          exact h
      | applied _ _ _ _ =>
          rw [(finish_same _ options _).connections]
          exact fromUpsert_fold h hall

theorem fromUpsert_exec {w : World} (hw : Grounded w)
    (h : FromUpsert (Logged w.config.events) w.hwsim.connections) {o : Op}
    (ha : Asks w.config.events w.commands o) (choice : Nat) :
    FromUpsert (Logged w.config.events) (MiniOcs.exec o choice w).2.hwsim.connections := by
  by_cases happly : ∀ commands options, o ≠ .syncd (.applyConnections commands options)
  · rw [Syncd.hwsim_exec o choice w happly]
    exact h
  · push Not at happly
    obtain ⟨batch, options, rfl⟩ := happly
    obtain ⟨id, hop, hissued⟩ := ha
    obtain ⟨r, hr, -, -⟩ := hw.device.apply hw.stream.issuable hw.stream.nodup hop hissued
    obtain ⟨event, hmem, -, rfl⟩ := hissued
    have hsourced := (hw.stream.issuable event hmem).sourced
    rcases (applyOverLink_cases hr choice).1 with heq | heq
    · simpa only [MiniOcs.exec, SyncdOp.exec, heq] using h
    · simp only [MiniOcs.exec, SyncdOp.exec, heq]
      exact fromUpsert_apply hw.device.sound h (fun c hc _ => hsourced.logged c hc) hr

theorem fromUpsert_around {s t : World} (hs : Grounded s)
    (h : FromUpsert (Logged s.config.events) s.hwsim.connections) (ha : Around s t) :
    FromUpsert (Logged t.config.events) t.hwsim.connections := by
  cases ha with
  | commit hc =>
      exact fromUpsert_mono h fun c hlogged => hlogged.mono (hs.commit hc).2.events
  | @device call d hne hrun =>
      cases hreset : call.isReset with
      | true =>
          cases call with
          | reset mode =>
              simp only [SimulatedOcsDevice.Call.run, SimulatedOcsDevice.reset] at hrun
              split at hrun
              · cases hrun
                exact fromUpsert_empty _
              · cases hrun
          | _ => cases hreset
      | false =>
          obtain ⟨d', hrun', hcases⟩ := hs.device.sound.call_cases hreset
          rw [hrun] at hrun'
          cases hrun'
          rcases hcases with ⟨-, hdist⟩ | ⟨commands, options, heq, -⟩
          · exact fun id x hx => h id x (hdist.connections id x hx)
          · exact absurd heq (hne commands options)
  | restart hd =>
      intro id x hx
      rw [connections_construct hd] at hx
      exact fromUpsert_empty _ id x hx

theorem setConfig_hwsim (w : World) (plan : Gnmi.SetPlan) (timestampNs eventId : Nat) :
    (setConfig w plan timestampNs eventId).2.hwsim = w.hwsim := by
  rcases setConfig_cases w plan timestampNs eventId with ⟨heq, -⟩ | ⟨candidate, db, -, -, heq⟩
  · rw [heq]
  · rw [heq]

section Provenance

variable {policy : Orch.ApplyRetryPolicy} {allow : CliOp → Nat → World → Prop}

/-- The contract of the wait for a connection is that of every run. -/
theorem controlPlane_grounded :
    Verified (controlPlane policy allow) Grounded (fun _ => contract allow) fun _ _ _ _ => True where
  inv _ _ h := h
  allow _ _ _ _ h := h
  init := by
    rintro w ⟨inventory, info, hwsim, hconstruct, rfl⟩
    exact .init hconstruct
  starts i s p _ hp := by
    cases i with
    | orch n => exact safe_services policy (.inl hp) s
    | syncd n => exact safe_services policy (.inr hp) s
    | client n =>
        obtain ⟨request, -, rfl⟩ := hp
        refine Safe.of_only (K := fun _ => True) (remote_setOne request) (fun _ _ _ _ => trivial)
          (fun o _ ho _ _ => ?_) (fun _ _ _ _ _ _ _ => trivial) trivial
        cases o with
        | service o => exact ho.elim
        | _ => trivial
  call _ o choice s hs hguard _ := by
    obtain ⟨hgrounded, hgrows⟩ := grounded_exec hs hguard choice
    exact ⟨hgrounded, fun _ _ => hgrows⟩
  crash i s hs _ := by
    cases i with
    | syncd n => exact ⟨hs.setSyncd rfl hs.syncd.state, fun _ _ => .of_eq rfl rfl⟩
    | _ => exact ⟨hs, fun _ _ => .refl s⟩
  env s t hs ht := by
    obtain ⟨hgrounded, hgrows⟩ := grounded_around hs ht
    exact ⟨hgrounded, fun _ => hgrows⟩

theorem controlPlane_connected {c : Config CliOp CliOp.Reply Failure Answer World Task}
    (h : Reachable (controlPlane policy allow) c) :
    FromUpsert (Logged c.world.config.events) c.world.hwsim.connections := by
  refine controlPlane_grounded.extend
    (J := fun w => FromUpsert (Logged w.config.events) w.hwsim.connections) ?_ ?_ ?_ ?_ h
  · rintro w ⟨inventory, info, hwsim, hconstruct, rfl⟩
    intro id x hx
    rw [connections_construct hconstruct] at hx
    exact fromUpsert_empty _ id x hx
  · intro i o choice s hs hconnected hguard hallow
    cases o with
    | service o =>
        refine fromUpsert_mono (fromUpsert_exec hs hconnected hguard choice) fun c hlogged => ?_
        exact hlogged.mono (grows_exec o choice s).events
    | set plan timestampNs eventId =>
        have hgrows := (grounded_setConfig hs plan timestampNs eventId).2
        have hset : FromUpsert (Logged (setConfig s plan timestampNs eventId).2.config.events)
            (setConfig s plan timestampNs eventId).2.hwsim.connections := by
          rw [setConfig_hwsim]
          exact fromUpsert_mono hconnected fun c hlogged => hlogged.mono hgrows.events
        rcases choice with _ | _ | choice
        · exact hset
        · exact hset
        · exact hconnected
    | getState device id since =>
        have hworld : ((controlPlane policy allow).exec (.getState device id since) choice s).2 = s :=
          getState_world device id since choice s
        rw [hworld]
        exact hconnected
  · intro i s hs hconnected hcut
    cases i <;> exact hconnected
  · exact fun s t hs hconnected ht => fromUpsert_around hs hconnected ht

/-- In every reachable state: each upsert that was issued, that APPL_DB or DEVICE_DB intends, that
STATE_DB shows as active or that the device holds stands in the configuration log with its ports
and its version, and no command was issued twice. -/
theorem controlPlane_authorised {c : Config CliOp CliOp.Reply Failure Answer World Task}
    (h : Reachable (controlPlane policy allow) c) : Authorised c.world := by
  have hgrounded := controlPlane_grounded.invariant h
  exact {
    issued := fun event hmem => (hgrounded.stream.issuable event hmem).sourced.logged
    distinct := hgrounded.stream.nodup
    intended := hgrounded.orch.table
    vouched := hgrounded.syncd.state
    connected := controlPlane_connected h }

end Provenance

theorem firstActive_reachable : Reachable (controlPlane {} fun _ _ _ => True)
    ⟨firstActive, fun _ => none⟩ := by
  have hset := ranAlone_complete (i := .client 0) (reachable_smallWorld fun _ _ _ => True) rfl
    (p := setOne (replaceA 0 1 false))
    ⟨_, by decide +kernel, rfl⟩ (Prog.along_of_forall (fun _ _ _ => trivial) _ _ _)
    (a := .set ⟨replaceA 0 1 false, ⟨0, (replaceA 0 1 false).plan.operations, some 1⟩, none⟩)
    (by decide +kernel)
  exact servedBy_reachable hset rfl rfl (fun _ _ _ => trivial) (by decide +kernel)
    (by decide +kernel) (by decide +kernel)

theorem controlPlane_authorised_firstActive :
    firstActive.hwsim.connections["a"]? = some ⟨"a", 1, 1, 1⟩ ∧ Authorised firstActive :=
  ⟨by decide +kernel, controlPlane_authorised firstActive_reachable⟩

/-! ## Versions of APPL_DB -/

/-- Every connection keeps its hash, at the same version or a newer one. -/
def NoOlder (table table' : Table) : Prop :=
  ∀ (id : String) a, table[id]? = some a →
    ∃ a', table'[id]? = some a' ∧ a.desiredVersion ≤ a'.desiredVersion

theorem NoOlder.refl (table : Table) : NoOlder table table := fun _ a h => ⟨a, h, le_rfl⟩

theorem NoOlder.trans {t t' t'' : Table} (h : NoOlder t t') (h' : NoOlder t' t'') :
    NoOlder t t'' := by
  intro id a ha
  obtain ⟨a', ha', hle⟩ := h id a ha
  obtain ⟨a'', ha'', hle'⟩ := h' id a' ha'
  exact ⟨a'', ha'', hle.trans hle'⟩

theorem noOlder_putEntries {table : Table} {entries : List (String × Option Application)}
    (hentries : ∀ entry ∈ entries, ∃ a, entry.2 = some a ∧
      ∀ old, table[entry.1]? = some old → old.desiredVersion ≤ a.desiredVersion) :
    NoOlder table (entries.foldl (fun t entry => putEntry t entry.1 entry.2) table) := by
  -- the fold over the table that was read: each entry is at least the version it read
  suffices h : ∀ current, NoOlder table current →
      NoOlder table (entries.foldl (fun t entry => putEntry t entry.1 entry.2) current) from
    h table (.refl table)
  induction entries with
  | nil => exact fun current h => h
  | cons entry rest ih =>
      intro current hcurrent
      refine ih (fun e he => hentries e (List.mem_cons_of_mem _ he)) _ fun id old hold => ?_
      obtain ⟨a, ha, hle⟩ := hentries entry List.mem_cons_self
      rw [getElem?_putEntry]
      split_ifs with heq
      · subst heq
        exact ⟨a, ha, hle old hold⟩
      · exact hcurrent id old hold

theorem noOlder_putVersioned {table : Table} {version : Nat}
    {hashes : List (String × Option Application)} (hmatch : versionsMatch version hashes = true)
    (hpresent : Orch.present hashes) : NoOlder table (putVersioned table version hashes) := by
  refine noOlder_putEntries fun entry hmem => ?_
  obtain ⟨hmem, hnewer⟩ := mem_publishable.mp hmem
  obtain ⟨a, ha⟩ := Option.isSome_iff_exists.mp (hpresent entry hmem)
  have hversion := List.all_eq_true.mp hmatch entry hmem
  rw [ha] at hversion
  refine ⟨a, ha, fun old hold => ?_⟩
  rw [of_decide_eq_true hversion]
  exact hnewer old hold

/-! ## What the services write -/

/-- APPL_DB goes forward, and every state and alarm is announced. -/
def Declares : Op → Prop
  | .orch o => Orch.Forward o ∧ Orch.Announces o
  | .syncd o => Syncd.Announces o

def Recounted : (o : Op) → o.Reply → Prop
  | .orch o, reply => Orch.Recounts o reply
  | .syncd o, reply => Syncd.Recounts o reply

theorem given_orch {p : Service Bool} (hforward : Orch.Advances (fun _ => True) p)
    (hannounced : Orch.Announced p) : p.Given Declares Recounted fun _ => True := by
  have hforward' : p.Given _ Recounted _ := hforward.assume fun _ _ _ => trivial
  have hannounced' : p.Given _ Recounted _ := hannounced.assume fun o reply hr => by
    cases o with
    | orch o => exact hr
    | syncd o => trivial
  refine ((hforward'.and hannounced').permit fun o ho => ?_).mono fun _ _ => trivial
  cases o with
  | orch o => exact ho
  | syncd o => exact ho.1.elim

theorem given_syncd {p : Service Bool} (hannounced : Syncd.Announced p) :
    p.Given Declares Recounted fun _ => True := by
  refine (hannounced.assume fun o reply hr => ?_).permit fun o ho => ?_
  · cases o with
    | orch o => trivial
    | syncd o => exact hr
  · cases o with
    | orch o => exact ho.elim
    | syncd o => exact ho

theorem upheld_declares (policy : Orch.ApplyRetryPolicy) : Upheld policy Declares Recounted where
  config := given_orch Orch.advances_processConfigOne Orch.announced_processConfigOne
  result := given_orch (Orch.advances_processResultOne policy) (Orch.announced_processResultOne policy)
  retry := given_orch Orch.advances_processRetryOne Orch.announced_processRetryOne
  start := given_syncd Syncd.announced_initializeService
  command := given_syncd Syncd.announced_processOne
  poll := given_syncd Syncd.announced_pollDevice

/-! ## Tables that are journals -/

def World.activeAlarm (w : World) : AlarmId → Option Alarm
  | .applyTimeout connection => w.orch.hash (.activeAlarm connection)
  | .desiredActualDrift => w.syncd.hash (.activeAlarm .desiredActualDrift)
  | .portDown direction port => w.syncd.hash (.activeAlarm (.portDown direction port))

/-- What the state events say last of a connection. -/
def lastState? (events : List StateEvent) (id : String) : Option ConnectionState :=
  lastSaid (fun event => event.id.about) StateEvent.connection events id

/-- What the alarm events say last of an alarm. -/
def lastAlarm? (events : List AlarmEvent) (id : AlarmId) : Option Alarm :=
  lastSaid (fun event => some event.alarm.id) AlarmEvent.leaves events id

structure Journaled (w : World) : Prop where
  states : ∀ id : String, w.syncd.state[id]? = lastState? w.syncd.stateEvents id
  recorded : ∀ (id : String) s, w.syncd.state[id]? = some s → WellRecorded id s
  alarms : ∀ id, World.activeAlarm w id = lastAlarm? w.alarmEvents id
  raised : ∀ id alarm, World.activeAlarm w id = some alarm → alarm.id = id ∧ alarm.active = true
  foreign : ∀ connection, w.syncd.hash (.activeAlarm (.applyTimeout connection)) = none

section Journals

variable {w w' : World}

/-- Only the two tables and their streams matter. -/
theorem Journaled.frame (h : Journaled w) (hstate : w'.syncd.state = w.syncd.state)
    (hevents : w'.syncd.stateEvents = w.syncd.stateEvents) (halarms : w'.alarmEvents = w.alarmEvents)
    (horch : ∀ connection,
      w'.orch.hash (.activeAlarm connection) = w.orch.hash (.activeAlarm connection))
    (hsyncd : ∀ id, w'.syncd.hash (.activeAlarm id) = w.syncd.hash (.activeAlarm id)) :
    Journaled w' := by
  have hactive : World.activeAlarm w' = World.activeAlarm w := by
    funext id
    cases id with
    | applyTimeout connection => exact horch connection
    | desiredActualDrift => exact hsyncd _
    | portDown direction port => exact hsyncd _
  exact {
    states := fun id => by rw [hstate, hevents]; exact h.states id
    recorded := fun id s hs => h.recorded id s (hstate ▸ hs)
    alarms := fun id => by rw [hactive, halarms]; exact h.alarms id
    raised := fun id alarm halarm => h.raised id alarm (hactive ▸ halarm)
    foreign := fun connection => (hsyncd _).trans (h.foreign connection) }

theorem Journaled.mark (h : Journaled w) {k : OrchKey} (v : OrchHash k)
    (hk : Orch.isActiveAlarm k = false) : Journaled (w.mark k v) := by
  refine h.frame rfl rfl rfl (fun connection => ?_) fun _ => rfl
  rw [World.mark_hash_of_ne]
  rintro rfl
  cases hk

theorem Journaled.markSyncd (h : Journaled w) {k : SyncdKey} (v : SyncdHash k)
    (hk : Syncd.isActiveAlarm k = false) : Journaled (w.markSyncd k v) := by
  refine h.frame rfl rfl rfl (fun _ => rfl) fun id => ?_
  rw [World.markSyncd_hash_of_ne]
  rintro rfl
  cases hk

theorem Journaled.once (h : Journaled w) {marker : OrchKey} {fields : OrchHash marker}
    {write : World → World} (hk : Orch.isActiveAlarm marker = false) (hwrite : Journaled (write w)) :
    Journaled (w.once marker fields write).2 := by
  unfold World.once
  split_ifs
  · exact h
  · exact hwrite.mark fields hk

theorem Journaled.onceSyncd (h : Journaled w) {marker : SyncdKey} {fields : SyncdHash marker}
    {write : World → World} (hk : Syncd.isActiveAlarm marker = false)
    (hwrite : Journaled (write w)) : Journaled (w.onceSyncd marker fields write).2 := by
  unfold World.onceSyncd
  split_ifs
  · exact h
  · exact hwrite.markSyncd fields hk

/-- A state goes into the table together with its event. -/
theorem Journaled.publish (h : Journaled w) {id : String} {state : Option ConnectionState}
    {event : StateEvent} (habout : event.id.about = some id) (hcarries : event.connection = state)
    (hrecorded : ∀ s, state = some s → WellRecorded id s) :
    Journaled (w.setSyncd { w.syncd with
      state := putEntry w.syncd.state id state
      stateEvents := w.syncd.stateEvents ++ [event] }) where
  states id' := by
    change (putEntry w.syncd.state id state)[id']? = lastState? (w.syncd.stateEvents ++ [event]) id'
    rw [getElem?_putEntry]
    split_ifs with hid
    · subst hid
      rw [lastState?, lastSaid_concat, if_pos habout, hcarries]
    · refine (h.states id').trans (lastSaid_concat_other fun heq => hid ?_).symm
      exact Option.some.inj (heq.symm.trans habout)
  recorded id' s hs := by
    change (putEntry w.syncd.state id state)[id']? = some s at hs
    rw [getElem?_putEntry] at hs
    split_ifs at hs with hid
    · subst hid
      exact hrecorded s hs
    · exact h.recorded id' s hs
  alarms := h.alarms
  raised := h.raised
  foreign := h.foreign

/-- So does an alarm, wherever it is kept. -/
theorem Journaled.raise (h : Journaled w) {id : AlarmId} {alarm : Option Alarm} {event : AlarmEvent}
    (htold : ToldAlarm id alarm event) (hstate : w'.syncd.state = w.syncd.state)
    (hevents : w'.syncd.stateEvents = w.syncd.stateEvents)
    (halarms : w'.alarmEvents = w.alarmEvents ++ [event])
    (hactive : ∀ id', World.activeAlarm w' id' = if id' = id then alarm else World.activeAlarm w id')
    (hforeign : ∀ connection, w'.syncd.hash (.activeAlarm (.applyTimeout connection)) = none) :
    Journaled w' where
  states id' := by rw [hstate, hevents]; exact h.states id'
  recorded id' s hs := h.recorded id' s (hstate ▸ hs)
  alarms id' := by
    rw [hactive, halarms]
    split_ifs with hid
    · subst hid
      rw [lastAlarm?, lastSaid_concat, if_pos (congrArg some htold.about), htold.leaves]
    · refine (h.alarms id').trans (lastSaid_concat_other fun heq => hid ?_).symm
      exact (Option.some.inj heq).symm.trans htold.about
  raised id' a ha := by
    rw [hactive] at ha
    split_ifs at ha with hid
    · subst hid
      refine ⟨?_, htold.active a ha⟩
      have hleaves := htold.leaves.trans ha
      unfold AlarmEvent.leaves at hleaves
      split at hleaves
      · cases hleaves
        exact htold.about
      · cases hleaves
    · exact h.raised id' a ha
  foreign := hforeign

theorem Journaled.execOrch (h : Journaled w) {o : OrchOp} (ho : Orch.Announces o) (choice : Nat) :
    Journaled (o.exec choice w).2 := by
  cases o with
  | readGroup g => cases g <;> exact h.frame rfl rfl rfl (fun _ => rfl) fun _ => rfl
  | xack g n => cases g <;> exact h.frame rfl rfl rfl (fun _ => rfl) fun _ => rfl
  | putHashIfAbsent k v => exact h.once ho h
  | putVersionedHashes copy marker fields version hashes =>
      simp only [OrchOp.exec]
      split_ifs
      · exact h
      · exact h
      · have htable : Journaled (w.setOrch (w.orch.setTable copy
            (putVersioned (w.orch.table copy) version hashes))) := by
          cases copy <;> exact h.frame rfl rfl rfl (fun _ => rfl) fun _ => rfl
        exact htable.mark fields ho
  | appendCommandOnce marker fields event =>
      exact h.once ho (h.frame rfl rfl rfl (fun _ => rfl) fun _ => rfl)
  | appendRetryOnce marker fields event =>
      exact h.once ho (h.frame rfl rfl rfl (fun _ => rfl) fun _ => rfl)
  | replaceAlarmOnce marker fields connection alarm event =>
      refine h.once ho.1 (h.raise ho.2 rfl rfl rfl (fun id' => ?_) h.foreign)
      cases id' with
      | applyTimeout connection' =>
          by_cases hsame : connection' = connection
          · subst hsame
            simp [World.activeAlarm]
          · rw [if_neg (by simpa using hsame)]
            exact Function.update_of_ne (by simpa using hsame) _ _
      | _ => rfl
  | incrementOnce marker fields increments =>
      exact h.once ho (h.frame rfl rfl rfl (fun _ => rfl) fun _ => rfl)
  | _ => exact h

theorem Journaled.putEntries (h : Journaled w) {entries : List ((k : SyncdKey) × SyncdHash k)}
    (hall : ∀ entry ∈ entries, Syncd.isActiveAlarm entry.1 = false) :
    Journaled (w.putEntries entries) := by
  induction entries generalizing w with
  | nil => exact h
  | cons entry rest ih =>
      rw [putEntries_cons]
      exact ih (h.markSyncd entry.2 (hall entry List.mem_cons_self))
        fun e he => hall e (List.mem_cons_of_mem _ he)

theorem Journaled.execSyncd (h : Journaled w) {o : SyncdOp} (ho : Syncd.Announces o)
    (choice : Nat) : Journaled (o.exec choice w).2 := by
  cases o with
  | readGroup => exact h.frame rfl rfl rfl (fun _ => rfl) fun _ => rfl
  | xack n => exact h.frame rfl rfl rfl (fun _ => rfl) fun _ => rfl
  | remember name generation => exact h.frame rfl rfl rfl (fun _ => rfl) fun _ => rfl
  | applyConnections commands options => exact h.frame rfl rfl rfl (fun _ => rfl) fun _ => rfl
  | putHash k v => exact h.markSyncd v ho
  | putHashIfAbsent k v => exact h.onceSyncd ho h
  | putHashesAtomically entries => exact h.putEntries ho
  | replaceHashAndAppendEvent k v event =>
      have hmarked := h.markSyncd v ho.1
      refine { hmarked with states := fun id => ?_ }
      refine (h.states id).trans (lastSaid_concat_other ?_).symm
      rw [ho.2]
      nofun
  | replaceStateOnce marker fields id state event =>
      exact h.onceSyncd ho.1 (h.publish ho.2.1 ho.2.2.1 ho.2.2.2)
  | replaceAlarmOnce marker fields id alarm event =>
      obtain ⟨hmarker, hraises, htold⟩ := ho
      refine h.onceSyncd hmarker (h.raise htold rfl rfl rfl (fun id' => ?_) fun connection => ?_)
      · -- a time-out alarm is kept by the orchestrator
        have hupdate : ∀ other : AlarmId,
            Function.update w.syncd.hash (.activeAlarm id) alarm (.activeAlarm other) =
              if other = id then alarm else w.syncd.hash (.activeAlarm other) := by
          intro other
          split_ifs with hother
          · subst hother
            exact Function.update_self _ _ _
          · exact Function.update_of_ne (by simpa using hother) _ _
        cases id' with
        | applyTimeout connection =>
            rw [if_neg fun hid => by rw [← hid] at hraises; cases hraises]
            rfl
        | desiredActualDrift => exact hupdate _
        | portDown direction port => exact hupdate _
      · refine (Function.update_of_ne ?_ _ _).trans (h.foreign connection)
        rintro ⟨⟩
        cases hraises
  | appendResultOnce marker fields event =>
      exact h.onceSyncd ho (h.frame rfl rfl rfl (fun _ => rfl) fun _ => rfl)
  | appendCommandOnce marker fields event =>
      exact h.onceSyncd ho (h.frame rfl rfl rfl (fun _ => rfl) fun _ => rfl)
  | incrementOnce marker fields update =>
      exact h.onceSyncd ho (h.frame rfl rfl rfl (fun _ => rfl) fun _ => rfl)
  | _ => exact h

theorem Journaled.recountsOrch (h : Journaled w) (o : OrchOp) (choice : Nat) :
    Orch.Recounts o (o.exec choice w).1 := by
  cases o with
  | getHash k =>
      intro v hv
      cases k with
      | activeAlarm connection => exact (h.raised (.applyTimeout connection) v hv).1
      | _ => trivial
  | _ => trivial

theorem Journaled.recountsSyncd (h : Journaled w) (o : SyncdOp) (choice : Nat) :
    Syncd.Recounts o (o.exec choice w).1 := by
  cases o with
  | getState id => exact h.recorded id
  | getHash k =>
      intro v hv
      cases k with
      | activeAlarm id =>
          cases id with
          | applyTimeout connection => exact absurd (hv.symm.trans (h.foreign connection)) nofun
          | desiredActualDrift => exact (h.raised .desiredActualDrift v hv).1
          | portDown direction port => exact (h.raised (.portDown direction port) v hv).1
      | _ => trivial
  | _ => trivial

theorem keeps_journaled : Keeps Journaled Declares Recounted where
  init inventory hwsim := {
    states := fun id => by simp [lastState?]
    recorded := fun id s hs => by simp at hs
    alarms := fun id => by cases id <;> rfl
    raised := fun id alarm halarm => by cases id <;> cases halarm
    foreign := fun _ => rfl }
  exec o choice w hw ho := by
    cases o with
    | orch o => exact hw.execOrch ho.2 choice
    | syncd o => exact hw.execSyncd ho choice
  reply o choice w hw := by
    cases o with
    | orch o => exact hw.recountsOrch o choice
    | syncd o => exact hw.recountsSyncd o choice
  config w db hw := hw.frame rfl rfl rfl (fun _ => rfl) fun _ => rfl
  device w d hw := hw.frame rfl rfl rfl (fun _ => rfl) fun _ => rfl
  forget w hw := hw.frame rfl rfl rfl (fun _ => rfl) fun _ => rfl

end Journals

theorem noOlder_execOrch {o : OrchOp} (ho : Orch.Forward o) (choice : Nat) (w : World) :
    NoOlder w.orch.appl (o.exec choice w).2.orch.appl := by
  have honce : ∀ {marker : OrchKey} {fields : OrchHash marker} {write : World → World},
      (write w).orch.appl = w.orch.appl →
        NoOlder w.orch.appl (w.once marker fields write).2.orch.appl := by
    intro marker fields write hwrite
    rw [Orch.once_appl hwrite]
    exact .refl _
  cases o with
  | putVersionedHashes copy marker fields version hashes =>
      simp only [OrchOp.exec]
      split_ifs with hmarked hmatch
      · exact .refl _
      · exact .refl _
      · cases copy with
        | appl => exact noOlder_putVersioned (by simpa using hmatch) ho
        | device => exact .refl _
  | putHashIfAbsent k v => exact honce rfl
  | appendCommandOnce marker fields event => exact honce rfl
  | appendRetryOnce marker fields event => exact honce rfl
  | replaceAlarmOnce marker fields connection alarm event => exact honce rfl
  | incrementOnce marker fields increments => exact honce rfl
  | readGroup g => cases g <;> exact .refl _
  | xack g n => cases g <;> exact .refl _
  | _ => exact .refl _

theorem orch_execSyncd (o : SyncdOp) (choice : Nat) (w : World) :
    (o.exec choice w).2.orch = w.orch := by
  have honce : ∀ {marker : SyncdKey} {fields : SyncdHash marker} {write : World → World},
      (write w).orch = w.orch → (w.onceSyncd marker fields write).2.orch = w.orch := by
    intro marker fields write hwrite
    unfold World.onceSyncd
    split_ifs
    · rfl
    · exact hwrite
  cases o with
  | putHashIfAbsent k v => exact honce rfl
  | replaceStateOnce marker fields id state event => exact honce rfl
  | replaceAlarmOnce marker fields id alarm event => exact honce rfl
  | appendResultOnce marker fields event => exact honce rfl
  | appendCommandOnce marker fields event => exact honce rfl
  | incrementOnce marker fields update => exact honce rfl
  | _ => rfl

theorem noOlder_exec {o : CliOp} (ho : Upholds Declares o) (choice : Nat) (w : World) :
    NoOlder w.orch.appl (o.exec choice w).2.orch.appl := by
  have hset : ∀ plan timestampNs eventId,
      NoOlder w.orch.appl (setConfig w plan timestampNs eventId).2.orch.appl := by
    intro plan timestampNs eventId
    rcases setConfig_cases w plan timestampNs eventId with ⟨heq, -⟩ | ⟨candidate, db, -, -, heq⟩
    · rw [heq]
      exact .refl _
    · rw [heq]
      exact .refl _
  cases o with
  | service o =>
      cases o with
      | orch o => exact noOlder_execOrch ho.1 choice w
      | syncd o =>
          have hsame : ((CliOp.service (.syncd o)).exec choice w).2.orch = w.orch :=
            orch_execSyncd o choice w
          rw [hsame]
          exact .refl _
  | set plan timestampNs eventId =>
      rcases choice with _ | _ | choice
      · exact hset plan timestampNs eventId
      · exact hset plan timestampNs eventId
      · exact .refl _
  | getState device id since =>
      rw [getState_world]
      exact .refl _

section Runs

variable {policy : Orch.ApplyRetryPolicy} {allow : CliOp → Nat → World → Prop}

/-- In every reachable state STATE_DB holds for each connection what the last state event about it
carries, and ALARM_DB for each alarm what the last alarm event about it leaves. A state stands
under its own id, what is active is present, and of what is absent nothing is applied. -/
theorem controlPlane_journaled {c : Config CliOp CliOp.Reply Failure Answer World Task}
    (h : Reachable (controlPlane policy allow) c) : Journaled c.world :=
  ((upheld_declares policy).verified keeps_journaled).invariant h

theorem controlPlane_journaled_firstActive :
    firstActive.syncd.state["a"]?.isSome = true ∧ Journaled firstActive :=
  ⟨by decide +kernel, controlPlane_journaled firstActive_reachable⟩

/-- Between any two moments of a run a connection keeps its hash in APPL_DB, and the version of the
hash does not go back. -/
theorem controlPlane_noOlder {c d : Config CliOp CliOp.Reply Failure Answer World Task}
    (h : Reachable (controlPlane policy allow) c)
    (hrun : Relation.ReflTransGen (Step (controlPlane policy allow)) c d) :
    NoOlder c.world.orch.appl d.world.orch.appl := by
  refine ((upheld_declares policy).verified keeps_journaled).later
    (R := fun s t => NoOlder s.orch.appl t.orch.appl) (fun s => .refl _) (fun h h' => h.trans h')
    (fun _ o choice s _ ho _ => noOlder_exec ho choice s) ?_ ?_ h hrun
  · intro i s _ _
    cases i <;> exact .refl _
  · intro s t _ ht
    cases ht <;> exact .refl _

/-- A second Set, and the orchestrator takes it up. -/
def secondSet : World := (ranAlone (setOne (replaceA 1 2 false)) 150 firstActive).2

def secondPublished : World := (ranAlone (embed Orch.processConfigOne) 150 secondSet).2

theorem controlPlane_noOlder_secondPublished :
    (firstActive.orch.appl["a"]?.map (·.desiredVersion) = some 1 ∧
      secondPublished.orch.appl["a"]?.map (·.desiredVersion) = some 2) ∧
    NoOlder firstActive.orch.appl secondPublished.orch.appl := by
  have hset : Relation.ReflTransGen (Step (controlPlane {} fun _ _ _ => True))
      ⟨firstActive, fun _ => none⟩ ⟨secondSet, fun _ => none⟩ :=
    leads_complete (S := controlPlane {} fun _ _ _ => True) (i := .client 0) rfl
      (p := setOne (replaceA 1 2 false)) ⟨replaceA 1 2 false, by decide +kernel, rfl⟩ _ (Prog.along_of_forall (fun _ _ _ => trivial) _ _ _)
      (a := .set ⟨replaceA 1 2 false, ⟨1, (replaceA 1 2 false).plan.operations, some 2⟩, none⟩)
      (by decide +kernel)
  have hpublished : Relation.ReflTransGen (Step (controlPlane {} fun _ _ _ => True))
      ⟨secondSet, fun _ => none⟩ ⟨secondPublished, fun _ => none⟩ :=
    leads_complete (S := controlPlane {} fun _ _ _ => True) (i := .orch 0) rfl
      (p := embed Orch.processConfigOne) (.inl rfl) _
      (Prog.along_of_forall (fun _ _ _ => trivial) _ _ _) (a := .handled true) (by decide +kernel)
  exact ⟨by decide +kernel, controlPlane_noOlder firstActive_reachable (hset.trans hpublished)⟩

end Runs

end MiniOcs.Cli
