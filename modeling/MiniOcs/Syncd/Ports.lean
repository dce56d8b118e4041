import MiniOcs.Concurrent.System
import MiniOcs.Concurrent.Triple
import MiniOcs.Orch.Agreement
import MiniOcs.Syncd.Footprint

/-!
# Port alarms

One syncd that is never lost, among port changes, commands and other services. The polls are
watched: what each of them saw of a port is kept beside the world, and the alarm and the counter
of port failures are compared with it.
-/
namespace MiniOcs.Syncd
open Std Concurrent

/-! ## What the polls saw -/

/-- The world, the last answer of the device about a port, and the ports that were polled, the
newest first. -/
structure Watched where
  world : World
  reply : Option PortState := none
  seen : List PortState := []

/-- `publishPortState` opens with a read of what is stored of the port that the device just
answered for. -/
def Watched.note (s : Watched) : (o : Op) → o.Reply → Watched
  | .syncd (.getPortState _ _), reply => { s with reply := reply.toOption }
  | .syncd (.getHash (.portState _ _)), _ => { s with seen := s.reply.toList ++ s.seen }
  | _, _ => s

def Watched.exec (o : Op) (choice : Nat) (s : Watched) : o.Reply × Watched :=
  let done := MiniOcs.exec o choice s.world
  (done.1, { s.note o done.1 with world := done.2 })

/-- What the last poll of a port saw. -/
def lastSeen (seen : List PortState) (direction : PortDirection) (id : Nat) : Option PortState :=
  seen.find? fun port => port.direction = direction ∧ port.id = id

def seenDown (seen : List PortState) (direction : PortDirection) (id : Nat) : Bool :=
  (lastSeen seen direction id).any portUnavailable

/-- How often a poll found a port unavailable that the poll of it before did not, or that was
not polled before. -/
def falls : List PortState → Nat
  | [] => 0
  | port :: earlier => falls earlier +
      if portUnavailable port && !seenDown earlier port.direction port.id then 1 else 0

theorem seenDown_cons_self (port : PortState) (earlier : List PortState) :
    seenDown (port :: earlier) port.direction port.id = portUnavailable port := by
  simp [seenDown, lastSeen]

theorem seenDown_cons_of_ne {port : PortState} {earlier : List PortState}
    {direction : PortDirection} {id : Nat}
    (h : ¬(port.direction = direction ∧ port.id = id)) :
    seenDown (port :: earlier) direction id = seenDown earlier direction id := by
  simp [seenDown, lastSeen, h]

/-! ## The system -/

def faultClosed (fault : Option PortFault) : Bool :=
  fault.all fun fault => fault.status = .recovered

/-- A fault that is put to rest belongs to a port that was last seen available. -/
def restsAvailable (seen : List PortState) (entry : SyncdEntry) : Bool :=
  match entry with
  | ⟨.portFault direction id, fault⟩ =>
      decide (fault.status ≠ .recovered) || !seenDown seen direction id
  | _ => true

/-- No port flaps inside an open recovery: a port that a poll finds newly unavailable has no
fault, or a recovered one; a reconciliation that completes does not put the fault of an
unavailable port to rest; and the clock does not give a fault the time of an earlier one. -/
def steady : Op → Nat → Watched → Bool
  | .syncd (.getHash (.portState _ _)), _, s => s.reply.all fun port =>
      !portUnavailable port || seenDown s.seen port.direction port.id ||
        faultClosed (s.world.syncd.hash (.portFault port.direction port.id))
  | .syncd (.putHashesAtomically entries), _, s => entries.all (restsAvailable s.seen)
  | .syncd (.putHash (.portFault _ _) fault), _, s => decide (fault.status ≠ .active) ||
      (s.world.syncd.hash (.portAlarmPublication fault.activationId)).isNone
  | _, _, _ => true

/-- What happens elsewhere: nobody else writes the state of syncd or counts port failures. -/
structure Elsewhere (s t : Watched) : Prop where
  syncd : t.world.syncd = s.world.syncd
  portDown : counterTotal t.world.counters .portDownTotal =
    counterTotal s.world.counters .portDownTotal
  reply : t.reply = s.reply
  seen : t.seen = s.seen

/-- One syncd without crashes. It is initialized once, and then handles commands and polls. -/
def portSystem (allow : Op → Nat → Watched → Prop) :
    System Op Op.Reply Raised Bool Watched Unit where
  exec := Watched.exec
  init s := ∃ inventory hwsim, s = { world := { inventory := inventory, hwsim := hwsim } }
  starts _ s p := (s.world.syncd.deviceName = "" ∧ p = initializeService) ∨
    (s.world.syncd.deviceName ≠ "" ∧ (p = processOne ∨ p = pollDevice))
  crash _ s := s
  env := Elsewhere
  allow _ := allow
  cut _ _ := False

def alarmActive (w : World) (direction : PortDirection) (id : Nat) : Prop :=
  (w.syncd.hash (.activeAlarm (.portDown direction id))).isSome

/-- The ports were just polled: a poll, and the start of the process, go on to the device
state. A poll that failed in between comes to it too. -/
def portsPolled (p : Service Bool) : Bool :=
  match p with
  | .call (.syncd (.getHash .deviceState)) _ => true
  | _ => false

/-- An alarm exactly for the ports that are unavailable, and a count for each failure. -/
def Accurate (s : Watched) : Prop :=
  (∀ direction id, alarmActive s.world direction id ↔ seenDown s.seen direction id = true) ∧
    counterTotal s.world.counters .portDownTotal = falls s.seen

/-! ## The invariant -/

/-- The hashes that port alarms rest on. Drift alarms share the markers of the counter. -/
def isPortKey : SyncdKey → Bool
  | .portFault _ _ | .activeAlarm _ | .portAlarmPublication _ | .portAlarmClearPublication _
  | .alarmCounterPublication _ _ | .driftAlarmPublication _ | .driftAlarmClearPublication _ => true
  | _ => false

def isDriftActivation : ActivationId → Bool
  | .drift _ => true
  | _ => false

/-- The fault of a port that is down: its alarm was published and counted, and not cleared. -/
structure OpenFault (h : (k : SyncdKey) → Option (SyncdHash k)) (fault : PortFault) : Prop where
  status : fault.status = .active ∨ fault.status = .recoveryPublished
  published : (h (.portAlarmPublication fault.activationId)).isSome
  counted : (h (.alarmCounterPublication fault.activationId false)).isSome
  uncleared : h (.portAlarmClearPublication fault.activationId) = none

/-- The state between two polls of ports, for the hashes, the counter and the polls so far. -/
structure PortsOk (h : (k : SyncdKey) → Option (SyncdHash k)) (total : Int)
    (seen : List PortState) : Prop where
  alarm : ∀ d i, (h (.activeAlarm (.portDown d i))).isSome = seenDown seen d i
  total : total = falls seen
  down : ∀ d i, seenDown seen d i = true → ∃ fault, h (.portFault d i) = some fault ∧
    OpenFault h fault
  named : ∀ d i fault, h (.portFault d i) = some fault → ∃ n, fault.activationId = .port d i n
  known : ∀ d i n, h (.portAlarmPublication (.port d i n)) = none →
    h (.portAlarmClearPublication (.port d i n)) = none ∧
      h (.alarmCounterPublication (.port d i n) false) = none
  drift : ∀ alarm, h (.activeAlarm .desiredActualDrift) = some alarm →
    isDriftActivation alarm.activationId = true
  driftRaised : ∀ c marker, h (.driftAlarmPublication c) = some marker →
    isDriftActivation marker.activationId = true
  driftCleared : ∀ c marker, h (.driftAlarmClearPublication c) = some marker →
    isDriftActivation marker.activationId = true

def Watched.hash (s : Watched) (k : SyncdKey) : Option (SyncdHash k) := s.world.syncd.hash k

def Watched.total (s : Watched) : Int := counterTotal s.world.counters .portDownTotal

def Settled (s : Watched) : Prop := PortsOk s.hash s.total s.seen

theorem Settled.accurate {s : Watched} (h : Settled s) : Accurate s := by
  refine ⟨fun d i => ?_, h.total⟩
  rw [alarmActive, ← h.alarm d i]
  rfl

section PortsOk

variable {h h' : (k : SyncdKey) → Option (SyncdHash k)} {total : Int} {seen : List PortState}

theorem PortsOk.congr (ok : PortsOk h total seen)
    (heq : ∀ k, isPortKey k = true → h' k = h k) : PortsOk h' total seen where
  alarm d i := by rw [heq _ rfl]; exact ok.alarm d i
  total := ok.total
  down d i hdown := by
    obtain ⟨fault, hfault, hopen⟩ := ok.down d i hdown
    refine ⟨fault, by rw [heq _ rfl]; exact hfault, hopen.status, ?_, ?_, ?_⟩
    · rw [heq _ rfl]; exact hopen.published
    · rw [heq _ rfl]; exact hopen.counted
    · rw [heq _ rfl]; exact hopen.uncleared
  named d i fault hfault := ok.named d i fault (by rw [← heq _ rfl]; exact hfault)
  known d i n hnone := by
    rw [heq _ rfl] at hnone ⊢
    rw [heq _ rfl]
    exact ok.known d i n hnone
  drift alarm halarm := ok.drift alarm (by rw [← heq _ rfl]; exact halarm)
  driftRaised c marker hm := ok.driftRaised c marker (by rw [← heq _ rfl]; exact hm)
  driftCleared c marker hm := ok.driftCleared c marker (by rw [← heq _ rfl]; exact hm)

/-- A poll that sees what the poll before it saw. -/
theorem PortsOk.again (ok : PortsOk h total seen) {port : PortState}
    (hsame : seenDown seen port.direction port.id = portUnavailable port) :
    PortsOk h total (port :: seen) := by
  have hseen : ∀ d i, seenDown (port :: seen) d i = seenDown seen d i := by
    intro d i
    by_cases hport : port.direction = d ∧ port.id = i
    · obtain ⟨rfl, rfl⟩ := hport
      rw [seenDown_cons_self, hsame]
    · exact seenDown_cons_of_ne hport
  have hfalls : falls (port :: seen) = falls seen := by
    simp [falls, hsame]
  exact ⟨fun d i => by rw [hseen]; exact ok.alarm d i, by rw [hfalls]; exact ok.total,
    fun d i hdown => ok.down d i (by rw [← hseen]; exact hdown), ok.named, ok.known, ok.drift,
    ok.driftRaised, ok.driftCleared⟩

/-- A fault keeps the name of its port; the fault of a port that is down stays open. -/
theorem PortsOk.setFault (ok : PortsOk h total seen) {d : PortDirection} {i : Nat}
    {fault : PortFault} (hname : ∃ n, fault.activationId = .port d i n)
    (hopen : seenDown seen d i = true → OpenFault h fault) :
    PortsOk (Function.update h (.portFault d i) (some fault)) total seen where
  alarm d' i' := by simpa using ok.alarm d' i'
  total := ok.total
  down d' i' hdown := by
    by_cases hport : d' = d ∧ i' = i
    · obtain ⟨rfl, rfl⟩ := hport
      have ho := hopen hdown
      exact ⟨fault, by simp, ho.status, by simpa using ho.published, by simpa using ho.counted,
        by simpa using ho.uncleared⟩
    · have hne : SyncdKey.portFault d' i' ≠ .portFault d i := by simpa using hport
      obtain ⟨fault', hfault, ho⟩ := ok.down d' i' hdown
      exact ⟨fault', by simpa [Function.update_of_ne hne] using hfault, ho.status,
        by simpa using ho.published, by simpa using ho.counted, by simpa using ho.uncleared⟩
  named d' i' fault' hfault := by
    by_cases hport : d' = d ∧ i' = i
    · obtain ⟨rfl, rfl⟩ := hport
      simp only [Function.update_self, Option.some.injEq] at hfault
      exact hfault ▸ hname
    · have hne : SyncdKey.portFault d' i' ≠ .portFault d i := by simpa using hport
      rw [Function.update_of_ne hne] at hfault
      exact ok.named d' i' fault' hfault
  known d' i' n hnone := by simpa using ok.known d' i' n (by simpa using hnone)
  drift alarm halarm := ok.drift alarm (by simpa using halarm)
  driftRaised c marker hm := ok.driftRaised c marker (by simpa using hm)
  driftCleared c marker hm := ok.driftCleared c marker (by simpa using hm)

/-- The counter of a cleared alarm, and of any drift alarm, is marked aside. -/
theorem PortsOk.setCounter (ok : PortsOk h total seen) (activation : ActivationId) (clear : Bool)
    (haside : clear = true ∨ isDriftActivation activation = true) :
    PortsOk (Function.update h (.alarmCounterPublication activation clear) (some ())) total
      seen := by
  have hne : ∀ d i n, SyncdKey.alarmCounterPublication (.port d i n) false ≠
      .alarmCounterPublication activation clear := by
    rintro d i n heq
    cases heq
    rcases haside with hclear | hdrift
    · cases hclear
    · cases hdrift
  constructor
  · exact fun d i => by simpa using ok.alarm d i
  · exact ok.total
  · intro d i hdown
    obtain ⟨fault, hfault, ho⟩ := ok.down d i hdown
    obtain ⟨n, hn⟩ := ok.named d i fault hfault
    refine ⟨fault, by simpa using hfault, ho.status, by simpa using ho.published, ?_,
      by simpa using ho.uncleared⟩
    rw [hn, Function.update_of_ne (hne d i n), ← hn]
    exact ho.counted
  · exact fun d i fault hfault => ok.named d i fault (by simpa using hfault)
  · intro d i n hnone
    rw [Function.update_of_ne (hne d i n)]
    simpa using ok.known d i n (by simpa using hnone)
  · exact fun alarm halarm => ok.drift alarm (by simpa using halarm)
  · exact fun c marker hm => ok.driftRaised c marker (by simpa using hm)
  · exact fun c marker hm => ok.driftCleared c marker (by simpa using hm)

/-- A poll that sees a port available again, once its alarm is taken back. -/
theorem PortsOk.clear (ok : PortsOk h total seen) {port : PortState} {n : Nat}
    (hup : portUnavailable port = false)
    (hpub : (h (.portAlarmPublication (.port port.direction port.id n))).isSome) :
    PortsOk (Function.update
      (Function.update h (.activeAlarm (.portDown port.direction port.id)) none)
      (.portAlarmClearPublication (.port port.direction port.id n)) (some ())) total
      (port :: seen) := by
  constructor
  · intro d i
    by_cases hport : port.direction = d ∧ port.id = i
    · obtain ⟨rfl, rfl⟩ := hport
      simp [seenDown_cons_self, hup]
    · have hne : SyncdKey.activeAlarm (.portDown d i) ≠
          .activeAlarm (.portDown port.direction port.id) := by
        rintro heq
        cases heq
        exact hport ⟨rfl, rfl⟩
      rw [seenDown_cons_of_ne hport]
      simpa [Function.update_of_ne hne] using ok.alarm d i
  · simpa [falls, hup] using ok.total
  · intro d i hdown
    by_cases hport : port.direction = d ∧ port.id = i
    · obtain ⟨rfl, rfl⟩ := hport
      rw [seenDown_cons_self, hup] at hdown
      cases hdown
    · rw [seenDown_cons_of_ne hport] at hdown
      obtain ⟨fault, hfault, ho⟩ := ok.down d i hdown
      obtain ⟨m, hm⟩ := ok.named d i fault hfault
      refine ⟨fault, by simpa using hfault, ho.status, by simpa using ho.published,
        by simpa using ho.counted, ?_⟩
      have hne : SyncdKey.portAlarmClearPublication fault.activationId ≠
          .portAlarmClearPublication (.port port.direction port.id n) := by
        rw [hm]
        rintro heq
        cases heq
        exact hport ⟨rfl, rfl⟩
      simpa [Function.update_of_ne hne] using ho.uncleared
  · exact fun d i fault hfault => ok.named d i fault (by simpa using hfault)
  · intro d i m hnone
    have hnone' : h (.portAlarmPublication (.port d i m)) = none := by simpa using hnone
    have hne : SyncdKey.portAlarmClearPublication (.port d i m) ≠
        .portAlarmClearPublication (.port port.direction port.id n) := by
      rintro heq
      cases heq
      rw [hnone'] at hpub
      cases hpub
    simpa [Function.update_of_ne hne] using ok.known d i m hnone'
  · exact fun alarm halarm => ok.drift alarm (by simpa using halarm)
  · exact fun c marker hm => ok.driftRaised c marker (by simpa using hm)
  · exact fun c marker hm => ok.driftCleared c marker (by simpa using hm)

/-- A poll that sees a port newly unavailable, once its alarm is published and counted. -/
theorem PortsOk.raise (ok : PortsOk h total seen) {port : PortState} {n : Nat} {a : Alarm}
    {fault : PortFault} (hdown : portUnavailable port = true)
    (hbefore : seenDown seen port.direction port.id = false)
    (hfault : h (.portFault port.direction port.id) = some fault)
    (hstatus : fault.status = .active)
    (hname : fault.activationId = .port port.direction port.id n)
    (hnew : h (.portAlarmPublication (.port port.direction port.id n)) = none) :
    PortsOk (Function.update (Function.update
      (Function.update h (.activeAlarm (.portDown port.direction port.id)) (some a))
      (.portAlarmPublication (.port port.direction port.id n)) (some ()))
      (.alarmCounterPublication (.port port.direction port.id n) false) (some ())) (total + 1)
      (port :: seen) := by
  obtain ⟨hclear, -⟩ := ok.known _ _ _ hnew
  constructor
  · intro d i
    by_cases hport : port.direction = d ∧ port.id = i
    · obtain ⟨rfl, rfl⟩ := hport
      simp [seenDown_cons_self, hdown]
    · have hne : SyncdKey.activeAlarm (.portDown d i) ≠
          .activeAlarm (.portDown port.direction port.id) := by
        rintro heq
        cases heq
        exact hport ⟨rfl, rfl⟩
      rw [seenDown_cons_of_ne hport]
      simpa [Function.update_of_ne hne] using ok.alarm d i
  · simp [falls, hdown, hbefore, ok.total]
  · intro d i hdown'
    by_cases hport : port.direction = d ∧ port.id = i
    · obtain ⟨rfl, rfl⟩ := hport
      refine ⟨fault, by simpa using hfault, .inl hstatus, ?_, ?_, ?_⟩
      · rw [hname]; simp
      · rw [hname]; simp
      · rw [hname]; simpa using hclear
    · rw [seenDown_cons_of_ne hport] at hdown'
      obtain ⟨fault', hfault', ho⟩ := ok.down d i hdown'
      obtain ⟨m, hm⟩ := ok.named d i fault' hfault'
      have hne : fault'.activationId ≠ .port port.direction port.id n := by
        rw [hm]
        rintro heq
        cases heq
        exact hport ⟨rfl, rfl⟩
      refine ⟨fault', by simpa using hfault', ho.status, ?_, ?_, by simpa using ho.uncleared⟩
      · simpa [Function.update_of_ne, hne] using ho.published
      · simpa [Function.update_of_ne, hne] using ho.counted
  · exact fun d i fault' hfault' => ok.named d i fault' (by simpa using hfault')
  · intro d i m hnone
    have hne : ActivationId.port d i m ≠ .port port.direction port.id n := by
      intro heq
      rw [heq] at hnone
      simp at hnone
    simpa [Function.update_of_ne, hne] using
      ok.known d i m (by simpa [Function.update_of_ne, hne] using hnone)
  · exact fun alarm halarm => ok.drift alarm (by simpa using halarm)
  · exact fun c marker hm => ok.driftRaised c marker (by simpa using hm)
  · exact fun c marker hm => ok.driftCleared c marker (by simpa using hm)

/-- A drift alarm and its marker. -/
theorem PortsOk.raiseDrift (ok : PortsOk h total seen) {command : CommandId} {alarm : Alarm}
    {marker : AlarmMarker} (halarm : isDriftActivation alarm.activationId = true)
    (hmarker : isDriftActivation marker.activationId = true) :
    PortsOk (Function.update (Function.update h (.activeAlarm .desiredActualDrift) (some alarm))
      (.driftAlarmPublication command) (some marker)) total seen := by
  constructor
  · exact fun d i => by simpa using ok.alarm d i
  · exact ok.total
  · intro d i hdown
    obtain ⟨fault, hfault, ho⟩ := ok.down d i hdown
    exact ⟨fault, by simpa using hfault, ho.status, by simpa using ho.published,
      by simpa using ho.counted, by simpa using ho.uncleared⟩
  · exact fun d i fault hfault => ok.named d i fault (by simpa using hfault)
  · exact fun d i n hnone => by simpa using ok.known d i n (by simpa using hnone)
  · intro alarm' halarm'
    simp at halarm'
    exact halarm' ▸ halarm
  · intro c marker' hm
    by_cases hc : c = command
    · subst hc
      simp at hm
      exact hm ▸ hmarker
    · exact ok.driftRaised c marker' (by simpa [Function.update_of_ne, hc] using hm)
  · exact fun c marker' hm => ok.driftCleared c marker' (by simpa using hm)

theorem PortsOk.clearDrift (ok : PortsOk h total seen) {command : CommandId}
    {marker : AlarmMarker} (hmarker : isDriftActivation marker.activationId = true) :
    PortsOk (Function.update (Function.update h (.activeAlarm .desiredActualDrift) none)
      (.driftAlarmClearPublication command) (some marker)) total seen := by
  constructor
  · exact fun d i => by simpa using ok.alarm d i
  · exact ok.total
  · intro d i hdown
    obtain ⟨fault, hfault, ho⟩ := ok.down d i hdown
    exact ⟨fault, by simpa using hfault, ho.status, by simpa using ho.published,
      by simpa using ho.counted, by simpa using ho.uncleared⟩
  · exact fun d i fault hfault => ok.named d i fault (by simpa using hfault)
  · exact fun d i n hnone => by simpa using ok.known d i n (by simpa using hnone)
  · intro alarm' halarm'
    simp at halarm'
  · exact fun c marker' hm => ok.driftRaised c marker' (by simpa using hm)
  · intro c marker' hm
    by_cases hc : c = command
    · subst hc
      simp at hm
      exact hm ▸ hmarker
    · exact ok.driftCleared c marker' (by simpa [Function.update_of_ne, hc] using hm)

end PortsOk

end MiniOcs.Syncd
