import MiniOcs.Syncd.Ports

/-!
# The life of a port alarm

Every program of syncd keeps the state of the ports between two polls of ports, and every poll of
a port brings it up to what the poll saw.
-/
namespace MiniOcs.Syncd
open Std Concurrent

/-! ## Rules -/

theorem Elsewhere.refl (s : Watched) : Elsewhere s s := ⟨rfl, rfl, rfl, rfl⟩

theorem Elsewhere.trans {a b c : Watched} (h₁ : Elsewhere a b) (h₂ : Elsewhere b c) :
    Elsewhere a c :=
  ⟨h₂.syncd.trans h₁.syncd, h₂.portDown.trans h₁.portDown, h₂.reply.trans h₁.reply,
    h₂.seen.trans h₁.seen⟩

/-- The device state is read right after the ports were polled, and after a poll that failed. -/
def portContract : Contract Op Watched where
  inv _ := True
  rely := Elsewhere
  guard o s := match o with
    | .syncd (.getHash .deviceState) => Settled s
    | _ => True
  allow o choice s := steady o choice s = true
  refl := Elsewhere.refl
  trans := Elsewhere.trans

/-- The ports look the same. -/
structure Same (s t : Watched) : Prop where
  hash : ∀ k, isPortKey k = true → t.hash k = s.hash k
  total : t.total = s.total
  seen : t.seen = s.seen

theorem Elsewhere.same {s t : Watched} (h : Elsewhere s t) : Same s t :=
  ⟨fun k _ => by simp only [Watched.hash, h.syncd], h.portDown, h.seen⟩

theorem Elsewhere.hash {s t : Watched} (h : Elsewhere s t) : t.hash = s.hash := by
  funext k
  simp only [Watched.hash, h.syncd]

def Framed (K : Watched → Prop) : Prop := ∀ s t, Same s t → K s → K t

theorem Framed.stable {K : Watched → Prop} (h : Framed K) : Stable portContract K :=
  fun s t hs hst => h s t hst.same hs

theorem framed_settled : Framed Settled := by
  intro s t hst h
  have hcongr := PortsOk.congr h hst.hash
  rw [← hst.total, ← hst.seen] at hcongr
  exact hcongr

abbrev Keeps {α : Type} (K : Watched → Prop) (p : Service α) (Q : α → Watched → Prop) : Prop :=
  Triple Watched.exec portContract K p Q fun _ => Settled

section Keeps

variable {α β : Type} {K : Watched → Prop} {Q : α → Watched → Prop}

theorem Keeps.send {o : SyncdOp} {k : o.Reply → Service α} (M : o.Reply → Watched → Prop)
    (hK : Stable portContract K) (hguard : ∀ s, K s → portContract.guard (.syncd o) s)
    (hstep : ∀ s ch, K s → steady (.syncd o) ch s = true →
      M (Watched.exec (.syncd o) ch s).1 (Watched.exec (.syncd o) ch s).2)
    (hk : ∀ r, Keeps (M r) (k r) Q) : Keeps K (Syncd.send o >>= k) Q :=
  Triple.call M hK (fun s _ => hguard s) (fun s ch _ => hstep s ch) hk

theorem Keeps.last {o : SyncdOp} {Q : o.Reply → Watched → Prop}
    (hK : Stable portContract K) (hQ : ∀ r, Stable portContract (Q r))
    (hguard : ∀ s, K s → portContract.guard (.syncd o) s)
    (hstep : ∀ s ch, K s → steady (.syncd o) ch s = true →
      Q (Watched.exec (.syncd o) ch s).1 (Watched.exec (.syncd o) ch s).2) :
    Keeps K (Syncd.send o) Q :=
  Triple.call Q hK (fun s _ => hguard s) (fun s ch _ => hstep s ch) fun r =>
    Triple.pure (hQ r) fun _ h => h

theorem Keeps.raise {e : Raised} (hK : Stable portContract K) (h : ∀ s, K s → Settled s) :
    Keeps K (Syncd.raise e : Service α) Q :=
  Triple.call (fun _ => K) hK (fun _ _ _ => trivial) (fun _ _ _ hs _ => hs) fun _ =>
    Triple.throw framed_settled.stable h

theorem Keeps.now {k : Nat → Service α} (hK : Stable portContract K)
    (hk : ∀ n, Keeps K (k n) Q) : Keeps K (Syncd.send .now >>= k) Q :=
  Keeps.send (fun _ => K) hK (fun _ _ => trivial) (fun _ _ hs _ => hs) hk

/-- A read of a hash that nobody else writes. -/
theorem Keeps.getHash {key : SyncdKey} {k : Option (SyncdHash key) → Service α}
    (hK : Stable portContract K) (hkey : isPortKey key = true)
    (hk : ∀ v, Keeps (fun s => K s ∧ s.hash key = v) (k v) Q) :
    Keeps K (Syncd.send (.getHash key) >>= k) Q := by
  refine Keeps.send (fun v s => K s ∧ s.hash key = v) hK (fun s _ => ?_) (fun s ch hs _ => ?_) hk
  · cases key <;> trivial
  · cases key <;> first | exact ⟨hs, rfl⟩ | cases hkey

theorem Stable.and {C : Contract Op Watched} {K M : Watched → Prop} (hK : Stable C K)
    (hM : Stable C M) : Stable C fun s => K s ∧ M s :=
  fun s t hs hst => ⟨hK s t hs.1 hst, hM s t hs.2 hst⟩

theorem stable_hash (key : SyncdKey) (v : Option (SyncdHash key)) :
    Stable portContract fun s => s.hash key = v := by
  intro s t hs hst
  rw [Elsewhere.hash hst]
  exact hs

theorem keeps_readOrRaise {reply : Except String β} (hK : Stable portContract K)
    (hset : ∀ s, K s → Settled s) :
    Keeps K (readOrRaise reply) fun value s => K s ∧ reply = .ok value := by
  cases reply with
  | ok value => exact Triple.pure (Stable.and hK fun _ _ h _ => h) fun s hs => ⟨hs, rfl⟩
  | error message => exact Keeps.raise hK hset

theorem same_exec {keys : SyncdKey → Bool} {fields : CounterField → Bool} {o : Op}
    (ho : Within keys fields o) (hkeys : ∀ k, isPortKey k = true → keys k = false)
    (hfield : fields .portDownTotal = false) (ch : Nat) (s : Watched) :
    Same s (Watched.exec o ch s).2 := by
  cases o with
  | orch o => exact ho.elim
  | syncd o =>
      refine ⟨fun k hk => ho.writes.hash (hkeys k hk) ch s.world,
        ho.writes.counter hfield ch s.world, ?_⟩
      cases o with
      | getHash k => cases k <;> first | rfl | exact ho.elim
      | _ => rfl

theorem command_aside (k : SyncdKey) (h : isPortKey k = true) : isCommandKey k = false := by
  cases k <;> first | rfl | cases h

theorem recovery_aside (k : SyncdKey) (h : isPortKey k = true) : isRecoveryKey k = false := by
  cases k <;> first | rfl | cases h

theorem driftKey_aside (k : SyncdKey) (h : isPortKey k = true) : isDriftKey k = false := by
  cases k <;> first | rfl | cases h

theorem reconciliation_aside (k : SyncdKey) (h : isPortKey k = true) :
    isReconciliationKey k = false := by
  cases k <;> first | rfl | cases h

theorem device_aside (k : SyncdKey) (h : isPortKey k = true) : isDeviceKey k = false := by
  cases k <;> first | rfl | cases h

theorem start_aside (k : SyncdKey) (h : isPortKey k = true) : isStartKey k = false := by
  cases k <;> first | rfl | cases h

/-- Programs that leave the ports alone. -/
theorem Keeps.quiet {keys : SyncdKey → Bool} {fields : CounterField → Bool} {p : Service α}
    (hp : p.Only (Within keys fields)) (hkeys : ∀ k, isPortKey k = true → keys k = false)
    (hfield : fields .portDownTotal = false) (hK : Framed K) (hset : ∀ s, K s → Settled s) :
    Keeps K p fun _ => K := by
  refine (Triple.of_only hp hK.stable (fun o s _ _ hs => ?_) (fun o ch s ho _ hs _ => ?_)).conseq
    (fun _ hs => hs) (fun _ _ hs => hs) (fun _ s hs => hset s hs)
  · unfold portContract
    dsimp only
    split
    · exact hset s hs
    · trivial
  · exact hK s _ (same_exec ho hkeys hfield ch s) hs

end Keeps

/-! ## The poll of a port -/

section Polling

variable {port : PortState}

/-- A port that was just seen, before anything is published of it. -/
def Ahead (port : PortState) (s : Watched) : Prop :=
  ∃ earlier, s.seen = port :: earlier ∧ PortsOk s.hash s.total earlier ∧
    (portUnavailable port = true → seenDown earlier port.direction port.id = true ∨
      faultClosed (s.hash (.portFault port.direction port.id)) = true)

theorem framed_ahead (port : PortState) : Framed (Ahead port) := by
  rintro s t hst ⟨earlier, hseen, ok, hclosed⟩
  refine ⟨earlier, hst.seen.trans hseen, ?_, ?_⟩
  · rw [hst.total]
    exact ok.congr hst.hash
  · rw [hst.hash _ rfl]
    exact hclosed

/-- The fault of a port that is newly unavailable, before its alarm. -/
structure FreshFault (h : (k : SyncdKey) → Option (SyncdHash k)) (total : Int) (port : PortState)
    (activation : ActivationId) (earlier : List PortState) : Prop where
  ok : PortsOk h total earlier
  before : seenDown earlier port.direction port.id = false
  named : ∃ n, activation = .port port.direction port.id n
  fault : h (.portFault port.direction port.id) = some ⟨activation, .active, none⟩
  unpublished : h (.portAlarmPublication activation) = none

def Opened (port : PortState) (activation : ActivationId) (s : Watched) : Prop :=
  ∃ earlier, s.seen = port :: earlier ∧ FreshFault s.hash s.total port activation earlier

/-- The alarm is published and not counted. -/
def Uncounted (port : PortState) (activation : ActivationId) (s : Watched) : Prop :=
  ∃ earlier h alarm, s.seen = port :: earlier ∧ FreshFault h s.total port activation earlier ∧
    s.hash = Function.update (Function.update h
      (.activeAlarm (.portDown port.direction port.id)) (some alarm))
      (.portAlarmPublication activation) (some ())

/-- A port seen unavailable again. -/
def StillDown (activation : ActivationId) (s : Watched) : Prop :=
  Settled s ∧ (s.hash (.portAlarmPublication activation)).isSome ∧
    (s.hash (.alarmCounterPublication activation false)).isSome

theorem stable_opened (port : PortState) (activation : ActivationId) :
    Stable portContract (Opened port activation) := by
  rintro s t ⟨earlier, hseen, hfresh⟩ hst
  refine ⟨earlier, (Elsewhere.seen hst).trans hseen, ?_⟩
  rw [Elsewhere.hash hst, (Elsewhere.same hst).total]
  exact hfresh

theorem stable_uncounted (port : PortState) (activation : ActivationId) :
    Stable portContract (Uncounted port activation) := by
  rintro s t ⟨earlier, h, alarm, hseen, hfresh, hhash⟩ hst
  refine ⟨earlier, h, alarm, (Elsewhere.seen hst).trans hseen, ?_, ?_⟩
  · rw [(Elsewhere.same hst).total]; exact hfresh
  · rw [Elsewhere.hash hst]; exact hhash

theorem stable_stillDown (activation : ActivationId) :
    Stable portContract (StillDown activation) := by
  rintro s t ⟨hset, hpub, hcount⟩ hst
  refine ⟨framed_settled.stable s t hset hst, ?_, ?_⟩
  · rw [Elsewhere.hash hst]; exact hpub
  · rw [Elsewhere.hash hst]; exact hcount

/-- A change of the port is stored before the alarms are looked at. -/
theorem keeps_publishPortChange {α : Type} {previous : Option PortState} {k : Unit → Service α}
    {Q : α → Watched → Prop} (hk : Keeps (Ahead port) (k ()) Q) :
    Keeps (Ahead port) (publishPortChange port previous >>= k) Q := by
  have hstable := (framed_ahead port).stable
  have hstore : ∀ o : SyncdOp, Within isPortStateKey noField (.syncd o) →
      ∀ s ch, Ahead port s → Ahead port (Watched.exec (.syncd o) ch s).2 := by
    intro o ho s ch hs
    refine framed_ahead port s _ (same_exec ho ?_ rfl ch s) hs
    intro key hkey
    cases key <;> first | rfl | cases hkey
  unfold publishPortChange
  split_ifs
  · exact hk
  · refine Keeps.now hstable fun now => ?_
    cases previous with
    | none =>
        refine Keeps.send (fun _ => Ahead port) hstable (fun _ _ => trivial) (fun s ch hs _ => ?_)
          fun _ => hk
        exact hstore (.putHash (.portState port.direction port.id) port) rfl s ch hs
    | some previous =>
        refine Keeps.send (fun _ => Ahead port) hstable (fun _ _ => trivial) (fun s ch hs _ => ?_)
          fun _ => hk
        exact hstore (.replaceHashAndAppendEvent (.portState port.direction port.id) port _) rfl
          s ch hs

/-- What an operation leaves. -/
structure Leaves (t : Watched) (h : (k : SyncdKey) → Option (SyncdHash k)) (total : Int)
    (seen : List PortState) : Prop where
  hash : t.hash = h
  total : t.total = total
  seen : t.seen = seen

theorem Leaves.settled {t : Watched} {h : (k : SyncdKey) → Option (SyncdHash k)} {total : Int}
    {seen : List PortState} (ht : Leaves t h total seen) (ok : PortsOk h total seen) :
    Settled t := by
  unfold Settled
  rw [ht.hash, ht.total, ht.seen]
  exact ok

section Leaves

variable {s : Watched} {marker : SyncdKey} {v : SyncdHash marker}

theorem leaves_putHash (ch : Nat) :
    Leaves (Watched.exec (.syncd (.putHash marker v)) ch s).2
      (Function.update s.hash marker (some v)) s.total s.seen :=
  ⟨rfl, rfl, rfl⟩

theorem leaves_replaceAlarmOnce (v : SyncdHash marker) (id : AlarmId) (alarm : Option Alarm)
    (event : AlarmEvent) (h : s.hash marker = none) (ch : Nat) :
    Leaves (Watched.exec (.syncd (.replaceAlarmOnce marker v id alarm event)) ch s).2
      (Function.update (Function.update s.hash (.activeAlarm id) alarm) marker (some v)) s.total
      s.seen := by
  refine ⟨?_, congrArg (counterTotal · .portDownTotal) (onceSyncd_counters rfl), rfl⟩
  change (World.onceSyncd _ _ _ _).2.syncd.hash = _
  rw [onceSyncd_none h]
  rfl

theorem leaves_incrementOnce {u : CounterUpdate} (h : s.hash marker = none) (ch : Nat) :
    Leaves (Watched.exec (.syncd (.incrementOnce marker v u)) ch s).2
      (Function.update s.hash marker (some v)) (s.total + u.amount .portDownTotal) s.seen := by
  have hexec : (MiniOcs.exec (.syncd (.incrementOnce marker v u)) ch s.world).2 =
      { s.world with counters := s.world.counters ++ [u] }.markSyncd marker v :=
    congrArg Prod.snd (onceSyncd_none h)
  refine ⟨?_, ?_, rfl⟩
  · exact congrArg (fun w => w.syncd.hash) hexec
  · exact (congrArg (fun w => counterTotal w.counters .portDownTotal) hexec).trans
      (counterTotal_concat _ _ _)

theorem incrementOnce_marked {u : CounterUpdate} (h : (s.hash marker).isSome) (ch : Nat) :
    (Watched.exec (.syncd (.incrementOnce marker v u)) ch s).2 = s := by
  have hexec : (MiniOcs.exec (.syncd (.incrementOnce marker v u)) ch s.world).2 = s.world :=
    congrArg Prod.snd (onceSyncd_some h)
  simp only [Watched.exec, hexec]
  rfl

end Leaves

theorem keeps_countRaised {activation : ActivationId} (hdown : portUnavailable port = true) :
    Keeps (Uncounted port activation)
      (countAlarm activation false [(.activeAlarms, 1), (.portDownTotal, 1)])
      fun _ => Settled := by
  refine Keeps.send (fun _ => Settled) (stable_uncounted port activation) (fun _ _ => trivial)
    (fun s ch hs _ => ?_) fun _ => Triple.pure framed_settled.stable fun _ h => h
  obtain ⟨earlier, h, alarm, hseen, hfresh, hhash⟩ := hs
  obtain ⟨n, rfl⟩ := hfresh.named
  have hnone : s.world.syncd.hash
      (.alarmCounterPublication (.port port.direction port.id n) false) = none := by
    change s.hash _ = none
    rw [hhash]
    simpa using (hfresh.ok.known _ _ _ hfresh.unpublished).2
  have hok := hfresh.ok.raise (a := alarm) hdown hfresh.before hfresh.fault rfl rfl
    hfresh.unpublished
  rw [← hhash, ← hseen] at hok
  exact (leaves_incrementOnce hnone ch).settled hok

/-- The alarm of a fresh fault is published and counted. -/
theorem keeps_raise {activation : ActivationId} {affected : Nat}
    (hdown : portUnavailable port = true) :
    Keeps (Opened port activation) (publishPortAlarm port activation affected)
      fun _ => Settled := by
  refine Keeps.getHash (stable_opened port activation) rfl fun marker => ?_
  have hstable : ∀ v, Stable portContract fun s => Opened port activation s ∧
      s.hash (.portAlarmPublication activation) = v := fun v =>
    Stable.and (stable_opened port activation) (stable_hash _ v)
  cases marker with
  | some marker =>
      intro s hs
      obtain ⟨⟨earlier, -, hfresh⟩, hmarker⟩ := hs
      rw [hfresh.unpublished] at hmarker
      cases hmarker
  | none =>
      refine Keeps.now (hstable _) fun now => ?_
      refine Keeps.send (fun _ => Uncounted port activation) (hstable _) (fun _ _ => trivial)
        (fun s ch hs _ => ?_) fun _ => keeps_countRaised hdown
      obtain ⟨⟨earlier, hseen, hfresh⟩, hmarker⟩ := hs
      have hleaves := leaves_replaceAlarmOnce () (portAlarm port activation affected now).id
        (some (portAlarm port activation affected now))
        ⟨portAlarm port activation affected now, .upsert⟩ hmarker ch
      exact ⟨earlier, s.hash, portAlarm port activation affected now, hseen,
        by rw [hleaves.total]; exact hfresh, hleaves.hash⟩

/-- The alarm of a port that is still down stands. -/
theorem keeps_stillDown {activation : ActivationId} {affected : Nat} :
    Keeps (StillDown activation) (publishPortAlarm port activation affected)
      fun _ => Settled := by
  refine Keeps.getHash (stable_stillDown activation) rfl fun marker => ?_
  cases marker with
  | none =>
      intro s hs
      obtain ⟨⟨-, hpub, -⟩, hmarker⟩ := hs
      rw [hmarker] at hpub
      cases hpub
  | some marker =>
      refine Triple.pre ?_ fun s hs => hs.1
      refine Keeps.send (fun _ => Settled) (stable_stillDown activation) (fun _ _ => trivial)
        (fun s ch hs _ => ?_) fun _ => Triple.pure framed_settled.stable fun _ h => h
      rw [incrementOnce_marked hs.2.2]
      exact hs.1

theorem Ahead.settled {s : Watched} {earlier : List PortState} (hseen : s.seen = port :: earlier)
    (ok : PortsOk s.hash s.total earlier)
    (hsame : seenDown earlier port.direction port.id = portUnavailable port) : Settled s := by
  unfold Settled
  rw [hseen]
  exact ok.again hsame

/-- The faults of ports that are down are open. -/
theorem PortsOk.not_down {h : (k : SyncdKey) → Option (SyncdHash k)} {total : Int}
    {seen : List PortState} (ok : PortsOk h total seen) {d : PortDirection} {i : Nat}
    (hclosed : (h (.portFault d i)).filter (fun fault => fault.status ≠ .recovered) = none) :
    seenDown seen d i = false := by
  by_contra hdown
  rw [Bool.not_eq_false] at hdown
  obtain ⟨fault, hfault, hopen⟩ := ok.down d i hdown
  rw [hfault] at hclosed
  rcases hopen.status with hstatus | hstatus <;> simp [hstatus] at hclosed

theorem keeps_portDown {fault : Option PortFault} {affected : Nat}
    (hdown : portUnavailable port = true) :
    Keeps (fun s => Ahead port s ∧ s.hash (.portFault port.direction port.id) = fault)
      (openPortFault port fault >>= fun activation => publishPortAlarm port activation affected)
      fun _ => Settled := by
  have hstable := Stable.and (framed_ahead port).stable
    (stable_hash (.portFault port.direction port.id) fault)
  unfold openPortFault
  split
  · rename_i open' hopen
    refine keeps_stillDown.pre ?_
    rintro s ⟨⟨earlier, hseen, ok, hclosed⟩, hfault⟩
    obtain ⟨rfl, hstatus⟩ := Option.filter_eq_some_iff.mp hopen
    have hbefore : seenDown earlier port.direction port.id = true := by
      rcases hclosed hdown with hbefore | hclosed
      · exact hbefore
      · rw [hfault] at hclosed
        simp_all [faultClosed]
    obtain ⟨fault', hfault', ho⟩ := ok.down _ _ hbefore
    rw [hfault] at hfault'
    cases hfault'
    exact ⟨Ahead.settled hseen ok (hbefore.trans hdown.symm), ho.published, ho.counted⟩
  · rename_i hclosed
    refine Keeps.now hstable fun now => ?_
    refine Keeps.send (fun _ => Opened port (.port port.direction port.id now)) hstable
      (fun _ _ => trivial) (fun s ch hs hsteady => ?_) fun _ => keeps_raise hdown
    obtain ⟨⟨earlier, hseen, ok, -⟩, hfault⟩ := hs
    have hbefore := ok.not_down (by rw [hfault]; exact hclosed)
    have hnew : s.hash (.portAlarmPublication (.port port.direction port.id now)) = none := by
      simpa [steady, Watched.hash] using hsteady
    refine ⟨earlier, hseen, ?_, hbefore, ⟨now, rfl⟩, Function.update_self _ _ _, ?_⟩
    · refine ok.setFault ⟨now, rfl⟩ fun h => ?_
      rw [hbefore] at h
      cases h
    · rw [(leaves_putHash ch).hash]
      simpa using hnew

/-- A port that is available again, with its fault still open. -/
def Closing (port : PortState) (fault : PortFault) (s : Watched) : Prop :=
  Settled s ∧ seenDown s.seen port.direction port.id = false ∧
    s.hash (.portFault port.direction port.id) = some fault

theorem framed_closing (port : PortState) (fault : PortFault) : Framed (Closing port fault) := by
  rintro s t hst ⟨hset, hup, hfault⟩
  refine ⟨framed_settled s t hst hset, by rw [hst.seen]; exact hup, ?_⟩
  rw [hst.hash _ rfl]
  exact hfault

theorem Closing.of_same {fault : PortFault} {s : Watched} {earlier : List PortState}
    (hup : portUnavailable port = false) (hseen : s.seen = port :: earlier)
    (ok : PortsOk s.hash s.total earlier)
    (hbefore : seenDown earlier port.direction port.id = false)
    (hfault : s.hash (.portFault port.direction port.id) = some fault) : Closing port fault s := by
  refine ⟨Ahead.settled hseen ok (hbefore.trans hup.symm), ?_, hfault⟩
  rw [hseen, seenDown_cons_self]
  exact hup

theorem keeps_countClearedPortAlarm {fault : PortFault} {activation : ActivationId}
    {marker : Option Unit} :
    Keeps (Closing port fault) (countClearedPortAlarm activation marker)
      fun _ => Closing port fault := by
  have hstable := (framed_closing port fault).stable
  cases marker with
  | none => exact Triple.pure hstable fun _ h => h
  | some marker =>
      refine Keeps.send (fun _ => Closing port fault) hstable (fun _ _ => trivial)
        (fun s ch hs _ => ?_) fun _ => Triple.pure hstable fun _ h => h
      by_cases hmarked : (s.hash (.alarmCounterPublication activation true)).isSome
      · rw [incrementOnce_marked hmarked]
        exact hs
      · rw [Bool.not_eq_true, Option.isSome_eq_false_iff, Option.isNone_iff_eq_none] at hmarked
        obtain ⟨hset, hup, hfault⟩ := hs
        have hleaves := leaves_incrementOnce (v := ()) (s := s)
          (u := { increments := [(.activeAlarms, -1)] }) hmarked ch
        refine ⟨hleaves.settled ?_, hup, ?_⟩
        · have hok := hset.setCounter activation true (.inl rfl)
          simpa [CounterUpdate.amount] using hok
        · rw [hleaves.hash]
          simpa using hfault

theorem keeps_clearPortAlarm {fault : PortFault} (hup : portUnavailable port = false) :
    Keeps (fun s => Ahead port s ∧ s.hash (.portFault port.direction port.id) = some fault)
      (clearPortAlarm port fault.activationId) fun _ => Closing port fault := by
  have hstable := Stable.and (framed_ahead port).stable
    (stable_hash (.portFault port.direction port.id) (some fault))
  -- an alarm that was cleared, or is not there, belongs to a port seen available before
  have hknown : ∀ (s : Watched) earlier, PortsOk s.hash s.total earlier →
      s.hash (.portFault port.direction port.id) = some fault →
      seenDown earlier port.direction port.id = true → OpenFault s.hash fault := by
    intro s earlier ok hfault hdown
    obtain ⟨fault', hfault', ho⟩ := ok.down _ _ hdown
    rw [hfault] at hfault'
    cases hfault'
    exact ho
  refine Keeps.getHash hstable rfl fun marker => ?_
  cases marker with
  | some marker =>
      refine keeps_countClearedPortAlarm.pre ?_
      rintro s ⟨⟨⟨earlier, hseen, ok, -⟩, hfault⟩, hmarker⟩
      refine Closing.of_same hup hseen ok ?_ hfault
      by_contra hdown
      rw [Bool.not_eq_false] at hdown
      rw [(hknown s earlier ok hfault hdown).uncleared] at hmarker
      cases hmarker
  | none =>
      have hstable' := Stable.and hstable
        (stable_hash (.portAlarmClearPublication fault.activationId) none)
      refine Keeps.getHash hstable' rfl fun active => ?_
      cases active with
      | none =>
          refine Triple.pure (framed_closing port fault).stable ?_
          rintro s ⟨⟨⟨⟨earlier, hseen, ok, -⟩, hfault⟩, -⟩, hactive⟩
          refine Closing.of_same hup hseen ok ?_ hfault
          rw [← ok.alarm, hactive]
          rfl
      | some alarm =>
          have hstable'' := Stable.and hstable'
            (stable_hash (.activeAlarm (.portDown port.direction port.id)) (some alarm))
          refine Keeps.now hstable'' fun now => ?_
          refine Keeps.send (fun _ => Closing port fault) hstable'' (fun _ _ => trivial)
            (fun s ch hs _ => ?_) fun _ => ?_
          · obtain ⟨⟨⟨⟨earlier, hseen, ok, -⟩, hfault⟩, hmarker⟩, hactive⟩ := hs
            have hdown : seenDown earlier port.direction port.id = true := by
              rw [← ok.alarm, hactive]
              rfl
            obtain ⟨n, hn⟩ := ok.named _ _ _ hfault
            have hpub := (hknown s earlier ok hfault hdown).published
            have hok := ok.clear hup (by rw [← hn]; exact hpub)
            rw [← hn] at hok
            have hleaves := leaves_replaceAlarmOnce () (.portDown port.direction port.id) none
              ⟨{ alarm with active := false, lastChangeNs := now }, .remove⟩ hmarker ch
            rw [← hseen] at hok
            refine ⟨hleaves.settled hok, ?_, ?_⟩
            · rw [hleaves.seen, hseen, seenDown_cons_self]
              exact hup
            · rw [hleaves.hash]
              simpa using hfault
          · refine Keeps.getHash (framed_closing port fault).stable rfl fun marker => ?_
            exact keeps_countClearedPortAlarm.pre fun s hs => hs.1

theorem keeps_closePortFault {fault : Option PortFault} (hup : portUnavailable port = false) :
    Keeps (fun s => Ahead port s ∧ s.hash (.portFault port.direction port.id) = fault)
      (closePortFault port fault) fun _ => Settled := by
  unfold closePortFault
  split
  · rename_i hclosed
    refine Triple.pure framed_settled.stable ?_
    rintro s ⟨⟨earlier, hseen, ok, -⟩, hfault⟩
    have hbefore := ok.not_down (by rw [hfault]; exact hclosed)
    exact Ahead.settled hseen ok (hbefore.trans hup.symm)
  · rename_i fault' hopen
    obtain ⟨rfl, -⟩ := Option.filter_eq_some_iff.mp hopen
    refine Triple.bind (keeps_clearPortAlarm hup) fun _ => ?_
    have hstatus : (clearedStatus fault').Only (Within noKey noField) := by
      unfold clearedStatus
      split
      · trivial
      · refine only_send trivial fun processed => ?_
        split <;> trivial
      · trivial
    refine Triple.bind (Keeps.quiet hstatus (fun _ _ => rfl) rfl (framed_closing port fault')
      fun s hs => hs.1) fun status => ?_
    refine Keeps.last (framed_closing port fault').stable (fun _ => framed_settled.stable)
      (fun _ _ => trivial) fun s ch hs _ => ?_
    obtain ⟨hset, hseen, hfault⟩ := hs
    have hname := hset.named _ _ _ hfault
    refine (leaves_putHash ch).settled (hset.setFault hname fun hdown => ?_)
    rw [hseen] at hdown
    cases hdown

/-- A poll of one port. -/
theorem keeps_publishPortState {affected : Nat} :
    Keeps (fun s => Settled s ∧ s.reply = some port) (publishPortState port affected)
      fun _ => Settled := by
  have hstable : Stable portContract fun s => Settled s ∧ s.reply = some port :=
    Stable.and framed_settled.stable fun s t hs hst => (Elsewhere.reply hst).trans hs
  refine Keeps.send (fun _ => Ahead port) hstable (fun _ _ => trivial)
    (fun s ch hs hsteady => ?_) fun previous => keeps_publishPortChange ?_
  · obtain ⟨hset, hreply⟩ := hs
    refine ⟨s.seen, ?_, hset, fun hdown => ?_⟩
    · simp [Watched.exec, Watched.note, hreply]
    · have hclosed : seenDown s.seen port.direction port.id = true ∨
          faultClosed (s.world.syncd.hash (.portFault port.direction port.id)) = true := by
        simpa [steady, hreply, hdown] using hsteady
      exact hclosed
  · refine Keeps.getHash (framed_ahead port).stable rfl fun fault => ?_
    split_ifs with hdown
    · exact keeps_portDown hdown
    · exact keeps_closePortFault (by simpa using hdown)

end Polling

theorem keeps_pollDirection (direction : PortDirection) (actual : List AppliedConnection)
    (unavailable ids : List Nat) :
    Keeps Settled (pollDirection direction actual unavailable ids) fun _ => Settled := by
  induction ids generalizing unavailable with
  | nil => exact Triple.pure framed_settled.stable fun _ h => h
  | cons id rest ih =>
      refine Keeps.send (fun reply s => Settled s ∧ s.reply = reply.toOption)
        framed_settled.stable (fun _ _ => trivial) (fun s ch hs _ => ?_) fun reply => ?_
      · exact ⟨hs, rfl⟩
      · have hstable : Stable portContract fun s => Settled s ∧ s.reply = reply.toOption :=
          Stable.and framed_settled.stable fun s t hs hst => (Elsewhere.reply hst).trans hs
        refine Triple.bind (keeps_readOrRaise hstable fun s hs => hs.1) fun port => ?_
        refine Triple.bind (keeps_publishPortState.pre ?_) fun _ => ih _
        rintro s ⟨⟨hset, hreply⟩, rfl⟩
        exact ⟨hset, hreply⟩

theorem keeps_pollPortStates (info : DeviceInfo) (actual : List AppliedConnection) :
    Keeps Settled (pollPortStates info actual) fun _ => Settled := by
  refine Triple.bind (keeps_pollDirection _ _ _ _) fun inputs => ?_
  refine Triple.bind (keeps_pollDirection _ _ _ _) fun outputs => ?_
  exact Triple.pure framed_settled.stable fun _ h => h

/-! ## Faults in reconciliation -/

/-- The faults are stored as they were read. -/
def Stored (faults : List ((PortDirection × Nat) × PortFault)) (s : Watched) : Prop :=
  Settled s ∧ ∀ fault ∈ faults, s.hash (.portFault fault.1.1 fault.1.2) = some fault.2

theorem framed_stored (faults : List ((PortDirection × Nat) × PortFault)) :
    Framed (Stored faults) := by
  rintro s t hst ⟨hset, hstored⟩
  refine ⟨framed_settled s t hst hset, fun fault hfault => ?_⟩
  rw [hst.hash _ rfl]
  exact hstored fault hfault

theorem keeps_loadPortFaults (faults : List ((PortDirection × Nat) × PortFault))
    (keys : List (PortDirection × Nat)) :
    Keeps (Stored faults) (loadPortFaults faults keys) Stored := by
  induction keys generalizing faults with
  | nil => exact Triple.pure (framed_stored faults).stable fun _ h => h
  | cons key rest ih =>
      refine Keeps.getHash (framed_stored faults).stable rfl fun fault => ?_
      cases fault with
      | none => exact (ih faults).pre fun s hs => hs.1
      | some fault =>
          refine (ih (faults ++ [(key, fault)])).pre ?_
          rintro s ⟨⟨hset, hstored⟩, hfault⟩
          refine ⟨hset, fun f hf => ?_⟩
          rcases List.mem_append.mp hf with hf | hf
          · exact hstored f hf
          · rw [List.mem_singleton.mp hf]
            exact hfault

theorem keeps_portFaults : Keeps Settled portFaults Stored := by
  refine Keeps.send (fun _ => Settled) framed_settled.stable (fun _ _ => trivial)
    (fun _ _ hs _ => hs) fun keys => ?_
  exact (keeps_loadPortFaults [] keys).pre fun s hs => ⟨hs, fun _ hf => by cases hf⟩

/-- An entry leaves the ports alone, or moves a fault on under its name. -/
def Moves (h : (k : SyncdKey) → Option (SyncdHash k)) (entry : SyncdEntry) : Prop :=
  isPortKey entry.1 = true → ∃ d i fault fault', entry = ⟨.portFault d i, fault'⟩ ∧
    h (.portFault d i) = some fault ∧ fault'.activationId = fault.activationId ∧
    (fault'.status = .recoveryPublished ∨ fault'.status = .recovered)

theorem Moves.update {h : (k : SyncdKey) → Option (SyncdHash k)} {entry other : SyncdEntry}
    (hentry : Moves h entry) (hother : Moves h other) :
    Moves (Function.update h entry.1 (some entry.2)) other := by
  intro hkey
  obtain ⟨d, i, fault, fault', rfl, hfault, hname, hstatus⟩ := hother hkey
  by_cases hsame : SyncdKey.portFault d i = entry.1
  · obtain ⟨d', i', old, new, rfl, hold, hname', -⟩ := hentry (by rw [← hsame]; rfl)
    cases hsame
    rw [hfault] at hold
    cases hold
    exact ⟨d, i, new, fault', rfl, Function.update_self _ _ _, hname.trans hname'.symm, hstatus⟩
  · exact ⟨d, i, fault, fault', rfl, (Function.update_of_ne hsame _ _).trans hfault, hname,
      hstatus⟩

theorem PortsOk.move {h : (k : SyncdKey) → Option (SyncdHash k)} {total : Int}
    {seen : List PortState} (ok : PortsOk h total seen) {entry : SyncdEntry}
    (hentry : Moves h entry) (hrest : restsAvailable seen entry = true) :
    PortsOk (Function.update h entry.1 (some entry.2)) total seen := by
  by_cases hkey : isPortKey entry.1 = true
  · obtain ⟨d, i, fault, fault', rfl, hfault, hname, hstatus⟩ := hentry hkey
    refine ok.setFault (by rw [hname]; exact ok.named d i fault hfault) fun hdown => ?_
    obtain ⟨open', hopen, ho⟩ := ok.down d i hdown
    rw [hfault] at hopen
    cases hopen
    refine ⟨?_, by rw [hname]; exact ho.published, by rw [hname]; exact ho.counted,
      by rw [hname]; exact ho.uncleared⟩
    rcases hstatus with hstatus | hstatus
    · exact .inr hstatus
    · simp [restsAvailable, hstatus, hdown] at hrest
  · refine ok.congr fun k hk => Function.update_of_ne ?_ _ _
    rintro rfl
    exact hkey hk

theorem PortsOk.putEntries {w : World} {total : Int} {seen : List PortState}
    {entries : List SyncdEntry} (ok : PortsOk w.syncd.hash total seen)
    (hentries : ∀ entry ∈ entries, Moves w.syncd.hash entry)
    (hrest : entries.all (restsAvailable seen) = true) :
    PortsOk (w.putEntries entries).syncd.hash total seen := by
  induction entries generalizing w with
  | nil => exact ok
  | cons entry rest ih =>
      simp only [List.all_cons, Bool.and_eq_true] at hrest
      have hentry := hentries entry List.mem_cons_self
      rw [putEntries_cons]
      refine ih (ok.move hentry hrest.1) (fun other hother => ?_) hrest.2
      exact hentry.update (hentries other (List.mem_cons_of_mem _ hother))

theorem keeps_putEntries {entries : List SyncdEntry} {K : Watched → Prop}
    (hK : Stable portContract K) (hset : ∀ s, K s → Settled s)
    (hmoves : ∀ s, K s → ∀ entry ∈ entries, Moves s.hash entry) :
    Keeps K (send (.putHashesAtomically entries)) fun _ => Settled := by
  refine Keeps.last hK (fun _ => framed_settled.stable) (fun _ _ => trivial)
    fun s ch hs hsteady => ?_
  exact PortsOk.putEntries (hset s hs) (hmoves s hs) hsteady

/-- Faults that were read are moved on. -/
theorem moves_portFaultEntry {faults : List ((PortDirection × Nat) × PortFault)} {s : Watched}
    (hs : Stored faults s) {fault : (PortDirection × Nat) × PortFault} (hmem : fault ∈ faults)
    {fault' : PortFault} (hname : fault'.activationId = fault.2.activationId)
    (hstatus : fault'.status = .recoveryPublished ∨ fault'.status = .recovered) :
    Moves s.hash (portFaultEntry (fault.1, fault')) :=
  fun _ => ⟨fault.1.1, fault.1.2, fault.2, fault', rfl, hs.2 fault hmem, hname, hstatus⟩

theorem keeps_associatePortFaults (command : CommandId) :
    Keeps Settled (associatePortFaults command) fun _ => Settled := by
  refine Triple.bind keeps_portFaults fun faults => ?_
  have hstable := (framed_stored faults).stable
  dsimp only
  split_ifs
  · exact Triple.pure framed_settled.stable fun s hs => hs.1
  · refine keeps_putEntries hstable (fun s hs => hs.1) fun s hs entry hentry => ?_
    obtain ⟨fault, hfault, rfl⟩ := List.mem_map.mp hentry
    exact moves_portFaultEntry hs (List.mem_filter.mp hfault).1 rfl (.inl rfl)

theorem keeps_recoverFaults (faults : List ((PortDirection × Nat) × PortFault)) :
    Keeps (Stored faults) (recoverFaults faults) fun _ => Settled := by
  unfold recoverFaults
  dsimp only
  split_ifs
  · exact Triple.pure framed_settled.stable fun s hs => hs.1
  · refine keeps_putEntries (framed_stored faults).stable (fun s hs => hs.1)
      fun s hs entry hentry => ?_
    obtain ⟨fault, hfault, rfl⟩ := List.mem_map.mp hentry
    exact moves_portFaultEntry hs (List.mem_filter.mp hfault).1 rfl (.inr rfl)

/-! ## Commands -/

/-- The entries move faults on, or leave the ports alone. -/
def Movable (entries : List SyncdEntry) (s : Watched) : Prop :=
  Settled s ∧ ∀ entry ∈ entries, Moves s.hash entry

theorem framed_movable (entries : List SyncdEntry) : Framed (Movable entries) := by
  rintro s t hst ⟨hset, hmoves⟩
  refine ⟨framed_settled s t hst hset, fun entry hentry hkey => ?_⟩
  obtain ⟨d, i, fault, fault', rfl, hfault, hrest⟩ := hmoves entry hentry hkey
  refine ⟨d, i, fault, fault', rfl, ?_, hrest⟩
  rw [hst.hash _ rfl]
  exact hfault

theorem keeps_versionEntries (generation : Nat) (entries : List SyncdEntry)
    (commands : List ConnectionCommand) (hentries : ∀ entry ∈ entries, isPortKey entry.1 = false) :
    Keeps Settled (versionEntries generation entries commands) fun entries s =>
      Settled s ∧ ∀ entry ∈ entries, isPortKey entry.1 = false := by
  induction commands generalizing entries with
  | nil =>
      exact Triple.pure (Stable.and framed_settled.stable fun _ _ h _ => h)
        fun s hs => ⟨hs, hentries⟩
  | cons command rest ih =>
      refine Keeps.send (fun _ => Settled) framed_settled.stable (fun _ _ => trivial)
        (fun _ _ hs _ => hs) fun existing => ?_
      split_ifs
      · exact ih entries hentries
      · refine ih _ fun entry hentry => ?_
        rcases List.mem_append.mp hentry with hentry | hentry
        · exact hentries entry hentry
        · rw [List.mem_singleton.mp hentry]
          rfl

theorem keeps_appliedVersions (generation : Nat) (commands : List ConnectionCommand)
    (applied : Bool) :
    Keeps Settled (appliedVersions generation commands applied) fun entries s =>
      Settled s ∧ ∀ entry ∈ entries, isPortKey entry.1 = false := by
  unfold appliedVersions
  split_ifs
  · exact keeps_versionEntries generation [] commands fun _ h => by cases h
  · exact Triple.pure (Stable.and framed_settled.stable fun _ _ h _ => h)
      fun s hs => ⟨hs, fun _ h => by cases h⟩

theorem moves_controlEntry {h : (k : SyncdKey) → Option (SyncdHash k)} {command : CommandId}
    {applied : Bool} {control : Option ReconciliationControl} :
    ∀ entry ∈ controlEntry command applied control, Moves h entry := by
  intro entry hentry hkey
  cases control with
  | none => cases hentry
  | some control =>
      by_cases hcommand : control.command = command
      · simp only [controlEntry, hcommand, if_true, List.mem_singleton] at hentry
        rw [hentry] at hkey
        cases hkey
      · simp only [controlEntry, hcommand, if_false, List.not_mem_nil] at hentry

theorem keeps_markReconciliation (event : CommandEvent) (applied : Bool) :
    Keeps Settled (markReconciliation event applied) Movable := by
  have hread := Keeps.quiet (K := Settled) (p := send (.getHash .reconciliation))
    (only_last trivial) (fun _ _ => rfl) (rfl : noField .portDownTotal = false) framed_settled
    fun _ h => h
  unfold markReconciliation
  split_ifs
  · exact Triple.pure (framed_movable _).stable fun s hs => ⟨hs, fun _ h => by cases h⟩
  · refine Triple.bind hread fun control => ?_
    have hcount : (send (.incrementOnce (.reconciliationSuccessPublication event.id) ()
        { increments := [(.reconciliationSuccessTotal, 1)] })).Only
          (Within isReconciliationKey isSuccessField) := by
      refine only_last ⟨rfl, fun increment hmem => ?_⟩
      rw [List.mem_singleton.mp hmem]
      rfl
    refine Triple.bind (Keeps.quiet hcount reconciliation_aside rfl framed_settled
      fun _ h => h) fun _ => ?_
    refine Triple.bind keeps_portFaults fun faults => ?_
    refine Triple.pure (framed_movable _).stable fun s hs => ⟨hs.1, fun entry hentry => ?_⟩
    rcases List.mem_append.mp hentry with hentry | hentry
    · exact moves_controlEntry entry hentry
    · obtain ⟨fault, hfault, rfl⟩ := List.mem_map.mp hentry
      exact moves_portFaultEntry hs (List.mem_filter.mp hfault).1 rfl (.inr rfl)
  · refine Triple.bind hread fun control => ?_
    exact Triple.pure (framed_movable _).stable fun s hs => ⟨hs, moves_controlEntry⟩

theorem keeps_markProcessed (event : CommandEvent) (batch : DeviceCommandBatch) (applied : Bool) :
    Keeps Settled (markProcessed event batch applied) fun _ => Settled := by
  refine Keeps.send (fun _ => Settled) framed_settled.stable (fun _ _ => trivial)
    (fun _ _ hs _ => hs) fun memory => ?_
  refine Triple.bind (keeps_appliedVersions _ _ _) fun versions => Triple.lift fun hversions => ?_
  refine Triple.bind (keeps_markReconciliation event applied) fun repairs => ?_
  refine keeps_putEntries (framed_movable _).stable (fun s hs => hs.1) fun s hs entry hentry => ?_
  rcases List.mem_append.mp hentry with hentry | hentry
  · intro hkey
    rcases List.mem_cons.mp hentry with rfl | hentry
    · cases hkey
    · rw [hversions entry hentry] at hkey
      cases hkey
  · exact hs.2 entry hentry

theorem keeps_command {α : Type} {p : Service α} (hp : p.Only (Within isCommandKey isApplyField)) :
    Keeps Settled p fun _ => Settled :=
  Keeps.quiet hp command_aside rfl framed_settled fun _ h => h

theorem keeps_idle {α : Type} {p : Service α} (hp : p.Only (Within noKey noField)) :
    Keeps Settled p fun _ => Settled :=
  Keeps.quiet hp (fun _ _ => rfl) rfl framed_settled fun _ h => h

theorem keeps_acknowledge (n : Nat) : Keeps Settled (acknowledge n) fun _ => Settled := by
  refine Keeps.send (fun _ => Settled) framed_settled.stable (fun _ _ => trivial)
    (fun s ch hs _ => framed_settled s _ ⟨fun _ _ => rfl, rfl, rfl⟩ hs) fun acknowledged => ?_
  split_ifs
  · exact Triple.pure framed_settled.stable fun _ h => h
  · exact keeps_idle (only_raise trivial)

theorem keeps_finishCommand (n : Nat) (event : CommandEvent) (batch : DeviceCommandBatch)
    (stored : StoredResult) :
    Keeps Settled (finishCommand n event batch stored) fun _ => Settled := by
  refine Triple.bind (keeps_command (within_publishState _ _ _ _)) fun delta => ?_
  refine Triple.bind (keeps_command (only_last ⟨rfl, applyIncrements_fields _ _⟩)) fun _ => ?_
  refine Triple.bind (keeps_command (within_publishResult _ _ _)) fun _ => ?_
  refine Triple.bind (keeps_markProcessed _ _ _) fun _ => ?_
  exact keeps_acknowledge n

theorem keeps_attemptCommand (n : Nat) (event : CommandEvent) (batch : DeviceCommandBatch) :
    Keeps Settled (attemptCommand n event batch) fun _ => Settled := by
  refine Triple.bind (keeps_command (only_last rfl)) fun _ => ?_
  refine Triple.bind (keeps_idle (within_applyCommand _ _)) fun result => ?_
  refine Triple.bind (keeps_idle (only_last trivial)) fun latencyMs => ?_
  refine Triple.bind (keeps_command (only_last rfl)) fun _ => ?_
  refine Triple.bind (keeps_idle (only_last trivial)) fun stored => ?_
  cases stored with
  | none => exact keeps_idle (only_raise trivial)
  | some stored => exact keeps_finishCommand _ _ _ _

theorem keeps_startCommand (n : Nat) (event : CommandEvent) (batch : DeviceCommandBatch) :
    Keeps Settled (startCommand n event batch) fun _ => Settled := by
  refine Triple.bind (keeps_idle (only_last trivial)) fun stored => ?_
  cases stored with
  | some stored => exact keeps_finishCommand _ _ _ _
  | none =>
      refine Triple.bind (keeps_idle (only_last trivial)) fun attempt => ?_
      cases attempt with
      | some attempt => exact keeps_attemptCommand _ _ _
      | none =>
          refine Triple.bind (keeps_idle (within_isStaleVersion _ _)) fun stale => ?_
          split_ifs
          · exact Triple.bind (keeps_markProcessed _ _ _) fun _ =>
              keeps_acknowledge n
          · exact keeps_attemptCommand _ _ _

theorem keeps_processOne : Keeps Settled processOne fun _ => Settled := by
  refine Triple.bind (keeps_idle within_nextCommand) fun message => ?_
  cases message with
  | none => exact Triple.pure framed_settled.stable fun _ h => h
  | some message =>
      obtain ⟨n, event⟩ := message
      refine Triple.bind (keeps_idle (only_last trivial)) fun processed => ?_
      cases processed with
      | some applied => exact keeps_acknowledge n
      | none =>
          dsimp only
          split
          · refine Triple.bind (keeps_idle (within_recoverPreparedBatch _)) fun batch => ?_
            exact Triple.bind (keeps_command (only_last rfl)) fun _ => keeps_startCommand _ _ _
          · exact keeps_startCommand _ _ _

/-! ## Drift alarms -/

theorem keeps_countDrift {activation : ActivationId} {clear : Bool} {amount : Int}
    (hdrift : isDriftActivation activation = true) :
    Keeps Settled (countAlarm activation clear [(.activeAlarms, amount)]) fun _ => Settled := by
  refine Keeps.send (fun _ => Settled) framed_settled.stable (fun _ _ => trivial)
    (fun s ch hs _ => ?_) fun _ => Triple.pure framed_settled.stable fun _ h => h
  by_cases hmarked : (s.hash (.alarmCounterPublication activation clear)).isSome
  · rw [incrementOnce_marked hmarked]
    exact hs
  · rw [Bool.not_eq_true, Option.isSome_eq_false_iff, Option.isNone_iff_eq_none] at hmarked
    refine (leaves_incrementOnce hmarked ch).settled ?_
    have hok := PortsOk.setCounter hs activation clear (.inr hdrift)
    simpa [CounterUpdate.amount] using hok

theorem keeps_countDriftAlarm {marker : Option AlarmMarker}
    (hdrift : ∀ m, marker = some m → isDriftActivation m.activationId = true) :
    Keeps Settled (countDriftAlarm marker) fun _ => Settled := by
  cases marker with
  | none => exact keeps_idle (only_raise trivial)
  | some marker =>
      unfold countDriftAlarm
      dsimp only
      split_ifs
      · exact keeps_countDrift (hdrift marker rfl)
      · exact Triple.pure framed_settled.stable fun _ h => h

theorem keeps_countClearedDriftAlarm {marker : Option AlarmMarker}
    (hdrift : ∀ m, marker = some m → isDriftActivation m.activationId = true) :
    Keeps Settled (countClearedDriftAlarm marker) fun _ => Settled := by
  cases marker with
  | none => exact keeps_idle (only_raise trivial)
  | some marker => exact keeps_countDrift (hdrift marker rfl)

theorem keeps_publishDriftAlarm (command : CommandId) (desiredVersion count : Nat) :
    Keeps Settled (publishDriftAlarm command desiredVersion count) fun _ => Settled := by
  have hcount : ∀ marker, Keeps (fun s => Settled s ∧ s.hash (.driftAlarmPublication command) =
      marker) (countDriftAlarm marker) fun _ => Settled := by
    rintro marker s ⟨hs, hmarker⟩
    refine keeps_countDriftAlarm (fun m hm => ?_) s hs
    exact hs.driftRaised command m (hmarker.trans hm)
  refine Keeps.getHash framed_settled.stable rfl fun marker => ?_
  cases marker with
  | some marker => exact hcount (some marker)
  | none =>
      have hstable := Stable.and framed_settled.stable
        (stable_hash (.driftAlarmPublication command) none)
      refine Keeps.getHash hstable rfl fun active => ?_
      have hstable' := Stable.and hstable (stable_hash (.activeAlarm .desiredActualDrift) active)
      refine Keeps.now hstable' fun now => ?_
      refine Keeps.send (fun _ => Settled) hstable' (fun _ _ => trivial) (fun s ch hs _ => ?_)
        fun _ => Keeps.getHash framed_settled.stable rfl hcount
      obtain ⟨⟨hset, hmarker⟩, hactive⟩ := hs
      have hdrift : isDriftActivation
          (driftAlarm command desiredVersion count now active).activationId = true := by
        cases active with
        | none => rfl
        | some alarm => exact hset.drift alarm hactive
      exact (leaves_replaceAlarmOnce _ _ _ _ hmarker ch).settled (hset.raiseDrift hdrift hdrift)

theorem keeps_clearDriftAlarm (command : CommandId) (desiredVersion : Nat) :
    Keeps Settled (clearDriftAlarm command desiredVersion) fun _ => Settled := by
  have hcount : ∀ marker, Keeps (fun s => Settled s ∧
      s.hash (.driftAlarmClearPublication command) = marker) (countClearedDriftAlarm marker)
      fun _ => Settled := by
    rintro marker s ⟨hs, hmarker⟩
    refine keeps_countClearedDriftAlarm (fun m hm => ?_) s hs
    exact hs.driftCleared command m (hmarker.trans hm)
  refine Keeps.getHash framed_settled.stable rfl fun marker => ?_
  have hstable := Stable.and framed_settled.stable
    (stable_hash (.driftAlarmClearPublication command) marker)
  refine Keeps.getHash hstable rfl fun active => ?_
  cases marker with
  | some marker => exact (hcount (some marker)).pre fun s hs => hs.1
  | none =>
      cases active with
      | none => exact Triple.pure framed_settled.stable fun s hs => hs.1.1
      | some alarm =>
          have hstable' := Stable.and hstable
            (stable_hash (.activeAlarm .desiredActualDrift) (some alarm))
          refine Keeps.now hstable' fun now => ?_
          refine Keeps.send (fun _ => Settled) hstable' (fun _ _ => trivial)
            (fun s ch hs _ => ?_) fun _ => Keeps.getHash framed_settled.stable rfl hcount
          obtain ⟨⟨hset, hmarker⟩, hactive⟩ := hs
          exact (leaves_replaceAlarmOnce _ _ _ _ hmarker ch).settled
            (hset.clearDrift (hset.drift alarm hactive))

/-! ## Reconciliation -/

theorem keeps_reconciliation {α : Type} {p : Service α}
    (hp : p.Only (Within isReconciliationKey noField)) : Keeps Settled p fun _ => Settled :=
  Keeps.quiet hp reconciliation_aside rfl framed_settled fun _ h => h

theorem keeps_publishReconciliation (info : DeviceInfo) (plan : ReconciliationPlan)
    (control : ReconciliationControl) :
    Keeps Settled (publishReconciliation info plan control) fun _ => Settled := by
  refine Triple.bind (keeps_associatePortFaults _) fun _ => ?_
  refine Triple.bind (Keeps.quiet (within_publishReconciliationState _ _) driftKey_aside rfl
    framed_settled fun _ h => h) fun _ => ?_
  refine Triple.bind (keeps_publishDriftAlarm _ _ _) fun _ => ?_
  refine Triple.bind (keeps_reconciliation (only_last rfl)) fun _ => ?_
  refine Triple.bind (keeps_reconciliation (only_last ⟨rfl, rfl⟩)) fun _ => ?_
  exact keeps_reconciliation (only_last rfl)

theorem keeps_openReconciliation (info : DeviceInfo) (plan : ReconciliationPlan)
    (portRecovery stateRecovery : Bool) (control : Option ReconciliationControl) :
    Keeps Settled (openReconciliation info plan portRecovery stateRecovery control)
      fun _ => Settled := by
  unfold openReconciliation
  split
  · split_ifs
    · exact Triple.pure framed_settled.stable fun _ h => h
    · exact keeps_publishReconciliation _ _ _
  · refine Keeps.now framed_settled.stable fun now => ?_
    refine Triple.bind (keeps_reconciliation (only_last rfl)) fun _ => ?_
    exact keeps_publishReconciliation _ _ _

theorem keeps_convergeControl (control : Option ReconciliationControl) :
    Keeps Settled (convergeControl control) fun _ => Settled := by
  cases control with
  | none => exact Triple.pure framed_settled.stable fun _ h => h
  | some control =>
      unfold convergeControl
      dsimp only
      split_ifs
      · exact Triple.pure framed_settled.stable fun _ h => h
      · refine Triple.bind (keeps_clearDriftAlarm _ _) fun _ => ?_
        exact keeps_reconciliation (only_last rfl)

theorem keeps_recoverPlan (desired : List ConnectionCommand) (actual : List AppliedConnection)
    (faults : List ((PortDirection × Nat) × PortFault)) (plan : ReconciliationPlan) :
    Keeps (Stored faults) (recoverPlan desired actual faults plan) fun _ => Settled := by
  unfold recoverPlan
  split_ifs
  · exact Triple.pure framed_settled.stable fun s hs => hs.1
  · refine Triple.bind (Keeps.quiet (within_portDrifts _ _ _) (fun _ _ => rfl) rfl
      (framed_stored faults) fun s hs => hs.1) fun drifts => ?_
    split_ifs
    · refine Triple.bind (keeps_recoverFaults faults) fun _ => ?_
      exact Triple.pure framed_settled.stable fun _ h => h
    · exact Triple.pure framed_settled.stable fun s hs => hs.1

theorem keeps_reconcilePlan (info : DeviceInfo) (desired : List ConnectionCommand)
    (actual : List AppliedConnection) (plan : ReconciliationPlan) :
    Keeps Settled (reconcilePlan info desired actual plan) fun _ => Settled := by
  refine Triple.bind (keeps_idle (within_confirmPlan _ _ _)) fun confirmed => ?_
  refine Triple.bind keeps_portFaults fun faults => ?_
  refine Triple.bind (keeps_recoverPlan _ _ _ _) fun recovered => ?_
  refine Triple.bind (keeps_idle (only_last trivial)) fun control => ?_
  split_ifs
  · exact keeps_convergeControl _
  · exact keeps_openReconciliation _ _ _ _ _

theorem keeps_reconcileDevice (info : DeviceInfo) (actual : List AppliedConnection) :
    Keeps Settled (reconcileDevice info actual) fun _ => Settled := by
  refine Triple.bind (keeps_idle (only_send trivial fun keys => within_loadDesired _ _))
    fun desired => ?_
  refine Triple.bind (keeps_idle (only_send trivial fun keys => within_settled _ _))
    fun isSettled => ?_
  split_ifs
  · exact Triple.pure framed_settled.stable fun _ h => h
  · split
    · exact keeps_idle (only_raise trivial)
    · exact keeps_reconcilePlan _ _ _ _

/-! ## The poll -/

theorem keeps_recovery (info : DeviceInfo) (actual : List AppliedConnection) :
    Keeps Settled (scheduleGenerationRecovery info actual) fun _ => Settled :=
  Keeps.quiet (within_scheduleGenerationRecovery info actual) recovery_aside rfl framed_settled
    fun _ h => h

theorem keeps_refreshConnections (info : DeviceInfo) (actual effective : List AppliedConnection)
    (state : Option DeviceStateHash) :
    Keeps Settled (refreshConnections info actual effective state) fun _ => Settled := by
  unfold refreshConnections
  split_ifs
  · refine Triple.bind (keeps_idle (only_last trivial)) fun recovery => ?_
    refine Triple.bind (keeps_idle (within_recoveryPending _)) fun pending => ?_
    split_ifs
    · exact Triple.pure framed_settled.stable fun _ h => h
    · exact keeps_reconcileDevice _ _
  · exact keeps_recovery _ _

theorem keeps_readDevice {α : Type} (reply : Except String α) :
    Keeps Settled (readOrRaise reply) fun _ => Settled :=
  keeps_idle (within_readOrRaise reply)

theorem keeps_pollDevice : Keeps Settled pollDevice fun _ => Settled := by
  refine Triple.tryCatch (M := fun _ => Settled) ?_ fun error =>
    Keeps.quiet (within_pollFailed error) device_aside rfl framed_settled fun _ h => h
  refine Triple.bind (keeps_idle (only_last trivial)) fun reply => ?_
  refine Triple.bind (keeps_readDevice reply) fun info => ?_
  refine Triple.bind (keeps_idle (only_last trivial)) fun memory => ?_
  split_ifs
  · exact keeps_idle (only_raise trivial)
  · refine Triple.bind (keeps_idle (only_last trivial)) fun reply => ?_
    refine Triple.bind (keeps_readDevice reply) fun actual => ?_
    refine Triple.bind (keeps_pollPortStates info actual) fun effective => ?_
    refine Triple.bind (keeps_idle (only_last trivial)) fun state => ?_
    refine Triple.bind (keeps_idle (only_last trivial)) fun _ => ?_
    refine Triple.bind (keeps_refreshConnections _ _ _ _) fun _ => ?_
    refine Triple.bind (Keeps.quiet (within_refreshDeviceState _ _ _) device_aside rfl
      framed_settled fun _ h => h) fun _ => ?_
    exact Triple.pure framed_settled.stable fun _ h => h

theorem keeps_initializeService : Keeps Settled initializeService fun _ => Settled := by
  refine Triple.bind (keeps_idle (only_last trivial)) fun reply => ?_
  refine Triple.bind (keeps_readDevice reply) fun info => ?_
  refine Triple.bind (keeps_idle (only_last trivial)) fun reply => ?_
  refine Triple.bind (keeps_readDevice reply) fun actual => ?_
  refine Triple.bind (keeps_pollPortStates info actual) fun _ => ?_
  refine Triple.bind (keeps_idle (only_last trivial)) fun state => ?_
  refine Triple.bind (Keeps.quiet (within_initializeDeviceState _ _ _) start_aside rfl
    framed_settled fun _ h => h) fun _ => ?_
  refine Triple.bind (keeps_idle (only_last trivial)) fun _ => ?_
  exact Triple.pure framed_settled.stable fun _ h => h

/-! ## Every run -/

theorem settled_init (inventory : Gnmi.Inventory) (hwsim : SimulatedOcsDevice CommandId) :
    Settled { world := { inventory := inventory, hwsim := hwsim } } := by
  constructor <;> intros <;> first | rfl | simp_all [seenDown, lastSeen, Watched.hash]

theorem portSystem_restful :
    Restful (portSystem fun o ch s => steady o ch s = true) (fun _ => True) (fun _ => Settled)
      (fun _ => portContract) where
  inv _ _ _ := trivial
  allow _ _ _ _ h := h
  stable _ := framed_settled.stable
  init := by
    rintro s ⟨inventory, hwsim, rfl⟩
    exact ⟨trivial, fun _ => settled_init inventory hwsim⟩
  starts := by
    intro i s p _ hs hp
    have hkeeps : Keeps Settled p fun _ => Settled := by
      rcases hp with ⟨-, rfl⟩ | ⟨-, rfl | rfl⟩
      · exact keeps_initializeService
      · exact keeps_processOne
      · exact keeps_pollDevice
    refine (hkeeps s hs).weaken fun r t _ hr a ha => ?_
    rw [ha] at hr
    exact hr
  call i o ch s _ _ _ := ⟨trivial, fun j hj => absurd rfl hj⟩
  crash _ _ _ hcut := hcut.elim
  env s t _ h := ⟨trivial, fun _ => h⟩

theorem portsPolled_eq {p : Service Bool} (h : portsPolled p = true) :
    ∃ k, p = .call (.syncd (.getHash .deviceState)) k := by
  unfold portsPolled at h
  split at h
  · exact ⟨_, rfl⟩
  · cases h

/-- Where no port flaps inside an open recovery, the alarms and the count of port failures are
accurate right after every poll of the ports, and whenever syncd rests. -/
theorem port_alarms_accurate {c : Config Op Op.Reply Raised Bool Watched Unit}
    (h : Reachable (portSystem fun o ch s => steady o ch s = true) c)
    (hpoint : ∀ running, c.procs () = some running → portsPolled running.prog = true) :
    Accurate c.world := by
  cases hproc : c.procs () with
  | none => exact Settled.accurate (portSystem_restful.rest h hproc)
  | some running =>
      obtain ⟨since, p⟩ := running
      obtain ⟨k, rfl⟩ := portsPolled_eq (hpoint _ hproc)
      exact Settled.accurate (portSystem_restful.guard h hproc)

/-! ## A port that flaps -/

def resting (s : Watched) : Config Op Op.Reply Raised Bool Watched Unit := ⟨s, fun _ => none⟩

def timed (time : Nat) : Op → Nat
  | .syncd .now => time
  | _ => 0

/-- Some calls of a program, all at one time, over a link that does not fail. -/
def afterTimed (time calls : Nat) (p : Service Bool) (s : Watched) : Service Bool × Watched :=
  p.run Watched.exec (p.schedule Watched.exec (timed time) calls s) s

def setInputPort (status : PortOperStatus) (s : Watched) : Watched :=
  { s with world := { s.world with hwsim := { s.world.hwsim with
      inputPorts := { id := 1, direction := .input, operStatus := status } ::
        s.world.hwsim.inputPorts.tail } } }

section Resting

variable {allow : Op → Nat → Watched → Prop} {s : Watched}

theorem resting_env {t : Watched} (h : Reachable (portSystem allow) (resting s))
    (ht : Elsewhere s t) : Reachable (portSystem allow) (resting t) :=
  h.step (.env t ht)

theorem resting_setInputPort (status : PortOperStatus)
    (h : Reachable (portSystem allow) (resting s)) :
    Reachable (portSystem allow) (resting (setInputPort status s)) :=
  resting_env h ⟨rfl, rfl, rfl, rfl⟩

theorem resting_afterTimed (h : Reachable (portSystem allow) (resting s)) {p : Service Bool}
    (hp : (portSystem allow).starts () s p) (time calls : Nat)
    (hallow : p.along Watched.exec allow (p.schedule Watched.exec (timed time) calls s) s)
    (hend : (afterTimed time calls p s).1.outcome? = some (.ok true)) :
    Reachable (portSystem allow) (resting (afterTimed time calls p s).2) :=
  h.complete rfl hp _ hallow hend

theorem resting_poll (h : Reachable (portSystem allow) (resting s))
    (hname : s.world.syncd.deviceName ≠ "") (time calls : Nat)
    (hallow : pollDevice.along Watched.exec allow
      (pollDevice.schedule Watched.exec (timed time) calls s) s)
    (hend : (afterTimed time calls pollDevice s).1.outcome? = some (.ok true)) :
    Reachable (portSystem allow) (resting (afterTimed time calls pollDevice s).2) :=
  resting_afterTimed h (.inr ⟨hname, .inr rfl⟩) time calls hallow hend

/-- A poll that is still going on. -/
theorem polling (h : Reachable (portSystem allow) (resting s))
    (hname : s.world.syncd.deviceName ≠ "") (time calls : Nat)
    (hallow : pollDevice.along Watched.exec allow
      (pollDevice.schedule Watched.exec (timed time) calls s) s) :
    Reachable (portSystem allow) ⟨(afterTimed time calls pollDevice s).2,
      fun _ => some ⟨s, (afterTimed time calls pollDevice s).1⟩⟩ := by
  have hrun := h.startRun (i := ()) rfl (.inr ⟨hname, .inr rfl⟩) _ hallow
  have hprocs : ∀ r, Function.update (resting s).procs () (some r) = fun _ => some r := by
    intro r
    funext u
    simp
  rw [hprocs] at hrun
  exact hrun

end Resting

/-- One connection is configured and nothing of it is applied. -/
def flapConfigured : Watched :=
  { world := Orch.afterSet 0 [Gnmi.connect Gnmi.idA 1 1] Orch.smallWorld }

/-- Syncd starts at time 1. -/
def flapStarted : Watched := (afterTimed 1 60 initializeService flapConfigured).2

/-- A poll at time 2 finds the first input port down. -/
def flapDown : Watched := (afterTimed 2 60 pollDevice (setInputPort .down flapStarted)).2

/-- A poll at time 3 finds it up again. -/
def flapUp : Watched := (afterTimed 3 60 pollDevice (setInputPort .up flapDown)).2

/-- A poll at time 4 finds it down once more and has just polled the ports. -/
def flapAgain : Service Bool × Watched := afterTimed 4 31 pollDevice (setInputPort .down flapUp)

theorem flapStarted_reachable {allow : Op → Nat → Watched → Prop}
    (hallow : initializeService.along Watched.exec allow
      (initializeService.schedule Watched.exec (timed 1) 60 flapConfigured) flapConfigured) :
    Reachable (portSystem allow) (resting flapStarted) := by
  have hinit : Reachable (portSystem allow) (resting { world := Orch.smallWorld }) :=
    .init ⟨_, _, rfl⟩
  have hset : Reachable (portSystem allow) (resting flapConfigured) := by
    refine resting_env hinit ⟨?_, ?_, rfl, rfl⟩
    · unfold flapConfigured Orch.afterSet
      split <;> rfl
    · unfold flapConfigured Orch.afterSet
      split <;> rfl
  exact resting_afterTimed hset (.inl ⟨by decide +kernel, rfl⟩) 1 60 hallow (by decide +kernel)

/-- The alarm of the second failure is missing: the fault of the first one was not recovered. -/
theorem port_alarm_lost_on_flap :
    Reachable (portSystem fun _ _ _ => True)
        ⟨flapAgain.2, fun _ => some ⟨setInputPort .down flapUp, flapAgain.1⟩⟩ ∧
      portsPolled flapAgain.1 = true ∧ ¬Accurate flapAgain.2 := by
  have hall : ∀ (p : Service Bool) cs s, p.along Watched.exec (fun _ _ _ => True) cs s :=
    Prog.along_of_forall fun _ _ _ => trivial
  have hstarted := flapStarted_reachable (hall _ _ _)
  have hdown := resting_poll (resting_setInputPort .down hstarted) (by decide +kernel) 2 60
    (hall _ _ _) (by decide +kernel)
  have hup := resting_poll (resting_setInputPort .up hdown) (by decide +kernel) 3 60
    (hall _ _ _) (by decide +kernel)
  have hagain := polling (resting_setInputPort .down hup) (by decide +kernel) 4 31 (hall _ _ _)
  refine ⟨hagain, by decide +kernel, fun hacc => ?_⟩
  have hactive := (hacc.1 .input 1).mpr (by decide +kernel)
  revert hactive
  unfold alarmActive
  decide +kernel

/-- A run that the condition admits: the first failure has its alarm. -/
theorem port_alarms_accurate_flapDown :
    Reachable (portSystem fun o ch s => steady o ch s = true) (resting flapDown) ∧
      alarmActive flapDown.world .input 1 ∧ Accurate flapDown := by
  have hsteady : initializeService.along Watched.exec (fun o ch s => steady o ch s = true)
      (initializeService.schedule Watched.exec (timed 1) 60 flapConfigured) flapConfigured := by
    decide +kernel
  have hsteady' : pollDevice.along Watched.exec (fun o ch s => steady o ch s = true)
      (pollDevice.schedule Watched.exec (timed 2) 60 (setInputPort .down flapStarted))
      (setInputPort .down flapStarted) := by
    decide +kernel
  have hstarted := flapStarted_reachable hsteady
  have hdown : Reachable (portSystem fun o ch s => steady o ch s = true) (resting flapDown) :=
    resting_poll (resting_setInputPort .down hstarted) (by decide +kernel) 2 60 hsteady'
      (by decide +kernel)
  have hacc : Accurate (resting flapDown).world :=
    port_alarms_accurate hdown fun _ h => by cases h
  refine ⟨hdown, ?_, hacc⟩
  unfold alarmActive
  decide +kernel

end MiniOcs.Syncd
