import MiniOcs.Orch.Actions

/-!
# Every call of the orchestrator is an action

The contract of a single orchestrator: nobody else writes its state, and the streams it reads
only grow. Each handler is followed phase by phase; a read continues where the handler stands,
a write continues in the state it leaves.
-/
namespace MiniOcs.Orch
open Std Concurrent

/-- What the other processes may do to the world of a running handler. -/
structure Frame (s t : World) : Prop where
  orch : t.orch = s.orch
  config : s.config.events <+: t.config.events
  results : s.syncd.results <+: t.syncd.results
  attempts : ∀ c (batch : DeviceCommandBatch), s.syncd.hash (.applyAttempt c) = some batch →
    t.syncd.hash (.applyAttempt c) = some batch

theorem Frame.refl (s : World) : Frame s s :=
  ⟨rfl, List.prefix_rfl, List.prefix_rfl, fun _ _ h => h⟩

theorem Frame.trans {a b c : World} (h₁ : Frame a b) (h₂ : Frame b c) : Frame a c :=
  ⟨h₂.orch.trans h₁.orch, h₁.config.trans h₂.config, h₁.results.trans h₂.results,
    fun k batch h => h₂.attempts k batch (h₁.attempts k batch h)⟩

def batchIds (batch : DeviceCommandBatch) : List String := batch.commands.map (·.id)

/-- The markers of an entry are set in the order of its phases, batches have distinct ids, and
a command that timed out was attempted. -/
structure Orderly (w : World) : Prop where
  prepared : ∀ e, (w.orch.hash (.applicationPublication e)).isSome →
    (w.orch.hash (.configBatch (.config e))).isSome
  application : ∀ e, (w.orch.hash (.deviceStatePublication e)).isSome →
    (w.orch.hash (.applicationPublication e)).isSome
  deviceState : ∀ e, (w.orch.hash (.deviceCommandPublication e)).isSome →
    (w.orch.hash (.deviceStatePublication e)).isSome
  result : ∀ r, (w.orch.hash (.resultApplicationPublication r)).isSome →
    (w.orch.hash (.resultDevicePublication r)).isSome
  timeout : ∀ c (metadata : TimeoutMetadata),
    w.orch.hash (.timeoutApplicationPublication c) = some metadata →
      w.orch.hash (.timeoutDevicePublication c) = some metadata
  retry : ∀ y, (w.orch.hash (.retryDevicePublication y)).isSome →
    (w.orch.hash (.retryApplicationPublication y)).isSome
  retryDevice : ∀ y, (w.orch.hash (.retryCommandPublication y)).isSome →
    (w.orch.hash (.retryDevicePublication y)).isSome
  attempts : ∀ c (batch : DeviceCommandBatch), w.syncd.hash (.applyAttempt c) = some batch →
    (batchIds batch).Nodup
  retries : ∀ y ∈ w.orch.retries, (batchIds y.batch).Nodup
  recorded : ∀ r ∈ w.syncd.results, isTimeout r = true →
    (w.syncd.hash (.applyAttempt r.commandId)).isSome

/-- The contract of one orchestrator. -/
def contract (policy : ApplyRetryPolicy) : Contract Op World where
  inv := Orderly
  rely := Frame
  guard o w := match o with
    | .orch o => ∀ ch, Action policy w o (o.exec ch w).2
    | .syncd _ => False
  allow _ _ _ := True
  refl := Frame.refl
  trans := Frame.trans

abbrev SafeAt (policy : ApplyRetryPolicy) {α : Type} (p : Service α) (s : World) : Prop :=
  Safe exec (contract policy) (fun _ _ => True) p s

/-! ## What interference keeps -/

/-- The same world up to interference and the handler's own alarm bookkeeping. -/
structure Near (s t : World) : Prop where
  appl : t.orch.appl = s.orch.appl
  retries : t.orch.retries = s.orch.retries
  group : ∀ g, t.orch.group g = s.orch.group g
  hash : ∀ k, isAlarmKey k = false → t.orch.hash k = s.orch.hash k
  config : s.config.events <+: t.config.events
  results : s.syncd.results <+: t.syncd.results
  attempts : ∀ c (batch : DeviceCommandBatch), s.syncd.hash (.applyAttempt c) = some batch →
    t.syncd.hash (.applyAttempt c) = some batch

theorem Near.trans {a b c : World} (h₁ : Near a b) (h₂ : Near b c) : Near a c where
  appl := h₂.appl.trans h₁.appl
  retries := h₂.retries.trans h₁.retries
  group g := (h₂.group g).trans (h₁.group g)
  hash k hk := (h₂.hash k hk).trans (h₁.hash k hk)
  config := h₁.config.trans h₂.config
  results := h₁.results.trans h₂.results
  attempts k batch h := h₂.attempts k batch (h₁.attempts k batch h)

theorem Frame.near {s t : World} (h : Frame s t) : Near s t where
  appl := by rw [h.orch]
  retries := by rw [h.orch]
  group g := by rw [h.orch]
  hash k _ := by rw [h.orch]
  config := h.config
  results := h.results
  attempts := h.attempts

theorem AlarmsOnly.near {s t : World} (h : AlarmsOnly s t) : Near s t where
  appl := h.appl
  retries := h.retries
  group := h.group
  hash := h.hash
  config := by rw [h.config]
  results := by rw [h.syncd]
  attempts c batch hb := by rw [h.syncd]; exact hb

section Frames

variable {s t : World}

theorem Pending.near {g : OrchGroup} {n : Nat} {event : g.Entry} (h : Pending s g n event)
    (hst : Near s t) : Pending t g n event := by
  refine ⟨by rw [hst.group]; exact h.mem, ?_⟩
  cases g with
  | config => exact Gnmi.getElem?_of_prefix hst.config h.get
  | results => exact Gnmi.getElem?_of_prefix hst.results h.get
  | retries =>
      have hget := h.get
      simp only [World.stream, hst.retries] at hget ⊢
      exact hget

theorem ConfigRun.near {n : Nat} {event : Gnmi.ConfigEvent} {batch : DeviceCommandBatch}
    (h : ConfigRun s n event batch) (hst : Near s t) : ConfigRun t n event batch :=
  ⟨h.pending.near hst, by rw [hst.hash _ rfl]; exact h.unpublished,
    by rw [hst.hash _ rfl]; exact h.prepared⟩

theorem ResultRun.near {n : Nat} {result : ResultEvent} {application : Application}
    {next : ConnectionApplyStatus} (h : ResultRun s n result application next)
    (hst : Near s t) : ResultRun t n result application next :=
  ⟨h.pending.near hst, h.plain, by rw [hst.appl]; exact h.found, h.decided⟩

theorem TimeoutRun.near {n : Nat} {result : ResultEvent} {batch : DeviceCommandBatch}
    (h : TimeoutRun s n result batch) (hst : Near s t) : TimeoutRun t n result batch := by
  obtain ⟨payload, hget, hdec⟩ := h.attempt
  exact ⟨h.pending.near hst, h.timeout, payload, hst.attempts _ _ hget, hdec⟩

theorem AllCurrent.near {result : ResultEvent} {batch : DeviceCommandBatch}
    (h : AllCurrent s result batch) (hst : Near s t) : AllCurrent t result batch := by
  intro c hc
  rw [hst.appl]
  exact h c hc

theorem RetryRun.near {n : Nat} {retry : RetryEvent} {batch : DeviceCommandBatch}
    (h : RetryRun s n retry batch) (hst : Near s t) : RetryRun t n retry batch :=
  ⟨h.pending.near hst, h.decoded, by rw [hst.hash _ rfl]; exact h.unpublished⟩

theorem RetryCurrent.near {retry : RetryEvent} {started : Bool} {batch : DeviceCommandBatch}
    (h : RetryCurrent s retry started batch) (hst : Near s t) :
    RetryCurrent t retry started batch := by
  intro c hc
  rw [hst.appl]
  exact h c hc

end Frames

/-! ## Rules for the operations -/

section Rules

variable {policy : ApplyRetryPolicy} {α : Type} {s : World}

theorem SafeAt.send {o : OrchOp} {k : o.Reply → Service α}
    (hact : ∀ t, Orderly t → Frame s t → ∀ ch, Action policy t o (o.exec ch t).2)
    (hk : ∀ t, Orderly t → Frame s t → ∀ ch, SafeAt policy (k (o.exec ch t).1) (o.exec ch t).2) :
    SafeAt policy (Orch.send o >>= k) s :=
  fun t ht hst => ⟨hact t ht hst, fun ch _ => hk t ht hst ch⟩

/-- A read of the orchestrator's own state. -/
theorem SafeAt.own {o : OrchOp} {k : o.Reply → Service α} (hraise : ∀ e, o ≠ .raise e)
    (r : OrchState → o.Reply) (hexec : ∀ t ch, o.exec ch t = (r t.orch, t))
    (h : SafeAt policy (k (r s.orch)) s) : SafeAt policy (Orch.send o >>= k) s := by
  refine Safe.read (o := Op.orch o) (r s.orch) (fun t _ _ ch => ?_) (fun t ch _ hst _ => ?_) h
  · rw [hexec]
    exact .idle hraise
  · change o.exec ch t = _
    rw [hexec, hst.orch]

theorem SafeAt.getAppl {id : String} {k : Option Application → Service α}
    (h : SafeAt policy (k s.orch.appl[id]?) s) : SafeAt policy (Orch.send (.getAppl id) >>= k) s :=
  SafeAt.own (o := .getAppl id) (by simp) (fun o => o.appl[id]?) (fun _ _ => rfl) h

theorem SafeAt.getHash {key : OrchKey} {k : Option (OrchHash key) → Service α}
    (h : SafeAt policy (k (s.orch.hash key)) s) : SafeAt policy (Orch.send (.getHash key) >>= k) s :=
  SafeAt.own (o := .getHash key) (by simp) (fun o => o.hash key) (fun _ _ => rfl) h

theorem SafeAt.now {k : Nat → Service α} (h : ∀ n, SafeAt policy (k n) s) :
    SafeAt policy (Orch.send .now >>= k) s :=
  SafeAt.send (fun _ _ _ _ => .idle (by simp)) fun _ _ hst ch => (h ch).mono hst

theorem SafeAt.getAttempt {c : CommandId} {k : Option DeviceCommandBatch → Service α}
    (h : ∀ t, Orderly t → Frame s t → SafeAt policy (k (t.syncd.hash (.applyAttempt c))) t) :
    SafeAt policy (Orch.send (.getAttempt c) >>= k) s :=
  SafeAt.send (fun _ _ _ _ => .idle (by simp)) fun t ht hst _ => h t ht hst

theorem SafeAt.done (a : α) : SafeAt policy (.pure a) s := fun _ _ _ => trivial

theorem SafeAt.raise {e : Raised} (h : ∀ t, Frame s t → Throws t e) :
    SafeAt policy (Orch.raise e : Service α) s :=
  fun t _ hst => ⟨fun _ => .raise (h t hst), fun _ _ _ _ _ => trivial⟩

theorem SafeAt.raise_bind {β : Type} {e : Raised} {k : β → Service α}
    (h : ∀ t, Frame s t → Throws t e) : SafeAt policy ((Orch.raise e : Service β) >>= k) s :=
  fun t _ hst => ⟨fun _ => .raise (h t hst), fun _ _ _ _ _ => trivial⟩

theorem SafeAt.acknowledge {g : OrchGroup} {n : Nat}
    (h : ∀ t, Frame s t → Action policy t (.xack g n) (t.acknowledge g n)) :
    SafeAt policy (Orch.acknowledge g n) s :=
  SafeAt.send (fun t _ hst _ => h t hst) fun _ _ _ _ => SafeAt.done true

theorem exec_putVersionedHashes_absent {t : World} {copy : Copy} {marker : OrchKey}
    {fields : OrchHash marker} {version : Nat} {hashes : List (String × Option Application)}
    (hm : t.orch.hash marker = none) (hv : versionsMatch version hashes = true) (ch : Nat) :
    (OrchOp.putVersionedHashes copy marker fields version hashes).exec ch t =
      (some true, t.stage copy marker fields version hashes) := by
  simp only [OrchOp.exec, hm, hv]
  rfl

/-- A versioned publication: skipped behind its marker, refused on a version mismatch, or staged. -/
theorem SafeAt.publish {copy : Copy} {marker : OrchKey} {fields : OrchHash marker} {version : Nat}
    {hashes : List (String × Option Application)} {k : Unit → Service α}
    (hskip : (s.orch.hash marker).isSome → SafeAt policy (k ()) s)
    (hact : ∀ t, Orderly t → Frame s t → s.orch.hash marker = none →
      versionsMatch version hashes = true →
      Action policy t (.putVersionedHashes copy marker fields version hashes)
        (t.stage copy marker fields version hashes))
    (hk : ∀ t, Orderly t → Frame s t → s.orch.hash marker = none →
      versionsMatch version hashes = true →
      SafeAt policy (k ()) (t.stage copy marker fields version hashes)) :
    SafeAt policy (Orch.publish copy marker fields version hashes >>= k) s := by
  unfold Orch.publish
  rw [Prog.bind_assoc']
  by_cases hm : (s.orch.hash marker).isSome
  · have hexec : ∀ t ch, Frame s t →
        (OrchOp.putVersionedHashes copy marker fields version hashes).exec ch t = (some false, t) := by
      intro t ch hst
      simp only [OrchOp.exec, hst.orch, hm, if_true]
    refine SafeAt.send (fun t _ hst ch => ?_) fun t _ hst ch => ?_
    · rw [hexec t ch hst]
      exact .idle (by simp)
    · rw [hexec t ch hst]
      exact (hskip hm).mono hst
  · have hnone : s.orch.hash marker = none := by simpa using hm
    cases hv : versionsMatch version hashes with
    | true =>
        refine SafeAt.send (fun t ht hst ch => ?_) fun t ht hst ch => ?_
        · rw [exec_putVersionedHashes_absent (by rw [hst.orch]; exact hnone) hv]
          exact hact t ht hst hnone hv
        · rw [exec_putVersionedHashes_absent (by rw [hst.orch]; exact hnone) hv]
          exact hk t ht hst hnone hv
    | false =>
        have hexec : ∀ t ch, Frame s t →
            (OrchOp.putVersionedHashes copy marker fields version hashes).exec ch t = (none, t) := by
          intro t ch hst
          simp only [OrchOp.exec, hst.orch, hnone, hv]
          rfl
        refine SafeAt.send (fun t _ hst ch => ?_) fun t _ hst ch => ?_
        · rw [hexec t ch hst]
          exact .idle (by simp)
        · rw [hexec t ch hst]
          exact SafeAt.raise_bind fun _ _ => .invalidArgument

theorem SafeAt.nextMessage {g : OrchGroup} {k : Option (Nat × g.Entry) → Service α}
    (hnone : ∀ s, SafeAt policy (k none) s)
    (hsome : ∀ s n event, Pending s g n event → SafeAt policy (k (some (n, event))) s) :
    SafeAt policy (Orch.nextMessage g >>= k) s := by
  have hread : ∀ s, SafeAt policy (Orch.send (.readGroup g) >>= k) s := by
    intro s
    refine SafeAt.send (fun t _ _ ch => ?_) fun t _ _ ch => ?_
    · change Action policy t _ (t.deliver g)
      cases hr : (t.orch.group g).read (t.stream g).length with
      | mk r g' =>
          cases r with
          | some n =>
              obtain ⟨hp, hn, hlt, rfl⟩ := Group.read_eq_some hr
              rw [World.deliver, hr]
              exact .deliver hp hn.symm hlt
          | none =>
              have hg : g' = t.orch.group g := by
                unfold Group.read at hr
                split_ifs at hr
                · cases hr
                · cases hr; rfl
              rw [World.deliver, hr, hg]
              cases g <;> exact .idle (by simp)
    · simp only [OrchOp.exec]
      cases hr : (t.orch.group g).read (t.stream g).length with
      | mk r g' =>
          cases r with
          | none => exact hnone _
          | some n =>
              obtain ⟨hp, hn, hlt, rfl⟩ := Group.read_eq_some hr
              have hget : (t.stream g)[n]? = some (t.stream g)[n] := List.getElem?_eq_getElem hlt
              simp only [Option.bind_some, hget, Option.map_some]
              refine hsome _ _ _ ⟨?_, ?_⟩
              · rw [World.deliver, hr]
                cases g <;> simp [World.setOrch, OrchState.setGroup, OrchState.group]
              · rw [World.deliver, hr]
                cases g <;> exact hget
  unfold Orch.nextMessage
  rw [Prog.bind_assoc']
  refine SafeAt.send (fun t _ _ ch => .idle (by simp)) fun t _ _ ch => ?_
  simp only [OrchOp.exec]
  cases hc : (t.orch.group g).candidate pendingScan ch with
  | none => exact hread _
  | some n =>
      dsimp only
      rw [Prog.bind_assoc']
      refine SafeAt.send (fun t _ _ ch => .idle (by simp)) fun t _ _ ch => ?_
      simp only [OrchOp.exec]
      split_ifs with hclaim
      · cases hget : (t.stream g)[n]? with
        | none => exact hread _
        | some event => exact hsome _ _ _ ⟨hclaim.2, hget⟩
      · exact hread _

end Rules

/-! ## Alarms -/

theorem alarmsOnly_mark {w u : World} {k : OrchKey} {v : OrchHash k} (hkey : isAlarmKey k = true)
    (hinventory : u.inventory = w.inventory) (hconfig : u.config = w.config)
    (hsyncd : u.syncd = w.syncd) (hcommands : u.commands = w.commands) (hhwsim : u.hwsim = w.hwsim)
    (happl : u.orch.appl = w.orch.appl) (hdevice : u.orch.device = w.orch.device)
    (hretries : u.orch.retries = w.orch.retries) (hgroup : ∀ g, u.orch.group g = w.orch.group g)
    (hhash : ∀ k, isAlarmKey k = false → u.orch.hash k = w.orch.hash k) :
    AlarmsOnly w (u.mark k v) := by
  refine ⟨hinventory, hconfig, hsyncd, hcommands, hhwsim, happl, hdevice, hretries, fun g => ?_,
    fun k' hk' => ?_⟩
  · rw [World.mark_group]
    exact hgroup g
  · have hne : k' ≠ k := by
      rintro rfl
      rw [hkey] at hk'
      cases hk'
    rw [World.mark_hash_of_ne _ _ _ hne]
    exact hhash k' hk'

theorem alarmsOnly_putAlarm {w : World} {k : OrchKey} {v : OrchHash k} {connection : String}
    {alarm : Option Alarm} {event : AlarmEvent} (hkey : isAlarmKey k = true) :
    AlarmsOnly w (putAlarm w k v connection alarm event) := by
  refine alarmsOnly_mark hkey rfl rfl rfl rfl rfl rfl rfl rfl (fun g => by cases g <;> rfl)
    fun k' hk' => Function.update_of_ne ?_ _ _
  rintro rfl
  cases hk'

theorem alarmsOnly_countAlarm {w : World} {k : OrchKey} {v : OrchHash k} {amount : Int}
    (hkey : isAlarmKey k = true) : AlarmsOnly w (countAlarm w k v amount) :=
  alarmsOnly_mark hkey rfl rfl rfl rfl rfl rfl rfl rfl (fun g => by cases g <;> rfl) fun _ _ => rfl

theorem AlarmStep.only {w w' : World} (h : AlarmStep w w') : AlarmsOnly w w' := by
  cases h with
  | raise _ _ _ _ _ _ _ => exact alarmsOnly_putAlarm rfl
  | countRaised _ _ _ _ _ => exact alarmsOnly_countAlarm rfl
  | clear _ _ _ _ _ _ _ => exact alarmsOnly_putAlarm rfl
  | countCleared _ _ _ _ => exact alarmsOnly_countAlarm rfl

section PutAlarm

variable {w : World} {k k' : OrchKey} {v : OrchHash k} {connection : String}
  {alarm : Option Alarm} {event : AlarmEvent} {amount : Int}

theorem putAlarm_hash_self : (putAlarm w k v connection alarm event).orch.hash k = some v :=
  World.mark_hash_self _ _ _

theorem putAlarm_hash_alarm (hk : .activeAlarm connection ≠ k) :
    (putAlarm w k v connection alarm event).orch.hash (.activeAlarm connection) = alarm :=
  (World.mark_hash_of_ne _ _ _ hk).trans (Function.update_self _ _ _)

theorem putAlarm_hash_of_ne (hk : k' ≠ k) (halarm : k' ≠ .activeAlarm connection) :
    (putAlarm w k v connection alarm event).orch.hash k' = w.orch.hash k' :=
  (World.mark_hash_of_ne _ _ _ hk).trans (Function.update_of_ne halarm _ _)

theorem countAlarm_hash_self : (countAlarm w k v amount).orch.hash k = some v :=
  World.mark_hash_self _ _ _

theorem countAlarm_hash_of_ne (hk : k' ≠ k) :
    (countAlarm w k v amount).orch.hash k' = w.orch.hash k' :=
  World.mark_hash_of_ne _ _ _ hk

end PutAlarm

/-- Markers of alarms stay. -/
theorem AlarmStep.marker {w w' : World} (h : AlarmStep w w') {k : OrchKey} {v : OrchHash k}
    (hk : ∀ connection, k ≠ .activeAlarm connection) (hv : w.orch.hash k = some v) :
    w'.orch.hash k = some v := by
  have hne : ∀ k', w.orch.hash k' = none → k ≠ k' := by
    rintro k' hnone rfl
    rw [hv] at hnone
    cases hnone
  cases h with
  | raise _ _ _ _ hnone _ _ => exact (putAlarm_hash_of_ne (hne _ hnone) (hk _)).trans hv
  | countRaised _ _ _ _ hnone => exact (countAlarm_hash_of_ne (hne _ hnone)).trans hv
  | clear _ _ _ _ _ hnone _ => exact (putAlarm_hash_of_ne (hne _ hnone) (hk _)).trans hv
  | countCleared _ _ _ hnone => exact (countAlarm_hash_of_ne (hne _ hnone)).trans hv

theorem AlarmPublished.step {w w' : World} (h : AlarmStep w w') {command : CommandId}
    {connection : String} (hp : AlarmPublished w command connection) :
    AlarmPublished w' command connection := by
  obtain ⟨marker, hmarker, hcount⟩ := hp
  refine ⟨marker, h.marker nofun hmarker, fun hactivated => ?_⟩
  obtain ⟨u, hu⟩ := Option.isSome_iff_exists.mp (hcount hactivated)
  exact Option.isSome_of_eq_some (h.marker nofun hu)

/-- The same world up to interference and alarms, none of which is forgotten. -/
structure Onward (s t : World) : Prop extends Near s t where
  published : ∀ command connection, AlarmPublished s command connection →
    AlarmPublished t command connection

theorem Frame.onward {s t : World} (h : Frame s t) : Onward s t :=
  ⟨h.near, fun command connection hp => by unfold AlarmPublished; rw [h.orch]; exact hp⟩

theorem AlarmStep.onward {s t : World} (h : AlarmStep s t) : Onward s t :=
  ⟨h.only.near, fun _ _ hp => hp.step h⟩

theorem Onward.trans {a b c : World} (h₁ : Onward a b) (h₂ : Onward b c) : Onward a c :=
  ⟨h₁.toNear.trans h₂.toNear, fun command connection hp =>
    h₂.published command connection (h₁.published command connection hp)⟩

section Alarms

variable {policy : ApplyRetryPolicy} {α : Type} {s : World} {n : Nat} {result : ResultEvent}
  {batch : DeviceCommandBatch}

theorem once_some {w : World} {marker : OrchKey} {v : OrchHash marker} {write : World → World}
    (h : (w.orch.hash marker).isSome) : w.once marker v write = (false, w) := by
  simp only [World.once, h, if_true]

theorem once_none {w : World} {marker : OrchKey} {v : OrchHash marker} {write : World → World}
    (h : w.orch.hash marker = none) : w.once marker v write = (true, (write w).mark marker v) := by
  simp [World.once, h]

/-- The counter of an alarm is moved once. -/
theorem safe_incrementOnce {k : Bool → Service α} {marker : OrchKey} {v : OrchHash marker}
    {amount : Int}
    (hskip : (s.orch.hash marker).isSome → ∀ t, Frame s t → SafeAt policy (k false) t)
    (hstep : s.orch.hash marker = none → ∀ t, Frame s t → AlarmStep t (countAlarm t marker v amount))
    (hk : s.orch.hash marker = none → ∀ t, Frame s t →
      SafeAt policy (k true) (countAlarm t marker v amount)) :
    SafeAt policy (Orch.send (.incrementOnce marker v [(.activeAlarms, amount)]) >>= k) s := by
  by_cases hset : (s.orch.hash marker).isSome
  · have hexec : ∀ t ch, Frame s t →
        (OrchOp.incrementOnce marker v [(.activeAlarms, amount)]).exec ch t = (false, t) :=
      fun t ch hst => by
        simp only [OrchOp.exec]
        exact once_some (by rw [hst.orch]; exact hset)
    refine SafeAt.send (fun t _ hst ch => ?_) fun t _ hst ch => ?_
    · rw [hexec t ch hst]
      exact .idle (by simp)
    · rw [hexec t ch hst]
      exact hskip hset t hst
  · have hnone : s.orch.hash marker = none := by simpa using hset
    have hexec : ∀ t ch, Frame s t →
        (OrchOp.incrementOnce marker v [(.activeAlarms, amount)]).exec ch t =
          (true, countAlarm t marker v amount) :=
      fun t ch hst => by
        simp only [OrchOp.exec]
        exact once_none (by rw [hst.orch]; exact hnone)
    refine SafeAt.send (fun t _ hst ch => ?_) fun t _ hst ch => ?_
    · rw [hexec t ch hst]
      exact .alarm (by simp) (hstep hnone t hst)
    · rw [hexec t ch hst]
      exact hk hnone t hst

theorem safe_countRaisedAlarm {k : Unit → Service α} {c : ConnectionCommand}
    {marker : AlarmMarker} (hrun : TimeoutRun s n result batch) (hc : c ∈ batch.commands)
    (hmarker : s.orch.hash (.alarmPublication (.timeout result.commandId c.id)) = some marker)
    (hk : ∀ t, Onward s t → AlarmPublished t result.commandId c.id → SafeAt policy (k ()) t) :
    SafeAt policy (countRaisedAlarm c.id (some marker) >>= k) s := by
  unfold countRaisedAlarm
  dsimp only
  split_ifs with hactivated
  · rw [Prog.bind_assoc']
    refine safe_incrementOnce (fun hset t hst => ?_) (fun hnone t hst => ?_) fun hnone t hst => ?_
    · refine hk t hst.onward ⟨marker, by rw [hst.orch]; exact hmarker, fun _ => ?_⟩
      rw [hst.orch]; exact hset
    · refine .countRaised (hrun.near hst.near) hc ?_ hactivated ?_
      · rw [hst.orch]; exact hmarker
      · rw [hst.orch]; exact hnone
    · have hstep : AlarmStep t
          (countAlarm t (.alarmCounterPublication c.id marker.activationId false) () 1) := by
        refine .countRaised (hrun.near hst.near) hc ?_ hactivated ?_
        · rw [hst.orch]; exact hmarker
        · rw [hst.orch]; exact hnone
      refine hk _ (hst.onward.trans hstep.onward) ⟨marker, ?_, fun _ => ?_⟩
      · exact hstep.marker nofun (by rw [hst.orch]; exact hmarker)
      · rw [countAlarm_hash_self]; rfl
  · exact Safe.of_inv fun t _ hst => hk t hst.onward
      ⟨marker, by rw [hst.orch]; exact hmarker, fun h => absurd h hactivated⟩

theorem safe_publishTimeoutAlarm {k : Unit → Service α} {c : ConnectionCommand}
    (hrun : TimeoutRun s n result batch) (hcur : AllCurrent s result batch)
    (happl : (s.orch.hash (.timeoutApplicationPublication result.commandId)).isSome)
    (hc : c ∈ batch.commands)
    (hk : ∀ t, Onward s t → AlarmPublished t result.commandId c.id → SafeAt policy (k ()) t) :
    SafeAt policy (publishTimeoutAlarm result result.commandId c.id result.errorMessage >>= k)
      s := by
  unfold publishTimeoutAlarm
  dsimp only
  rw [Prog.bind_assoc']
  refine SafeAt.getHash ?_
  rw [Prog.bind_assoc']
  refine SafeAt.getHash ?_
  cases hmarker : s.orch.hash (.alarmPublication (.timeout result.commandId c.id)) with
  | some marker => exact safe_countRaisedAlarm hrun hc hmarker hk
  | none =>
      dsimp only
      rw [Prog.bind_assoc']
      refine SafeAt.now fun now => ?_
      rw [Prog.bind_assoc']
      have hstep : ∀ t, Frame s t → AlarmStep t (putAlarm t
          (.alarmPublication (.timeout result.commandId c.id))
          ⟨result.desiredVersion, (raisedAlarm result (.timeout result.commandId c.id) c.id
            result.errorMessage (s.orch.hash (.activeAlarm c.id)) now).activationId,
            (s.orch.hash (.activeAlarm c.id)).isNone⟩ c.id
          (some (raisedAlarm result (.timeout result.commandId c.id) c.id
            result.errorMessage (s.orch.hash (.activeAlarm c.id)) now))
          ⟨raisedAlarm result (.timeout result.commandId c.id) c.id
            result.errorMessage (s.orch.hash (.activeAlarm c.id)) now, .upsert⟩) := by
        intro t hst
        refine .raise (hrun.near hst.near) (hcur.near hst.near) ?_ hc ?_ ?_ ⟨now, rfl⟩
        · rw [hst.orch]; exact happl
        · rw [hst.orch]; exact hmarker
        · rw [hst.orch]
      refine SafeAt.send (fun t _ hst ch => ?_) fun t _ hst ch => ?_
      · simp only [OrchOp.exec]
        rw [once_none (by rw [hst.orch]; exact hmarker)]
        exact .alarm (by simp) (hstep t hst)
      · simp only [OrchOp.exec]
        rw [once_none (by rw [hst.orch]; exact hmarker), Prog.bind_assoc']
        refine SafeAt.getHash ?_
        rw [World.mark_hash_self]
        have honward := hst.onward.trans (hstep t hst).onward
        exact safe_countRaisedAlarm (hrun.near honward.toNear) hc
          (World.mark_hash_self _ _ _) fun u hu hp => hk u (honward.trans hu) hp

/-- The alarms of all members are published, one after the other. -/
theorem safe_raiseTimeoutAlarms {k : Unit → Service α} {rest : List ConnectionCommand}
    (hrun : TimeoutRun s n result batch) (hcur : AllCurrent s result batch)
    (happl : (s.orch.hash (.timeoutApplicationPublication result.commandId)).isSome)
    (hrest : ∀ c ∈ rest, c ∈ batch.commands)
    (hk : ∀ t, Onward s t → (∀ c ∈ rest, AlarmPublished t result.commandId c.id) →
      SafeAt policy (k ()) t) :
    SafeAt policy (raiseTimeoutAlarms result rest >>= k) s := by
  induction rest generalizing s with
  | nil => exact Safe.of_inv fun t _ hst => hk t hst.onward fun c hc => by cases hc
  | cons c rest ih =>
      unfold raiseTimeoutAlarms
      rw [Prog.bind_assoc']
      refine safe_publishTimeoutAlarm hrun hcur happl (hrest c List.mem_cons_self)
        fun t hst hp => ?_
      refine ih (hrun.near hst.toNear) (hcur.near hst.toNear) ?_
        (fun c' hc' => hrest c' (List.mem_cons_of_mem _ hc')) fun u hu hpu => ?_
      · rw [hst.hash _ rfl]; exact happl
      · refine hk u (hst.trans hu) fun c' hc' => ?_
        rcases List.mem_cons.mp hc' with rfl | hc'
        · exact hu.published _ _ hp
        · exact hpu c' hc'

theorem safe_countClearedAlarm {k : Unit → Service α} {marker : AlarmMarker}
    (hp : Pending s .results n result) (hplain : isTimeout result = false)
    (hmarker : s.orch.hash (.alarmClearPublication result.id) = some marker)
    (hk : ∀ t, Onward s t → AlarmCleared t result → SafeAt policy (k ()) t) :
    SafeAt policy (countClearedAlarm result.resourceId (some marker) >>= k) s := by
  unfold countClearedAlarm
  dsimp only
  rw [Prog.bind_assoc']
  have hstep : s.orch.hash (.alarmCounterPublication result.resourceId marker.activationId true) =
      none → ∀ t, Frame s t → AlarmStep t (countAlarm t
        (.alarmCounterPublication result.resourceId marker.activationId true) () (-1)) := by
    intro hnone t hst
    refine .countCleared (hp.near hst.near) hplain ?_ ?_
    · rw [hst.orch]; exact hmarker
    · rw [hst.orch]; exact hnone
  refine safe_incrementOnce (fun hset t hst => ?_) hstep fun hnone t hst => ?_
  · refine hk t hst.onward (.inr ⟨marker, ?_, ?_⟩)
    · rw [hst.orch]; exact hmarker
    · rw [hst.orch]; exact hset
  · refine hk _ (hst.onward.trans (hstep hnone t hst).onward) (.inr ⟨marker, ?_, ?_⟩)
    · exact (hstep hnone t hst).marker nofun (by rw [hst.orch]; exact hmarker)
    · rw [countAlarm_hash_self]; rfl

theorem safe_clearTimeoutAlarm {k : Unit → Service α} (hp : Pending s .results n result)
    (hplain : isTimeout result = false) (hsuccess : result.success = true)
    (happl : (s.orch.hash (.resultApplicationPublication result.id)).isSome)
    (hdevice : (s.orch.hash (.resultDevicePublication result.id)).isSome)
    (hk : ∀ t, Onward s t → AlarmCleared t result → SafeAt policy (k ()) t) :
    SafeAt policy (clearTimeoutAlarm result >>= k) s := by
  unfold clearTimeoutAlarm
  rw [Prog.bind_assoc']
  refine SafeAt.getHash ?_
  rw [Prog.bind_assoc']
  refine SafeAt.getHash ?_
  cases hmarker : s.orch.hash (.alarmClearPublication result.id) with
  | some marker => exact safe_countClearedAlarm hp hplain hmarker hk
  | none =>
      cases hactive : s.orch.hash (.activeAlarm result.resourceId) with
      | none =>
          refine Safe.of_inv fun t _ hst => hk t hst.onward (.inl ⟨?_, ?_⟩)
          · rw [hst.orch]; exact hmarker
          · rw [hst.orch]; exact hactive
      | some alarm =>
          dsimp only
          rw [Prog.bind_assoc']
          refine SafeAt.now fun now => ?_
          rw [Prog.bind_assoc']
          have hstep : ∀ t, Frame s t → AlarmStep t (putAlarm t
              (.alarmClearPublication result.id)
              ⟨alarm.desiredVersion, alarm.activationId, false⟩ result.resourceId none
              ⟨{ alarm with active := false, lastChangeNs := now }, .remove⟩) := by
            intro t hst
            refine .clear (hp.near hst.near) hplain hsuccess ?_ ?_ ?_ ?_
            · rw [hst.orch]; exact happl
            · rw [hst.orch]; exact hdevice
            · rw [hst.orch]; exact hmarker
            · rw [hst.orch]; exact hactive
          refine SafeAt.send (fun t _ hst ch => ?_) fun t _ hst ch => ?_
          · simp only [OrchOp.exec]
            rw [once_none (by rw [hst.orch]; exact hmarker)]
            exact .alarm (by simp) (hstep t hst)
          · simp only [OrchOp.exec]
            rw [once_none (by rw [hst.orch]; exact hmarker), Prog.bind_assoc']
            refine SafeAt.getHash ?_
            rw [World.mark_hash_self]
            have honward := hst.onward.trans (hstep t hst).onward
            exact safe_countClearedAlarm (hp.near honward.toNear) hplain
              (World.mark_hash_self _ _ _) fun u hu hcleared => hk u (honward.trans hu) hcleared

end Alarms

/-! ## Configuration events -/

section Config

variable {policy : ApplyRetryPolicy} {s : World} {n : Nat} {event : Gnmi.ConfigEvent}

theorem safe_selectCommands {α : Type} {k : Option (List ConnectionCommand) → Service α}
    {selected commands : List ConnectionCommand}
    (h : SafeAt policy (k (selection s.orch.appl selected commands)) s) :
    SafeAt policy (selectCommands selected commands >>= k) s := by
  induction commands generalizing selected with
  | nil => exact h
  | cons command rest ih =>
      unfold selectCommands
      rw [Prog.bind_assoc']
      refine SafeAt.getAppl ?_
      unfold selection at h
      split_ifs at h ⊢ with hstale hskip
      · exact h
      · exact ih h
      · exact ih h

/-- The loop reads the statuses; the hashes it builds do not depend on them. -/
theorem safe_configApplications {α : Type}
    {k : List (String × Option Application) → Service α}
    {batch : DeviceCommandBatch} (hrun : ConfigRun s n event batch)
    {hashes : List (String × Option Application)} {commands : List ConnectionCommand}
    (hsub : ∀ c ∈ commands, c ∈ batch.commands)
    (h : (∀ c ∈ commands, startApplyTransition (currentStatus s.orch.appl[c.id]?) c.operation =
      .ok (executing c.operation)) → SafeAt policy (k (hashes ++ configHashes event commands)) s) :
    SafeAt policy (configApplications event hashes commands >>= k) s := by
  induction commands generalizing hashes with
  | nil =>
      have hnil := h (by simp)
      simp only [configHashes, List.map_nil, List.append_nil] at hnil
      exact hnil
  | cons command rest ih =>
      unfold configApplications
      rw [Prog.bind_assoc']
      refine SafeAt.getAppl ?_
      cases hstart : startApplyTransition (currentStatus s.orch.appl[command.id]?)
          command.operation with
      | error e =>
          refine SafeAt.raise_bind fun t hst => ?_
          refine .config (hrun.near hst.near) (hsub command (by simp)) ?_
          rw [hst.orch]
          exact hstart
      | ok status =>
          have hstatus := startApplyTransition_ok hstart
          subst hstatus
          refine ih (fun c hc => hsub c (by simp [hc])) fun hrest => ?_
          have hall := h fun c hc => ?_
          · rw [List.append_assoc]
            exact hall
          · rcases List.mem_cons.mp hc with rfl | hc
            · exact hstart
            · exact hrest c hc

theorem versionsMatch_configHashes {commands : List ConnectionCommand} {version : Nat}
    (h : versionsMatch version (configHashes event commands) = true) :
    ∀ c ∈ commands, c.desiredVersion = version := by
  intro c hc
  simp only [versionsMatch, configHashes, List.all_map, List.all_eq_true, Function.comp_def,
    decide_eq_true_eq] at h
  exact h c hc

theorem ConfigRun.stage {batch : DeviceCommandBatch} (h : ConfigRun s n event batch) {copy : Copy}
    {marker : OrchKey} {fields : OrchHash marker} {version : Nat}
    {hashes : List (String × Option Application)}
    (hcommand : .deviceCommandPublication event.eventId ≠ marker)
    (hbatch : .configBatch (configCommandId event) ≠ marker) :
    ConfigRun (s.stage copy marker fields version hashes) n event batch where
  pending := ⟨by simpa using h.pending.mem, by simpa using h.pending.get⟩
  unpublished := by rw [World.stage_hash_of_ne _ _ _ _ _ _ hcommand]; exact h.unpublished
  prepared := by rw [World.stage_hash_of_ne _ _ _ _ _ _ hbatch]; exact h.prepared

theorem safe_ackConfig (hp : Pending s .config n event) (hd : ConfigDone s event) :
    SafeAt policy (acknowledge .config n) s := by
  refine SafeAt.acknowledge fun t hst => .ackConfig (hp.near hst.near) ?_
  unfold ConfigDone
  rw [hst.orch]
  exact hd

theorem safe_commandPhase {batch : DeviceCommandBatch} (hrun : ConfigRun s n event batch)
    (hdevice : (s.orch.hash (.deviceStatePublication event.eventId)).isSome) :
    SafeAt policy (do
      let _ ← send (.appendCommandOnce (.deviceCommandPublication event.eventId) ()
        (configCommandEvent event batch))
      acknowledge .config n) s := by
  have hexec : ∀ t ch, Frame s t →
      (OrchOp.appendCommandOnce (.deviceCommandPublication event.eventId) ()
        (configCommandEvent event batch)).exec ch t =
      (true, { t with commands := t.commands ++ [configCommandEvent event batch] }.mark
        (.deviceCommandPublication event.eventId) ()) := by
    intro t ch hst
    have hnone := (hrun.near hst.near).unpublished
    simp only [OrchOp.exec, World.once, hnone]
    rfl
  refine SafeAt.send (fun t _ hst ch => ?_) fun t _ hst ch => ?_
  · rw [hexec t ch hst]
    exact .publishCommand (hrun.near hst.near) (by rw [hst.orch]; exact hdevice)
  · rw [hexec t ch hst]
    have hp := (hrun.near hst.near).pending
    have hset : ∀ w : World, (w.mark (.deviceCommandPublication event.eventId) ()).orch.hash
        (.deviceCommandPublication event.eventId) = some () := fun w => w.mark_hash_self _ _
    exact safe_ackConfig ⟨hp.mem, hp.get⟩ (.inl (by rw [hset]; rfl))

theorem safe_devicePhase {batch : DeviceCommandBatch} (hrun : ConfigRun s n event batch)
    (happl : (s.orch.hash (.applicationPublication event.eventId)).isSome) :
    SafeAt policy (do
      publish .device (.deviceStatePublication event.eventId) () event.desiredVersion
        (configHashes event batch.commands)
      let _ ← send (.appendCommandOnce (.deviceCommandPublication event.eventId) ()
        (configCommandEvent event batch))
      acknowledge .config n) s := by
  refine SafeAt.publish (fun hset => safe_commandPhase hrun hset) (fun t _ hst hnone hv => ?_)
    fun t _ hst hnone hv => ?_
  · refine .stageDevice (hrun.near hst.near) ?_ ?_ (versionsMatch_configHashes hv)
    · rw [hst.orch]; exact happl
    · rw [hst.orch]; exact hnone
  · exact safe_commandPhase ((hrun.near hst.near).stage (by simp) (by simp)) (by simp)

theorem safe_publishConfig {batch : DeviceCommandBatch} (hrun : ConfigRun s n event batch) :
    SafeAt policy (publishConfig n event batch) s := by
  unfold publishConfig
  refine safe_configApplications hrun (fun _ h => h) fun hstart => ?_
  simp only [List.nil_append]
  refine SafeAt.publish (fun hset => safe_devicePhase hrun hset) (fun t _ hst hnone hv => ?_)
    fun t _ hst hnone hv => ?_
  · refine .stageApplication (hrun.near hst.near) ?_ (versionsMatch_configHashes hv) ?_
    · rw [hst.orch]; exact hnone
    · rw [hst.orch]; exact hstart
  · exact safe_devicePhase ((hrun.near hst.near).stage (by simp) (by simp)) (by simp)

theorem safe_resumePrepared (hp : Pending s .config n event)
    (hnone : s.orch.hash (.deviceCommandPublication event.eventId) = none) :
    SafeAt policy (resumePrepared n event (s.orch.hash (.configBatch (configCommandId event)))) s := by
  cases hprep : s.orch.hash (.configBatch (configCommandId event)) with
  | none => exact SafeAt.raise fun _ _ => .runtimeError
  | some payload =>
      unfold resumePrepared
      cases hdec : decodeDeviceCommand payload with
      | error message => simpa only [hdec] using SafeAt.raise fun _ _ => .invalidArgument
      | ok batch =>
          simpa only [hdec] using safe_publishConfig ⟨hp, hnone, payload, hprep, hdec⟩

theorem safe_prepareConfig {decoded : DeviceCommandBatch} (hp : Pending s .config n event)
    (hnone : s.orch.hash (.deviceCommandPublication event.eventId) = none)
    (hbatch : s.orch.hash (.configBatch (configCommandId event)) = none)
    (hdec : decodeConfigBatchEvent event = .ok decoded) :
    SafeAt policy (prepareConfig n event decoded) s := by
  unfold prepareConfig
  refine safe_selectCommands ?_
  have hack : selection s.orch.appl [] decoded.commands = none ∨
      selection s.orch.appl [] decoded.commands = some [] → SafeAt policy (acknowledge .config n) s :=
    fun h => safe_ackConfig hp (.inr ⟨hnone, hbatch, decoded, hdec, h⟩)
  cases hsel : selection s.orch.appl [] decoded.commands with
  | none => exact hack (.inl hsel)
  | some selected =>
      cases selected with
      | nil => exact hack (.inr hsel)
      | cons command rest =>
          have hexec : ∀ t ch, Frame s t →
              (OrchOp.putHashIfAbsent (.configBatch (configCommandId event))
                { decoded with commands := command :: rest }).exec ch t =
              (true, t.mark (.configBatch (configCommandId event))
                { decoded with commands := command :: rest }) := by
            intro t ch hst
            simp only [OrchOp.exec, World.once, hst.orch, hbatch]
            rfl
          refine SafeAt.send (fun t _ hst ch => ?_) fun t _ hst ch => ?_
          · rw [hexec t ch hst]
            refine .prepare (hp.near hst.near) ?_ ?_ hdec ?_ (by simp)
            · rw [hst.orch]; exact hnone
            · rw [hst.orch]; exact hbatch
            · rw [hst.orch]; exact hsel
          · rw [hexec t ch hst]
            have hpt := hp.near hst.near
            refine SafeAt.getHash (safe_resumePrepared ⟨?_, ?_⟩ ?_)
            · simpa using hpt.mem
            · simpa using hpt.get
            · rw [World.mark_hash_of_ne _ _ _ (by simp), hst.orch]; exact hnone

theorem safe_handleConfig (hp : Pending s .config n event) :
    SafeAt policy (handleConfig n event) s := by
  unfold handleConfig
  refine SafeAt.getHash ?_
  cases hpub : s.orch.hash (.deviceCommandPublication event.eventId) with
  | some _ => exact safe_ackConfig hp (.inl (by rw [hpub]; rfl))
  | none =>
      refine SafeAt.getHash ?_
      cases hbatch : s.orch.hash (.configBatch (configCommandId event)) with
      | some payload =>
          have hresume : SafeAt policy (resumePrepared n event _) s := safe_resumePrepared hp hpub
          rw [hbatch] at hresume
          exact hresume
      | none =>
          cases hdec : decodeConfigBatchEvent event with
          | error message => exact SafeAt.raise fun _ _ => .invalidArgument
          | ok decoded => exact safe_prepareConfig hp hpub hbatch hdec

theorem safe_processConfigOne : SafeAt policy processConfigOne s :=
  SafeAt.nextMessage (fun _ => SafeAt.done false) fun _ _ _ hp => safe_handleConfig hp

end Config

/-! ## Device results -/

section Results

variable {policy : ApplyRetryPolicy} {s : World} {n : Nat} {result : ResultEvent}

theorem safe_ackResult (hp : Pending s .results n result) (hplain : isTimeout result = false)
    (hd : ResultDone s result) (hcleared : SuccessCleared s result) :
    SafeAt policy (acknowledge .results n) s := by
  refine SafeAt.acknowledge fun t hst => .ackResult (hp.near hst.near) hplain ?_ ?_
  · unfold ResultDone
    rw [hst.orch]
    exact hd
  · unfold SuccessCleared AlarmCleared
    rw [hst.orch]
    exact hcleared

theorem ResultRun.stage {application : Application} {next : ConnectionApplyStatus}
    (h : ResultRun s n result application next) {marker : OrchKey} {fields : OrchHash marker}
    {version : Nat} {hashes : List (String × Option Application)} :
    ResultRun (s.stage .device marker fields version hashes) n result application next :=
  ⟨⟨by simpa using h.pending.mem, by simpa using h.pending.get⟩, h.plain, h.found, h.decided⟩

/-- Both copies carry the result: clear the alarm and acknowledge. -/
theorem safe_clearAndAck (hp : Pending s .results n result) (hplain : isTimeout result = false)
    (happl : (s.orch.hash (.resultApplicationPublication result.id)).isSome)
    (hdevice : (s.orch.hash (.resultDevicePublication result.id)).isSome) :
    SafeAt policy (do
      clearAfterSuccess result
      acknowledge .results n) s := by
  unfold clearAfterSuccess
  split_ifs with hsuccess
  · refine safe_clearTimeoutAlarm hp hplain hsuccess happl hdevice fun t hst hcleared => ?_
    refine safe_ackResult (hp.near hst.toNear) hplain (.inl ⟨?_, ?_⟩) fun _ _ _ => hcleared
    · rw [hst.hash _ rfl]; exact happl
    · rw [hst.hash _ rfl]; exact hdevice
  · exact safe_ackResult hp hplain (.inl ⟨happl, hdevice⟩) fun _ _ h => absurd h hsuccess

theorem safe_applicationPhase {application : Application} {next : ConnectionApplyStatus}
    (hrun : ResultRun s n result application next)
    (hdevice : (s.orch.hash (.resultDevicePublication result.id)).isSome) :
    SafeAt policy (do
      publish .appl (.resultApplicationPublication result.id) () result.desiredVersion
        [(result.resourceId, some (resultApplication result next application))]
      clearAfterSuccess result
      acknowledge .results n) s := by
  refine SafeAt.publish (fun hset => safe_clearAndAck hrun.pending hrun.plain hset hdevice)
    (fun t _ hst hnone _ => ?_) fun t _ hst hnone _ => ?_
  · refine .resultApplication (hrun.near hst.near) ?_ ?_
    · rw [hst.orch]; exact hdevice
    · rw [hst.orch]; exact hnone
  · have hp := hrun.pending.near hst.near
    refine safe_clearAndAck ⟨?_, ?_⟩ hrun.plain ?_ ?_
    · simpa using hp.mem
    · simpa using hp.get
    · simp
    · rw [World.stage_hash_of_ne _ _ _ _ _ _ (by simp), hst.orch]
      exact hdevice

theorem safe_publishResult {application : Application} {next : ConnectionApplyStatus}
    (hrun : ResultRun s n result application next) :
    SafeAt policy (publishResult n result application next) s := by
  unfold publishResult
  refine SafeAt.publish (fun hset => safe_applicationPhase hrun hset)
    (fun t ht hst hnone _ => ?_) fun t _ hst hnone _ => ?_
  · refine .resultDevice (hrun.near hst.near) (by rw [hst.orch]; exact hnone) ?_
    cases happl : t.orch.hash (.resultApplicationPublication result.id) with
    | none => rfl
    | some _ =>
        have hdevice := ht.result result.id (by rw [happl]; rfl)
        rw [hst.orch, hnone] at hdevice
        cases hdevice
  · exact safe_applicationPhase (hrun.near hst.near).stage (by simp)

theorem safe_settleResult (hp : Pending s .results n result) (hplain : isTimeout result = false)
    (hopen : s.orch.hash (.resultApplicationPublication result.id) = none ∨
      s.orch.hash (.resultDevicePublication result.id) = none) :
    SafeAt policy (settleResult n result) s := by
  have hcleared : SuccessCleared s result := by
    intro happl hdevice _
    rcases hopen with hnone | hnone
    · rw [hnone] at happl; cases happl
    · rw [hnone] at hdevice; cases hdevice
  unfold settleResult
  refine SafeAt.getAppl ?_
  cases hfound : s.orch.appl[result.resourceId]? with
  | none => exact safe_ackResult hp hplain (.inr (.inl hfound)) hcleared
  | some application =>
      dsimp only
      cases hdec : resultDecision result application with
      | stale => exact safe_ackResult hp hplain (.inr (.inr ⟨application, hfound, hdec⟩)) hcleared
      | newer =>
          refine SafeAt.raise fun t hst => .newer (hp.near hst.near) ?_ hdec
          rw [hst.orch]
          exact hfound
      | invalid e =>
          refine SafeAt.raise fun t hst => .result (hp.near hst.near) hplain ?_ hdec
          rw [hst.orch]
          exact hfound
      | publish next => exact safe_publishResult ⟨hp, hplain, hfound, hdec⟩

theorem safe_handleResult (hp : Pending s .results n result) (hplain : isTimeout result = false) :
    SafeAt policy (handleResult n result) s := by
  unfold handleResult
  refine SafeAt.getHash ?_
  cases happl : s.orch.hash (.resultApplicationPublication result.id) with
  | none => exact safe_settleResult hp hplain (.inl happl)
  | some _ =>
      refine SafeAt.getHash ?_
      cases hdevice : s.orch.hash (.resultDevicePublication result.id) with
      | none => exact safe_settleResult hp hplain (.inr hdevice)
      | some _ => exact safe_clearAndAck hp hplain (by rw [happl]; rfl) (by rw [hdevice]; rfl)

end Results

/-! ## Timeouts -/

theorem batchIds_decode {payload batch : DeviceCommandBatch}
    (h : decodeDeviceCommand payload = .ok batch) : batchIds batch = batchIds payload := by
  obtain ⟨rfl, -, -⟩ := decodeDeviceCommand_ok h
  simp only [batchIds, List.map_map]
  refine List.map_congr_left fun c _ => ?_
  unfold decodeCommand
  cases hop : c.operation <;> simp [hop]

theorem isCurrent_some {version : Nat} {command : CommandId} {application : Option Application}
    (h : isCurrent version command application = true) :
    ∃ a, application = some a ∧ a.desiredVersion = version ∧ a.commandId = command := by
  cases application with
  | none => cases h
  | some a =>
      simp only [isCurrent, Bool.and_eq_true, decide_eq_true_eq] at h
      exact ⟨a, rfl, h.1, h.2⟩

section Timeouts

variable {policy : ApplyRetryPolicy} {s : World} {n : Nat} {result : ResultEvent}
  {batch : DeviceCommandBatch} {metadata : TimeoutMetadata}

theorem safe_timeoutApplications {α : Type}
    {k : Option (List (String × Option Application)) → Service α}
    {hashes : List (String × Option Application)} {commands : List ConnectionCommand}
    (hsome : (∀ c ∈ commands, isCurrent c.desiredVersion result.commandId s.orch.appl[c.id]? = true) →
      SafeAt policy (k (some (hashes ++ timeoutHashes s.orch.appl result metadata commands))) s)
    (hnone : (∃ c ∈ commands,
      isCurrent c.desiredVersion result.commandId s.orch.appl[c.id]? = false) →
      SafeAt policy (k none) s) :
    SafeAt policy (timeoutApplications result metadata hashes commands >>= k) s := by
  induction commands generalizing hashes with
  | nil =>
      have hnil := hsome (by simp)
      simp only [timeoutHashes, List.map_nil, List.append_nil] at hnil
      exact hnil
  | cons command rest ih =>
      unfold timeoutApplications
      rw [Prog.bind_assoc']
      refine SafeAt.getAppl ?_
      cases hfound : s.orch.appl[command.id]? with
      | none => exact hnone ⟨command, by simp, by rw [hfound]; rfl⟩
      | some application =>
          dsimp only
          split_ifs with hcurrent
          · refine ih (fun hrest => ?_) fun ⟨c, hc, h⟩ => hnone ⟨c, by simp [hc], h⟩
            have hall := hsome fun c hc => ?_
            · rw [List.append_assoc]
              simp only [timeoutHashes, List.map_cons, hfound, Option.map_some] at hall
              exact hall
            · rcases List.mem_cons.mp hc with rfl | hc
              · rw [hfound]; exact hcurrent
              · exact hrest c hc
          · refine hnone ⟨command, by simp, ?_⟩
            rw [hfound]
            simpa using hcurrent

theorem versionsMatch_timeoutHashes {table : Table} {commands : List ConnectionCommand}
    {command : CommandId} {version : Nat}
    (hcurrent : ∀ c ∈ commands, isCurrent c.desiredVersion command table[c.id]? = true)
    (h : versionsMatch version (timeoutHashes table result metadata commands) = true) :
    ∀ c ∈ commands, c.desiredVersion = version := by
  intro c hc
  obtain ⟨a, ha, hv, -⟩ := isCurrent_some (hcurrent c hc)
  simp only [versionsMatch, timeoutHashes, List.all_map, List.all_eq_true, Function.comp_def] at h
  have hcv := h c hc
  rw [ha] at hcv
  simp only [Option.map_some, timeoutApplication, decide_eq_true_eq] at hcv
  rw [← hv, hcv]

theorem fst_timeoutHashes (table : Table) (commands : List ConnectionCommand) :
    (timeoutHashes table result metadata commands).map Prod.fst = commands.map (·.id) := by
  simp [timeoutHashes, Function.comp_def]

theorem TimeoutRun.nodup (h : TimeoutRun s n result batch) (hs : Orderly s) :
    (batchIds batch).Nodup := by
  obtain ⟨payload, hget, hdec⟩ := h.attempt
  rw [batchIds_decode hdec]
  exact hs.attempts _ _ hget

/-- The members as the timeout leaves them. -/
theorem getElem?_timeoutHashes {table : Table} (hnd : (batchIds batch).Nodup)
    (hcurrent : ∀ c ∈ batch.commands,
      isCurrent c.desiredVersion result.commandId table[c.id]? = true)
    (hv : ∀ c ∈ batch.commands, c.desiredVersion = metadata.desiredVersion)
    {c : ConnectionCommand} (hc : c ∈ batch.commands) :
    (putVersioned table metadata.desiredVersion
      (timeoutHashes table result metadata batch.commands))[c.id]? =
        (table[c.id]?).map (timeoutApplication result metadata) := by
  refine getElem?_putVersioned_of_mem ?_ (List.mem_map.mpr ⟨c, hc, rfl⟩) fun existing hex => ?_
  · rw [fst_timeoutHashes]
    exact hnd
  · obtain ⟨a, ha, hav, -⟩ := isCurrent_some (hcurrent c hc)
    rw [ha] at hex
    cases hex
    rw [hav, hv c hc]

theorem AllCurrent.stage (h : AllCurrent s result batch) (hnd : (batchIds batch).Nodup)
    (hv : ∀ c ∈ batch.commands, c.desiredVersion = metadata.desiredVersion) {marker : OrchKey}
    {fields : OrchHash marker} :
    AllCurrent (s.stage .appl marker fields metadata.desiredVersion
      (timeoutHashes s.orch.appl result metadata batch.commands)) result batch := by
  intro c hc
  rw [World.stage_appl_appl, getElem?_timeoutHashes hnd h hv hc]
  have hcur := h c hc
  obtain ⟨a, ha, -, -⟩ := isCurrent_some hcur
  rw [ha] at hcur ⊢
  exact hcur

theorem TimeoutRun.stage (h : TimeoutRun s n result batch) {copy : Copy} {marker : OrchKey}
    {fields : OrchHash marker} {version : Nat} {hashes : List (String × Option Application)} :
    TimeoutRun (s.stage copy marker fields version hashes) n result batch :=
  ⟨⟨by simpa using h.pending.mem, by simpa using h.pending.get⟩, h.timeout, h.attempt⟩

theorem safe_ackTimeout (hp : Pending s .results n result) (htimeout : isTimeout result = true)
    (hd : ∀ t, Frame s t → TimeoutDone t n result) : SafeAt policy (acknowledge .results n) s :=
  SafeAt.acknowledge fun t hst => .ackTimeout (hp.near hst.near) htimeout (hd t hst)

theorem safe_retryPhase (hrun : TimeoutRun s n result batch) (hcur : AllCurrent s result batch)
    (happl : s.orch.hash (.timeoutApplicationPublication result.commandId) = some metadata) :
    SafeAt policy (do
      raiseTimeoutAlarms result batch.commands
      scheduleRetry result batch metadata
      acknowledge .results n) s := by
  refine safe_raiseTimeoutAlarms hrun hcur (Option.isSome_of_eq_some happl) (fun _ hc => hc)
    fun s hs halarms => ?_
  replace hrun := hrun.near hs.toNear
  replace hcur := hcur.near hs.toNear
  replace happl : s.orch.hash (.timeoutApplicationPublication result.commandId) = some metadata := by
    rw [hs.hash _ rfl]; exact happl
  have hack : ∀ s, TimeoutRun s n result batch →
      s.orch.hash (.timeoutApplicationPublication result.commandId) = some metadata →
      (∀ c ∈ batch.commands, AlarmPublished s result.commandId c.id) →
      (metadata.retryScheduled = true → (s.orch.hash (.retryPublication result.commandId)).isSome) →
      SafeAt policy (acknowledge .results n) s := by
    intro s hrun happl halarms hretry
    refine safe_ackTimeout hrun.pending hrun.timeout fun t hst =>
      .complete (hrun.near hst.near) (by rw [hst.orch]; exact happl) (fun c hc => ?_) ?_
    · exact hst.onward.published _ _ (halarms c hc)
    · rw [hst.orch]; exact hretry
  unfold scheduleRetry
  split_ifs with hsched
  · rw [Prog.bind_assoc']
    refine SafeAt.send (fun t _ hst ch => ?_) fun t _ hst ch => ?_
    · simp only [OrchOp.exec, World.once]
      split_ifs with hset
      · exact .idle (by simp)
      · refine .scheduleRetry (hrun.near hst.near) (hcur.near hst.near) ?_ hsched ?_
        · rw [hst.orch]; exact happl
        · simpa using hset
    · have halarms' := fun c hc => hst.onward.published _ _ (halarms c hc)
      simp only [OrchOp.exec, World.once]
      split_ifs with hset
      · refine hack _ (hrun.near hst.near) ?_ halarms' fun _ => hset
        rw [hst.orch]; exact happl
      · have hp := (hrun.near hst.near).pending
        have hrun' := hrun.near hst.near
        refine hack _ ⟨⟨hp.mem, hp.get⟩, hrun'.timeout, hrun'.attempt⟩ ?_ (fun c hc => ?_)
          fun _ => ?_
        · rw [World.mark_hash_of_ne _ _ _ (by simp)]
          change t.orch.hash (.timeoutApplicationPublication result.commandId) = _
          rw [hst.orch]; exact happl
        · obtain ⟨marker, hmarker, hcount⟩ := halarms' c hc
          refine ⟨marker, ?_, fun hactivated => ?_⟩
          · rw [World.mark_hash_of_ne _ _ _ (by simp)]; exact hmarker
          · rw [World.mark_hash_of_ne _ _ _ (by simp)]; exact hcount hactivated
        · simp
  · exact hack s hrun happl halarms fun h => absurd h hsched

theorem safe_timeoutApplicationPhase {table : Table} (htable : s.orch.appl = table)
    (hrun : TimeoutRun s n result batch) (hcur : AllCurrent s result batch)
    (hdevice : s.orch.hash (.timeoutDevicePublication result.commandId) = some metadata) :
    SafeAt policy (do
      publish .appl (.timeoutApplicationPublication result.commandId) metadata
        metadata.desiredVersion (timeoutHashes table result metadata batch.commands)
      raiseTimeoutAlarms result batch.commands
      scheduleRetry result batch metadata
      acknowledge .results n) s := by
  subst htable
  refine SafeAt.publish (fun hset => Safe.of_inv fun t ht hst => ?_)
    (fun t _ hst hnone hv => ?_) fun t ht hst hnone hv => ?_
  · refine safe_retryPhase (hrun.near hst.near) (hcur.near hst.near) ?_
    cases happl : s.orch.hash (.timeoutApplicationPublication result.commandId) with
    | none => rw [happl] at hset; cases hset
    | some metadata' =>
        rw [hst.orch, happl]
        have hsame := ht.timeout result.commandId metadata' (by rw [hst.orch]; exact happl)
        rw [hst.orch, hdevice] at hsame
        exact hsame.symm
  · rw [← hst.near.appl]
    refine .timeoutApplication (hrun.near hst.near) (hcur.near hst.near) ?_ ?_
      (versionsMatch_timeoutHashes hcur hv)
    · rw [hst.orch]; exact hdevice
    · rw [hst.orch]; exact hnone
  · rw [← hst.near.appl]
    refine safe_retryPhase (hrun.near hst.near).stage ((hcur.near hst.near).stage ?_ ?_) ?_
    · exact (hrun.near hst.near).nodup ht
    · exact versionsMatch_timeoutHashes hcur hv
    · simp

/-- Where the metadata of a timeout comes from. -/
def MetadataOf (policy : ApplyRetryPolicy) (w : World) (result : ResultEvent)
    (batch : DeviceCommandBatch) (metadata : TimeoutMetadata) : Prop :=
  w.orch.hash (.timeoutDevicePublication result.commandId) = some metadata ∨
    (w.orch.hash (.timeoutDevicePublication result.commandId) = none ∧
      w.orch.hash (.timeoutApplicationPublication result.commandId) = none ∧
      ∃ front application, FirstTimeout policy w result batch front application metadata)

theorem safe_publishTimeout (hrun : TimeoutRun s n result batch)
    (hmeta : MetadataOf policy s result batch metadata) :
    SafeAt policy (do
      publishTimeout result batch metadata
      acknowledge .results n) s := by
  unfold publishTimeout
  rw [Prog.bind_assoc']
  refine safe_timeoutApplications (fun hcur => ?_) fun ⟨c, hc, hnot⟩ => ?_
  · simp only [List.nil_append, Prog.bind_assoc']
    refine SafeAt.publish (fun hset => ?_) (fun t _ hst hnone hv => ?_) fun t ht hst hnone hv => ?_
    · rcases hmeta with hdevice | ⟨hdevice, -, -⟩
      · exact safe_timeoutApplicationPhase rfl hrun hcur hdevice
      · rw [hdevice] at hset; cases hset
    · rcases hmeta with hdevice | ⟨-, happl, front, application, hfirst⟩
      · rw [hdevice] at hnone; cases hnone
      · obtain ⟨head, found, current, executing, decided⟩ := hfirst
        rw [← hst.near.appl] at found ⊢
        refine .timeoutDevice (hrun.near hst.near) (AllCurrent.near hcur hst.near)
          ⟨head, found, current, executing, decided⟩ ?_ ?_ (versionsMatch_timeoutHashes hcur hv)
        · rw [hst.orch]; exact hnone
        · rw [hst.orch]; exact happl
    · refine safe_timeoutApplicationPhase hst.near.appl (hrun.near hst.near).stage ?_ (by simp)
      intro c hc
      rw [World.stage_device_appl, hst.near.appl]
      exact hcur c hc
  · refine safe_ackTimeout hrun.pending hrun.timeout fun t hst =>
      .superseded (hrun.near hst.near) fun hcur => ?_
    have hc' := hcur c hc
    rw [hst.orch, hnot] at hc'
    cases hc'

theorem require_failed {status : ConnectionApplyStatus}
    (h : ¬(status ≠ .applying ∧ status ≠ .removing)) : require status .failed = .pure () := by
  cases status <;> simp at h <;> rfl

theorem safe_firstTimeout {front : ConnectionCommand} (hrun : TimeoutRun s n result batch)
    (hfront : ∃ rest, batch.commands = front :: rest)
    (hdevice : s.orch.hash (.timeoutDevicePublication result.commandId) = none)
    (happl : s.orch.hash (.timeoutApplicationPublication result.commandId) = none) :
    SafeAt policy (firstTimeout policy result s.orch.appl[front.id]? >>= fun metadata =>
      (match metadata with
        | none => .pure ()
        | some metadata => publishTimeout result batch metadata) >>= fun _ =>
          acknowledge .results n) s := by
  obtain ⟨rest, hcons⟩ := hfront
  have hack : (¬∃ application, s.orch.appl[front.id]? = some application ∧
      isCurrent result.desiredVersion result.commandId (some application) = true ∧
      (application.applyStatus = .applying ∨ application.applyStatus = .removing)) →
      SafeAt policy (acknowledge .results n) s := by
    intro hnot
    refine safe_ackTimeout hrun.pending hrun.timeout fun t hst =>
      .first (hrun.near hst.near) hcons ?_ ?_ ?_
    · rw [hst.orch]; exact happl
    · rw [hst.orch]; exact hdevice
    · rw [hst.orch]; exact hnot
  cases hfound : s.orch.appl[front.id]? with
  | none => exact hack fun ⟨a, ha, _⟩ => by rw [hfound] at ha; cases ha
  | some application =>
      unfold firstTimeout
      dsimp only
      have hpublish : ¬(!isCurrent result.desiredVersion result.commandId (some application)) = true →
          ¬(application.applyStatus ≠ .applying ∧ application.applyStatus ≠ .removing) →
          ∀ now, SafeAt policy (do
            publishTimeout result batch (timeoutMetadata policy result now application)
            acknowledge .results n) s := by
        intro hcur hstatus now
        refine safe_publishTimeout hrun (.inr ⟨hdevice, happl, front, application,
          ⟨rest, hcons⟩, hfound, by simpa using hcur, ?_, now, rfl⟩)
        by_contra hno
        exact hstatus (not_or.mp hno)
      split_ifs with hcur hstatus hsched
      · refine hack fun ⟨a, ha, hc, _⟩ => ?_
        rw [hfound] at ha
        cases ha
        simp [hc] at hcur
      · refine hack fun ⟨a, ha, _, hex⟩ => ?_
        rw [hfound] at ha
        cases ha
        exact hex.elim hstatus.1 hstatus.2
      · rw [require_failed hstatus]
        exact SafeAt.now (hpublish hcur hstatus)
      · rw [require_failed hstatus]
        exact hpublish hcur hstatus 0

theorem safe_handleTimeout {front : ConnectionCommand} (hrun : TimeoutRun s n result batch)
    (hfront : ∃ rest, batch.commands = front :: rest) :
    SafeAt policy (do
      handleTimeout policy result batch front
      acknowledge .results n) s := by
  unfold handleTimeout
  rw [Prog.bind_assoc']
  refine SafeAt.getHash (Safe.of_inv fun t ht hst => ?_)
  replace hrun := hrun.near hst.near
  rw [← hst.orch]
  cases happl : t.orch.hash (.timeoutApplicationPublication result.commandId) with
  | some metadata => exact safe_publishTimeout hrun (.inl (ht.timeout _ _ happl))
  | none =>
      dsimp only
      rw [Prog.bind_assoc']
      refine SafeAt.getHash ?_
      cases hdevice : t.orch.hash (.timeoutDevicePublication result.commandId) with
      | some metadata => exact safe_publishTimeout hrun (.inl hdevice)
      | none =>
          dsimp only
          rw [Prog.bind_assoc']
          refine SafeAt.getAppl ?_
          rw [Prog.bind_assoc']
          exact safe_firstTimeout hrun hfront hdevice happl

theorem safe_handleTimeoutResult (hp : Pending s .results n result)
    (htimeout : isTimeout result = true) :
    SafeAt policy (do
      handleTimeoutResult policy result
      acknowledge .results n) s := by
  unfold handleTimeoutResult
  rw [Prog.bind_assoc']
  refine SafeAt.getAttempt fun t ht hst => ?_
  have hpt := hp.near hst.near
  have hrecorded := ht.recorded result (List.mem_of_getElem? hpt.get) htimeout
  cases hatt : t.syncd.hash (.applyAttempt result.commandId) with
  | none => rw [hatt] at hrecorded; cases hrecorded
  | some payload =>
      dsimp only
      cases hdec : decodeDeviceCommand payload with
      | error message =>
          refine safe_ackTimeout hpt htimeout fun u hu =>
            .malformed ⟨payload, message, hu.attempts _ _ hatt, hdec⟩
      | ok batch =>
          dsimp only
          cases hcommands : batch.commands with
          | nil =>
              obtain ⟨hb, hne, -⟩ := decodeDeviceCommand_ok hdec
              rw [hb] at hcommands
              exact absurd (List.map_eq_nil_iff.mp hcommands) hne
          | cons front rest =>
              exact safe_handleTimeout ⟨hpt, htimeout, payload, hatt, hdec⟩ ⟨rest, hcommands⟩

theorem safe_processResultOne : SafeAt policy (processResultOne policy) s := by
  refine SafeAt.nextMessage (fun _ => SafeAt.done false) fun s n result hp => ?_
  dsimp only
  split_ifs with htimeout
  · exact safe_handleTimeoutResult hp htimeout
  · exact safe_handleResult hp (by simpa using htimeout)

end Timeouts

/-! ## Retries -/

section Retries

variable {policy : ApplyRetryPolicy} {s : World} {n : Nat} {retry : RetryEvent}
  {batch : DeviceCommandBatch}

theorem isCurrentRetry_some {started : Bool} {command : ConnectionCommand}
    {application : Option Application}
    (h : isCurrentRetry retry started command application = true) :
    ∃ a, application = some a ∧ a.desiredVersion = command.desiredVersion ∧
      (a.commandId = retry.id.failed ∨ (started = true ∧ a.commandId = retry.id.command)) ∧
      (started = true ∨ a.applyStatus = .retryWait) := by
  simp only [isCurrentRetry, Bool.and_eq_true, Bool.or_eq_true, decide_eq_true_eq] at h
  obtain ⟨hcur, hstatus⟩ := h
  rcases hcur with hcur | ⟨hstarted, hcur⟩
  · obtain ⟨a, rfl, hv, hc⟩ := isCurrent_some hcur
    exact ⟨a, rfl, hv, .inl hc, hstatus⟩
  · obtain ⟨a, rfl, hv, hc⟩ := isCurrent_some hcur
    exact ⟨a, rfl, hv, .inr ⟨hstarted, hc⟩, hstatus⟩

theorem require_executing (operation : ConnectionOperation) :
    require .retryWait (executing operation) = .pure () := by
  cases operation <;> rfl

theorem safe_retryApplications {α : Type} {started : Bool}
    {k : Option (List (String × Option Application)) → Service α}
    {hashes : List (String × Option Application)} {commands : List ConnectionCommand}
    (hsome : (∀ c ∈ commands, isCurrentRetry retry started c s.orch.appl[c.id]? = true) →
      SafeAt policy (k (some (hashes ++ retryHashes s.orch.appl retry started commands))) s)
    (hnone : (∃ c ∈ commands, isCurrentRetry retry started c s.orch.appl[c.id]? = false) →
      SafeAt policy (k none) s) :
    SafeAt policy (retryApplications retry started hashes commands >>= k) s := by
  induction commands generalizing hashes with
  | nil =>
      have hnil := hsome (by simp)
      simp only [retryHashes, List.map_nil, List.append_nil] at hnil
      exact hnil
  | cons command rest ih =>
      unfold retryApplications
      rw [Prog.bind_assoc']
      refine SafeAt.getAppl ?_
      cases hfound : s.orch.appl[command.id]? with
      | none => exact hnone ⟨command, by simp, by rw [hfound]; cases started <;> rfl⟩
      | some application =>
          dsimp only
          by_cases hcurrent : isCurrentRetry retry started command (some application) = true
          · have hgo : SafeAt policy (retryApplications retry started (hashes ++ [(command.id,
                some (retryApplication retry started command application))]) rest >>= k) s := by
              refine ih (fun hrest => ?_) fun ⟨c, hc, h⟩ => hnone ⟨c, by simp [hc], h⟩
              have hall := hsome fun c hc => ?_
              · rw [List.append_assoc]
                simp only [retryHashes, List.map_cons, hfound, Option.map_some] at hall
                exact hall
              · rcases List.mem_cons.mp hc with rfl | hc
                · rw [hfound]; exact hcurrent
                · exact hrest c hc
            rw [if_pos hcurrent, require_executing]
            cases started <;> exact hgo
          · rw [if_neg hcurrent]
            refine hnone ⟨command, by simp, ?_⟩
            rw [hfound]
            simpa using hcurrent

theorem versionsMatch_retryHashes {table : Table} {started : Bool}
    {commands : List ConnectionCommand} {version : Nat}
    (hcurrent : ∀ c ∈ commands, isCurrentRetry retry started c table[c.id]? = true)
    (h : versionsMatch version (retryHashes table retry started commands) = true) :
    ∀ c ∈ commands, c.desiredVersion = version := by
  intro c hc
  obtain ⟨a, ha, hv, -, -⟩ := isCurrentRetry_some (hcurrent c hc)
  simp only [versionsMatch, retryHashes, List.all_map, List.all_eq_true, Function.comp_def] at h
  have hcv := h c hc
  rw [ha] at hcv
  simp only [Option.map_some, retryApplication, decide_eq_true_eq] at hcv
  rw [← hv, hcv]

theorem RetryRun.nodup (h : RetryRun s n retry batch) (hs : Orderly s) : (batchIds batch).Nodup := by
  rw [batchIds_decode h.decoded]
  exact hs.retries retry (List.mem_of_getElem? h.pending.get)

theorem RetryRun.stage (h : RetryRun s n retry batch) {copy : Copy} {marker : OrchKey}
    {fields : OrchHash marker} {version : Nat} {hashes : List (String × Option Application)}
    (hcommand : .retryCommandPublication retry.id ≠ marker) :
    RetryRun (s.stage copy marker fields version hashes) n retry batch where
  pending := ⟨by simpa using h.pending.mem, by simpa using h.pending.get⟩
  decoded := h.decoded
  unpublished := by rw [World.stage_hash_of_ne _ _ _ _ _ _ hcommand]; exact h.unpublished

theorem fst_retryHashes (table : Table) (started : Bool) (commands : List ConnectionCommand) :
    (retryHashes table retry started commands).map Prod.fst = commands.map (·.id) := by
  simp [retryHashes, Function.comp_def]

/-- The members as the retry leaves them. -/
theorem getElem?_retryHashes {table : Table} (hnd : (batchIds batch).Nodup) {started : Bool}
    (hcurrent : ∀ c ∈ batch.commands, isCurrentRetry retry started c table[c.id]? = true)
    (hv : ∀ c ∈ batch.commands, c.desiredVersion = retry.desiredVersion)
    {c : ConnectionCommand} (hc : c ∈ batch.commands) :
    (putVersioned table retry.desiredVersion
      (retryHashes table retry started batch.commands))[c.id]? =
        (table[c.id]?).map (retryApplication retry started c) := by
  refine getElem?_putVersioned_of_mem ?_ (List.mem_map.mpr ⟨c, hc, rfl⟩) fun existing hex => ?_
  · rw [fst_retryHashes]
    exact hnd
  · obtain ⟨a, ha, hav, -, -⟩ := isCurrentRetry_some (hcurrent c hc)
    rw [ha] at hex
    cases hex
    rw [hav, hv c hc]

/-- Recomputed after its first publication, a retry finds what it published. -/
theorem retryHashes_again {table : Table} (hnd : (batchIds batch).Nodup)
    (hcurrent : ∀ c ∈ batch.commands, isCurrentRetry retry false c table[c.id]? = true)
    (hv : ∀ c ∈ batch.commands, c.desiredVersion = retry.desiredVersion) :
    retryHashes (putVersioned table retry.desiredVersion
      (retryHashes table retry false batch.commands)) retry true batch.commands =
        retryHashes table retry false batch.commands := by
  refine List.map_congr_left fun c hc => ?_
  obtain ⟨a, ha, -, -, -⟩ := isCurrentRetry_some (hcurrent c hc)
  rw [getElem?_retryHashes hnd hcurrent hv hc, ha]
  rfl

theorem retryCurrent_again {table : Table} (hnd : (batchIds batch).Nodup)
    (hcurrent : ∀ c ∈ batch.commands, isCurrentRetry retry false c table[c.id]? = true)
    (hv : ∀ c ∈ batch.commands, c.desiredVersion = retry.desiredVersion)
    {c : ConnectionCommand} (hc : c ∈ batch.commands) :
    isCurrentRetry retry true c (putVersioned table retry.desiredVersion
      (retryHashes table retry false batch.commands))[c.id]? = true := by
  obtain ⟨a, ha, hav, -, -⟩ := isCurrentRetry_some (hcurrent c hc)
  rw [getElem?_retryHashes hnd hcurrent hv hc, ha]
  simp [isCurrentRetry, isCurrent, retryApplication, hav]

theorem safe_ackRetry (hp : Pending s .retries n retry) (hd : ∀ t, Frame s t → RetryDone t n retry) :
    SafeAt policy (acknowledge .retries n) s :=
  SafeAt.acknowledge fun t hst => .ackRetry (hp.near hst.near) (hd t hst)

theorem safe_retryCommandPhase (hrun : RetryRun s n retry batch)
    (hdevice : (s.orch.hash (.retryDevicePublication retry.id)).isSome) :
    SafeAt policy (do
      let _ ← send (.putHashIfAbsent (.configBatch retry.id.command) batch)
      let _ ← send (.appendCommandOnce (.retryCommandPublication retry.id) ()
        (retryCommandEvent retry batch))
      acknowledge .retries n) s := by
  have happend : ∀ s, RetryRun s n retry batch →
      (s.orch.hash (.retryDevicePublication retry.id)).isSome →
      SafeAt policy (do
        let _ ← send (.appendCommandOnce (.retryCommandPublication retry.id) ()
          (retryCommandEvent retry batch))
        acknowledge .retries n) s := by
    intro s hrun hdevice
    have hexec : ∀ t ch, Frame s t → (OrchOp.appendCommandOnce (.retryCommandPublication retry.id) ()
        (retryCommandEvent retry batch)).exec ch t =
        (true, { t with commands := t.commands ++ [retryCommandEvent retry batch] }.mark
          (.retryCommandPublication retry.id) ()) := by
      intro t ch hst
      have hnone := (hrun.near hst.near).unpublished
      simp only [OrchOp.exec, World.once, hnone]
      rfl
    refine SafeAt.send (fun t _ hst ch => ?_) fun t _ hst ch => ?_
    · rw [hexec t ch hst]
      exact .retryCommand (hrun.near hst.near) (by rw [hst.orch]; exact hdevice)
    · rw [hexec t ch hst]
      have hp := (hrun.near hst.near).pending
      have hset : ∀ w : World, (w.mark (.retryCommandPublication retry.id) ()).orch.hash
          (.retryCommandPublication retry.id) = some () := fun w => w.mark_hash_self _ _
      refine safe_ackRetry ⟨hp.mem, hp.get⟩ fun u hu => .inl ?_
      rw [hu.orch, hset]
      rfl
  refine SafeAt.send (fun t _ hst ch => ?_) fun t _ hst ch => ?_
  · simp only [OrchOp.exec, World.once]
    split_ifs with hset
    · exact .idle (by simp)
    · exact .retryBatch (hrun.near hst.near) (by rw [hst.orch]; exact hdevice)
  · have hrun' := hrun.near hst.near
    simp only [OrchOp.exec, World.once]
    split_ifs with hset
    · exact happend t hrun' (by rw [hst.orch]; exact hdevice)
    · refine happend _ ⟨⟨hrun'.pending.mem, hrun'.pending.get⟩, hrun'.decoded, ?_⟩ ?_
      · rw [World.mark_hash_of_ne _ _ _ (by simp)]; exact hrun'.unpublished
      · rw [World.mark_hash_of_ne _ _ _ (by simp)]
        change (t.orch.hash _).isSome
        rw [hst.orch]; exact hdevice

theorem safe_retryDevicePhase {hashes : List (String × Option Application)}
    (hh : hashes = retryHashes s.orch.appl retry true batch.commands)
    (hrun : RetryRun s n retry batch) (hcur : RetryCurrent s retry true batch)
    (happl : (s.orch.hash (.retryApplicationPublication retry.id)).isSome) :
    SafeAt policy (do
      publish .device (.retryDevicePublication retry.id) () retry.desiredVersion hashes
      let _ ← send (.putHashIfAbsent (.configBatch retry.id.command) batch)
      let _ ← send (.appendCommandOnce (.retryCommandPublication retry.id) ()
        (retryCommandEvent retry batch))
      acknowledge .retries n) s := by
  subst hh
  refine SafeAt.publish (fun hset => safe_retryCommandPhase hrun hset)
    (fun t _ hst hnone hv => ?_) fun t _ hst hnone hv => ?_
  · rw [← hst.near.appl]
    refine .retryDevice (hrun.near hst.near) (hcur.near hst.near) ?_ ?_
      (versionsMatch_retryHashes hcur hv)
    · rw [hst.orch]; exact happl
    · rw [hst.orch]; exact hnone
  · exact safe_retryCommandPhase ((hrun.near hst.near).stage (by simp)) (by simp)

/-- A retry that has not started: `APPL_DB` first. -/
theorem safe_startRetry (hrun : RetryRun s n retry batch)
    (happl : s.orch.hash (.retryApplicationPublication retry.id) = none)
    (hdevice : s.orch.hash (.retryDevicePublication retry.id) = none) :
    SafeAt policy (publishRetry n retry batch false) s := by
  unfold publishRetry
  refine safe_retryApplications (fun hcur => ?_) fun ⟨c, hc, hnot⟩ => ?_
  · simp only [List.nil_append]
    refine SafeAt.publish (fun hset => ?_) (fun t _ hst hnone hv => ?_) fun t ht hst hnone hv => ?_
    · rw [happl] at hset; cases hset
    · rw [← hst.near.appl]
      refine .retryApplication (hrun.near hst.near) (RetryCurrent.near hcur hst.near) ?_ ?_
        (versionsMatch_retryHashes hcur hv)
      · rw [hst.orch]; exact happl
      · rw [hst.orch]; exact hdevice
    · have hnd := (hrun.near hst.near).nodup ht
      have hversions := versionsMatch_retryHashes hcur hv
      refine safe_retryDevicePhase ?_ ((hrun.near hst.near).stage (by simp)) ?_ (by simp)
      · rw [World.stage_appl_appl, hst.near.appl]
        exact (retryHashes_again hnd hcur hversions).symm
      · intro c hc
        rw [World.stage_appl_appl, hst.near.appl]
        exact retryCurrent_again hnd hcur hversions hc
  · refine safe_ackRetry hrun.pending fun t hst => .inr ⟨batch, hrun.near hst.near, fun hcur => ?_⟩
    have hc' := hcur c hc
    have hstarted : retryStarted t retry = false := by simp [retryStarted, hst.orch, happl, hdevice]
    rw [hstarted, hst.orch, hnot] at hc'
    cases hc'

/-- A retry that was cut after its first publication. -/
theorem safe_resumeRetry (hrun : RetryRun s n retry batch)
    (happl : (s.orch.hash (.retryApplicationPublication retry.id)).isSome) :
    SafeAt policy (publishRetry n retry batch true) s := by
  unfold publishRetry
  refine safe_retryApplications (fun hcur => ?_) fun ⟨c, hc, hnot⟩ => ?_
  · simp only [List.nil_append]
    refine SafeAt.publish (fun _ => safe_retryDevicePhase rfl hrun hcur happl)
      (fun t _ hst hnone hv => ?_) fun t _ hst hnone hv => ?_
    · rw [hnone] at happl; cases happl
    · rw [hnone] at happl; cases happl
  · refine safe_ackRetry hrun.pending fun t hst => .inr ⟨batch, hrun.near hst.near, fun hcur => ?_⟩
    have hc' := hcur c hc
    have hstarted : retryStarted t retry = true := by simp [retryStarted, hst.orch, happl]
    rw [hstarted, hst.orch, hnot] at hc'
    cases hc'

theorem safe_handleRetry (hp : Pending s .retries n retry) :
    SafeAt policy (handleRetry n retry) s := by
  unfold handleRetry
  refine SafeAt.now fun now => ?_
  split_ifs
  · exact SafeAt.done false
  · cases hdec : decodeDeviceCommand retry.batch with
    | error message => exact SafeAt.raise fun _ _ => .invalidArgument
    | ok batch =>
        refine SafeAt.getHash ?_
        cases hcommand : s.orch.hash (.retryCommandPublication retry.id) with
        | some _ =>
            refine safe_ackRetry hp fun t hst => .inl ?_
            rw [hst.orch, hcommand]
            rfl
        | none =>
            have hrun : RetryRun s n retry batch := ⟨hp, hdec, hcommand⟩
            refine SafeAt.getHash ?_
            cases happl : s.orch.hash (.retryApplicationPublication retry.id) with
            | some _ => exact safe_resumeRetry hrun (by rw [happl]; rfl)
            | none =>
                refine SafeAt.getHash (Safe.of_inv fun t ht hst => ?_)
                have hdevice : s.orch.hash (.retryDevicePublication retry.id) = none := by
                  by_contra hsome
                  have hset := ht.retry retry.id (by
                    rw [hst.orch]; exact Option.isSome_iff_ne_none.mpr hsome)
                  rw [hst.orch, happl] at hset
                  cases hset
                rw [hdevice]
                refine safe_startRetry (hrun.near hst.near) ?_ ?_
                · rw [hst.orch]; exact happl
                · rw [hst.orch]; exact hdevice

theorem safe_processRetryOne : SafeAt policy processRetryOne s :=
  SafeAt.nextMessage (fun _ => SafeAt.done false) fun _ _ _ hp => safe_handleRetry hp

end Retries

/-! ## The markers stay in order -/

/-- The phase before the one that a marker records is recorded. -/
def markOk (w : World) : (k : OrchKey) → OrchHash k → Prop
  | .applicationPublication e, _ => (w.orch.hash (.configBatch (.config e))).isSome
  | .deviceStatePublication e, _ => (w.orch.hash (.applicationPublication e)).isSome
  | .deviceCommandPublication e, _ => (w.orch.hash (.deviceStatePublication e)).isSome
  | .resultApplicationPublication r, _ => (w.orch.hash (.resultDevicePublication r)).isSome
  | .timeoutDevicePublication c, _ => w.orch.hash (.timeoutApplicationPublication c) = none
  | .timeoutApplicationPublication c, metadata =>
      w.orch.hash (.timeoutDevicePublication c) = some metadata
  | .retryDevicePublication y, _ => (w.orch.hash (.retryApplicationPublication y)).isSome
  | .retryCommandPublication y, _ => (w.orch.hash (.retryDevicePublication y)).isSome
  | _, _ => True

theorem Orderly.mark {w w' : World} (h : Orderly w) {k : OrchKey} {v : OrchHash k}
    (hok : markOk w k v) (hself : w'.orch.hash k = some v)
    (hhash : ∀ k', k' ≠ k → w'.orch.hash k' = w.orch.hash k') (hsyncd : w'.syncd = w.syncd)
    (hretries : ∀ y ∈ w'.orch.retries, (batchIds y.batch).Nodup) : Orderly w' := by
  have hold : ∀ k', k' = k ∨ w'.orch.hash k' = w.orch.hash k' := fun k' =>
    (em (k' = k)).imp_right (hhash k')
  have hkeep : ∀ k', (w.orch.hash k').isSome → (w'.orch.hash k').isSome := by
    intro k' hk'
    rcases hold k' with rfl | heq
    · rw [hself]; rfl
    · rw [heq]; exact hk'
  refine ⟨fun e he => ?_, fun e he => ?_, fun e he => ?_, fun r hr => ?_, fun c m hm => ?_,
    fun y hy => ?_, fun y hy => ?_, by rw [hsyncd]; exact h.attempts, hretries,
    by rw [hsyncd]; exact h.recorded⟩
  · rcases hold (.applicationPublication e) with rfl | heq
    · exact hkeep _ hok
    · exact hkeep _ (h.prepared e (heq ▸ he))
  · rcases hold (.deviceStatePublication e) with rfl | heq
    · exact hkeep _ hok
    · exact hkeep _ (h.application e (heq ▸ he))
  · rcases hold (.deviceCommandPublication e) with rfl | heq
    · exact hkeep _ hok
    · exact hkeep _ (h.deviceState e (heq ▸ he))
  · rcases hold (.resultApplicationPublication r) with rfl | heq
    · exact hkeep _ hok
    · exact hkeep _ (h.result r (heq ▸ hr))
  · rcases hold (.timeoutApplicationPublication c) with rfl | heq
    · rw [hself] at hm
      cases hm
      rw [hhash _ (by simp)]
      exact hok
    · rw [heq] at hm
      rcases hold (.timeoutDevicePublication c) with rfl | heq'
      · rw [show w.orch.hash (.timeoutApplicationPublication c) = none from hok] at hm
        cases hm
      · rw [heq']
        exact h.timeout c m hm
  · rcases hold (.retryDevicePublication y) with rfl | heq
    · exact hkeep _ hok
    · exact hkeep _ (h.retry y (heq ▸ hy))
  · rcases hold (.retryCommandPublication y) with rfl | heq
    · exact hkeep _ hok
    · exact hkeep _ (h.retryDevice y (heq ▸ hy))

theorem Orderly.marked {w : World} (h : Orderly w) {k : OrchKey} {v : OrchHash k}
    (hok : markOk w k v) : Orderly (w.mark k v) :=
  h.mark hok (w.mark_hash_self k v) (fun _ hk => w.mark_hash_of_ne k v hk) rfl h.retries

theorem Orderly.staged {w : World} (h : Orderly w) {copy : Copy} {k : OrchKey} {v : OrchHash k}
    {version : Nat} {hashes : List (String × Option Application)} (hok : markOk w k v) :
    Orderly (w.stage copy k v version hashes) := by
  refine h.mark hok (w.stage_hash_self k v copy version hashes)
    (fun _ hk => w.stage_hash_of_ne k v copy version hashes hk) rfl ?_
  rw [World.stage_retries]
  exact h.retries

/-- The order of the markers only depends on the hashes, the attempts and the retries. -/
theorem Orderly.congr {w w' : World} (h : Orderly w)
    (hhash : ∀ k, isAlarmKey k = false → w'.orch.hash k = w.orch.hash k)
    (hsyncd : w'.syncd = w.syncd) (hretries : w'.orch.retries = w.orch.retries) : Orderly w' where
  prepared e he := by
    rw [hhash _ rfl] at he ⊢; exact h.prepared e he
  application e he := by
    rw [hhash _ rfl] at he ⊢; exact h.application e he
  deviceState e he := by
    rw [hhash _ rfl] at he ⊢; exact h.deviceState e he
  result r hr := by
    rw [hhash _ rfl] at hr ⊢; exact h.result r hr
  timeout c m hm := by
    rw [hhash _ rfl] at hm ⊢; exact h.timeout c m hm
  retry y hy := by
    rw [hhash _ rfl] at hy ⊢; exact h.retry y hy
  retryDevice y hy := by
    rw [hhash _ rfl] at hy ⊢; exact h.retryDevice y hy
  attempts := by rw [hsyncd]; exact h.attempts
  retries := by rw [hretries]; exact h.retries
  recorded := by rw [hsyncd]; exact h.recorded

theorem Orderly.action {policy : ApplyRetryPolicy} {w w' : World} {o : OrchOp} (h : Orderly w)
    (ha : Action policy w o w') : Orderly w' := by
  cases ha with
  | idle _ => exact h
  | raise _ => exact h
  | alarm _ halarm => exact h.congr halarm.only.hash halarm.only.syncd halarm.only.retries
  | @deliver g n hp hd hlt =>
      exact h.congr (fun k _ => by cases g <;> rfl) rfl (by cases g <;> rfl)
  | prepare _ _ _ _ _ _ => exact h.marked trivial
  | stageApplication hrun _ _ _ =>
      obtain ⟨payload, hprep, -⟩ := hrun.prepared
      exact h.staged (by rw [markOk]; exact Option.isSome_of_eq_some hprep)
  | stageDevice _ happl _ _ => exact h.staged happl
  | @publishCommand n event batch _ hdevice =>
      exact h.mark (k := .deviceCommandPublication event.eventId) (v := ()) hdevice
        (World.mark_hash_self _ _ _) (fun _ hk => World.mark_hash_of_ne _ _ _ hk) rfl h.retries
  | @ackConfig n event _ _ => exact h.congr (fun _ _ => by simp) rfl (by simp)
  | resultDevice _ _ _ => exact h.staged trivial
  | resultApplication _ hdevice _ => exact h.staged hdevice
  | ackResult _ _ _ _ => exact h.congr (fun _ _ => by simp) rfl (by simp)
  | timeoutDevice _ _ _ _ happl _ => exact h.staged happl
  | timeoutApplication _ _ hdevice _ _ => exact h.staged hdevice
  | @scheduleRetry n result batch metadata hrun _ _ _ _ =>
      refine h.mark (k := .retryPublication result.commandId) (v := ()) trivial
        (World.mark_hash_self _ _ _) (fun _ hk => World.mark_hash_of_ne _ _ _ hk) rfl ?_
      intro y hy
      change y ∈ w.orch.retries ++ _ at hy
      rcases List.mem_append.mp hy with hy | hy
      · exact h.retries y hy
      · rw [List.mem_singleton.mp hy]
        exact hrun.nodup h
  | ackTimeout _ _ _ => exact h.congr (fun _ _ => by simp) rfl (by simp)
  | retryApplication _ _ _ _ _ => exact h.staged trivial
  | retryDevice _ _ happl _ _ => exact h.staged happl
  | retryBatch _ _ => exact h.marked trivial
  | @retryCommand n retry batch _ hdevice =>
      exact h.mark (k := .retryCommandPublication retry.id) (v := ()) hdevice
        (World.mark_hash_self _ _ _) (fun _ hk => World.mark_hash_of_ne _ _ _ hk) rfl h.retries
  | ackRetry _ _ => exact h.congr (fun _ _ => by simp) rfl (by simp)

end MiniOcs.Orch
