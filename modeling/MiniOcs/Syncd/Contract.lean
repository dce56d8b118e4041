import MiniOcs.Device.Matrix
import MiniOcs.Syncd.Reads

/-!
# Every call of the command handler is an action

The contract of a single syncd: nobody else writes its state, the command stream only grows,
applications do not get older, and the device moves as the exposure says.
-/
namespace MiniOcs.Syncd
open Std Concurrent

/-- What the other processes may do to the world of a running handler. -/
structure Frame (X : Exposure) (s t : World) : Prop where
  syncd : t.syncd = s.syncd
  commands : s.commands <+: t.commands
  device : X.moves s.hwsim t.hwsim
  name : t.hwsim.info.name = s.hwsim.info.name
  versions : ∀ id : String, Orch.currentVersion s.orch.appl[id]? ≤ Orch.currentVersion t.orch.appl[id]?

theorem Frame.refl {X : Exposure} (s : World) : Frame X s s :=
  ⟨rfl, List.prefix_rfl, X.refl _, rfl, fun _ => Nat.le_refl _⟩

theorem Frame.trans {X : Exposure} {a b c : World} (h₁ : Frame X a b) (h₂ : Frame X b c) :
    Frame X a c :=
  ⟨h₂.syncd.trans h₁.syncd, h₁.commands.trans h₂.commands, X.trans h₁.device h₂.device,
    h₂.name.trans h₁.name, fun id => Nat.le_trans (h₁.versions id) (h₂.versions id)⟩

/-- What syncd finds in the intents and on the device is known to the application. -/
structure Known (w : World) : Prop where
  keyed : ∀ (id : String) (d : Application), w.orch.device[id]? = some d → d.id = id
  intents : ∀ (id : String) (d : Application), w.orch.device[id]? = some d →
    d.desiredVersion ≤ Orch.currentVersion w.orch.appl[id]?
  actual : ∀ x ∈ w.hwsim.getConnections,
    max x.appliedVersion 1 ≤ Orch.currentVersion w.orch.appl[x.id]?
  distinct : (w.hwsim.getConnections.map (·.id)).Nodup

/-- The contract of one syncd. -/
def contract (X : Exposure) : Contract Op World where
  inv := Known
  rely := Frame X
  guard o w := match o with
    | .syncd o => ∀ ch, X.permits o ch → Action X w o (o.exec ch w).2
    | .orch _ => False
  allow o ch _ := match o with
    | .syncd o => X.permits o ch
    | .orch _ => True
  refl := Frame.refl
  trans := Frame.trans

abbrev SafeAt (X : Exposure) {α : Type} (p : Service α) (s : World) : Prop :=
  Safe exec (contract X) (fun _ _ => True) p s

/-! ## Rules for the operations -/

section Rules

variable {X : Exposure} {α : Type} {s : World}

theorem SafeAt.send {o : SyncdOp} {k : o.Reply → Service α}
    (hact : ∀ t, Known t → Frame X s t → ∀ ch, X.permits o ch → Action X t o (o.exec ch t).2)
    (hk : ∀ t, Known t → Frame X s t → ∀ ch, X.permits o ch →
      SafeAt X (k (o.exec ch t).1) (o.exec ch t).2) :
    SafeAt X (Syncd.send o >>= k) s :=
  fun t ht hst => ⟨hact t ht hst, fun ch hch => hk t ht hst ch hch⟩

/-- A read of syncd's own state. -/
theorem SafeAt.own {o : SyncdOp} {k : o.Reply → Service α}
    (r : SyncdState → o.Reply) (hexec : ∀ t ch, o.exec ch t = (r t.syncd, t))
    (h : SafeAt X (k (r s.syncd)) s) : SafeAt X (Syncd.send o >>= k) s := by
  refine Safe.read (o := Op.syncd o) (r s.syncd) (fun t _ _ ch _ => ?_) (fun t ch _ hst _ => ?_) h
  · rw [hexec]
    exact .idle
  · change o.exec ch t = _
    rw [hexec, hst.syncd]

theorem SafeAt.getHash {key : SyncdKey} {k : Option (SyncdHash key) → Service α}
    (h : SafeAt X (k (s.syncd.hash key)) s) : SafeAt X (Syncd.send (.getHash key) >>= k) s :=
  SafeAt.own (o := .getHash key) (fun o => o.hash key) (fun _ _ => rfl) h

theorem SafeAt.getState {id : String} {k : Option ConnectionState → Service α}
    (h : SafeAt X (k s.syncd.state[id]?) s) : SafeAt X (Syncd.send (.getState id) >>= k) s :=
  SafeAt.own (o := .getState id) (fun o => o.state[id]?) (fun _ _ => rfl) h

theorem SafeAt.readMemory {k : String × Nat → Service α}
    (h : SafeAt X (k (s.syncd.deviceName, s.syncd.deviceGeneration)) s) :
    SafeAt X (Syncd.send .readMemory >>= k) s :=
  SafeAt.own (o := .readMemory) (fun o => (o.deviceName, o.deviceGeneration)) (fun _ _ => rfl) h

theorem SafeAt.now {k : Nat → Service α} (h : ∀ n, SafeAt X (k n) s) :
    SafeAt X (Syncd.send .now >>= k) s :=
  SafeAt.send (fun _ _ _ _ _ => .idle) fun _ _ hst ch _ => (h ch).mono hst

theorem SafeAt.done (a : α) : SafeAt X (.pure a) s := fun _ _ _ => trivial

theorem SafeAt.raise {e : Raised} : SafeAt X (Syncd.raise e : Service α) s :=
  fun _ _ _ => ⟨fun _ _ => .idle, fun _ _ _ _ _ => trivial⟩

theorem SafeAt.raise_bind {β : Type} {e : Raised} {k : β → Service α} :
    SafeAt X ((Syncd.raise e : Service β) >>= k) s :=
  fun _ _ _ => ⟨fun _ _ => .idle, fun _ _ _ _ _ => trivial⟩

/-- A read of the device. The choice is 0 unless the link may fail. -/
theorem SafeAt.readDevice {β : Type} {o : SyncdOp} {k : o.Reply → Service α}
    (hreply : o.Reply = Except String β) (r : SimulatedOcsDevice CommandId → β)
    (hreq : isDeviceRequest o = true)
    (hexec : ∀ t ch, o.exec ch t = (cast hreply.symm (MiniOcs.readDevice ch (r t.hwsim)), t))
    (hok : ∀ t, Known t → Frame X s t → SafeAt X (k (cast hreply.symm (.ok (r t.hwsim)))) t)
    (herror : ∀ t, X.lossy → Frame X s t →
      SafeAt X (k (cast hreply.symm (.error linkFailure))) t) :
    SafeAt X (Syncd.send o >>= k) s := by
  refine SafeAt.send (fun t _ _ ch _ => by rw [hexec]; exact .idle) fun t ht hst ch hch => ?_
  rw [hexec]
  unfold MiniOcs.readDevice
  split_ifs with h
  · exact hok t ht hst
  · exact herror t ((hch hreq).resolve_right h) hst

/-- A block that its marker skips. -/
theorem SafeAt.skip {o : SyncdOp} {k : o.Reply → Service α} (r : o.Reply)
    (hexec : ∀ t, Frame X s t → ∀ ch, o.exec ch t = (r, t)) (h : SafeAt X (k r) s) :
    SafeAt X (Syncd.send o >>= k) s := by
  refine SafeAt.send (fun t _ hst ch _ => ?_) fun t _ hst ch _ => ?_
  · rw [hexec t hst ch]
    exact .idle
  · rw [hexec t hst ch]
    exact h.mono hst

/-- A write whose reply and effect are known. -/
theorem SafeAt.write {o : SyncdOp} {k : o.Reply → Service α} (r : o.Reply) (post : World → World)
    (hexec : ∀ t, Frame X s t → ∀ ch, o.exec ch t = (r, post t))
    (hact : ∀ t, Known t → Frame X s t → Action X t o (post t))
    (h : ∀ t, Known t → Frame X s t → SafeAt X (k r) (post t)) :
    SafeAt X (Syncd.send o >>= k) s := by
  refine SafeAt.send (fun t ht hst ch _ => ?_) fun t ht hst ch _ => ?_
  · rw [hexec t hst ch]
    exact hact t ht hst
  · rw [hexec t hst ch]
    exact h t ht hst

end Rules

theorem exec_replaceStateOnce_none {t : World} {marker : SyncdKey} {fields : SyncdHash marker}
    {id : String} {state : Option ConnectionState} {event : StateEvent}
    (h : t.syncd.hash marker = none) (ch : Nat) :
    (SyncdOp.replaceStateOnce marker fields id state event).exec ch t =
      (true, t.publishState marker fields id state event) := by
  simp only [SyncdOp.exec]
  rw [onceSyncd_none h]
  rfl

theorem exec_appendResultOnce_some {t : World} {marker : SyncdKey} {fields : SyncdHash marker}
    {event : ResultEvent} (h : (t.syncd.hash marker).isSome) (ch : Nat) :
    (SyncdOp.appendResultOnce marker fields event).exec ch t = (false, t) := by
  simp only [SyncdOp.exec]
  rw [onceSyncd_some h]

theorem exec_appendResultOnce_none {t : World} {marker : SyncdKey} {fields : SyncdHash marker}
    {event : ResultEvent} (h : t.syncd.hash marker = none) (ch : Nat) :
    (SyncdOp.appendResultOnce marker fields event).exec ch t =
      (true, (t.setSyncd { t.syncd with
        results := t.syncd.results ++ [event] }).markSyncd marker fields) := by
  simp only [SyncdOp.exec]
  rw [onceSyncd_none h]

/-! ## What interference keeps -/

section Frames

variable {X : Exposure} {s t : World} {n : Nat} {event : CommandEvent}
  {batch : DeviceCommandBatch} {stored : StoredResult}

theorem Pending.frame (h : Pending s n event) (hst : Frame X s t) : Pending t n event :=
  ⟨by rw [hst.syncd]; exact h.mem, Gnmi.getElem?_of_prefix hst.commands h.get⟩

theorem CommandRun.frame (h : CommandRun s n event batch) (hst : Frame X s t) :
    CommandRun t n event batch :=
  ⟨h.pending.frame hst, by rw [hst.syncd]; exact h.unprocessed, h.batch⟩

theorem Unapplied.frame (h : Unapplied s n event batch) (hst : Frame X s t) :
    Unapplied t n event batch :=
  ⟨h.toCommandRun.frame hst, h.decoded, by rw [hst.syncd]; exact h.unstored⟩

theorem Applied.frame (h : Applied s n event batch stored) (hst : Frame X s t) :
    Applied t n event batch stored :=
  ⟨h.toCommandRun.frame hst, by rw [hst.syncd]; exact h.stored⟩

end Frames

/-! ## Delivery -/

section Delivery

variable {X : Exposure} {α : Type} {s : World}

theorem SafeAt.nextCommand {k : Option (Nat × CommandEvent) → Service α}
    (hname : s.syncd.deviceName ≠ "") (hnone : ∀ s, SafeAt X (k none) s)
    (hsome : ∀ s n event, s.syncd.deviceName ≠ "" → Pending s n event →
      SafeAt X (k (some (n, event))) s) :
    SafeAt X (Syncd.nextCommand >>= k) s := by
  have hread : ∀ s, s.syncd.deviceName ≠ "" → SafeAt X (Syncd.send .readGroup >>= k) s := by
    intro s hname
    refine SafeAt.send (fun t _ _ ch _ => ?_) fun t _ hst ch _ => ?_
    · simp only [SyncdOp.exec]
      cases hr : t.syncd.group.read t.commands.length with
      | mk r g' =>
          cases r with
          | some n =>
              obtain ⟨hp, hn, hlt, rfl⟩ := Group.read_eq_some hr
              exact .deliver hp hn.symm hlt
          | none =>
              have hg : g' = t.syncd.group := by
                unfold Group.read at hr
                split_ifs at hr
                · cases hr
                · cases hr; rfl
              subst hg
              exact .idle
    · simp only [SyncdOp.exec]
      cases hr : t.syncd.group.read t.commands.length with
      | mk r g' =>
          cases r with
          | none => exact hnone _
          | some n =>
              obtain ⟨hp, hn, hlt, rfl⟩ := Group.read_eq_some hr
              have hget : t.commands[n]? = some t.commands[n] := List.getElem?_eq_getElem hlt
              simp only [Option.bind_some, hget, Option.map_some]
              refine hsome _ _ _ ?_ ⟨by simp [World.setSyncd], hget⟩
              simpa [World.setSyncd, hst.syncd] using hname
  unfold Syncd.nextCommand
  rw [Prog.bind_assoc']
  refine SafeAt.send (fun t _ _ ch _ => .idle) fun t _ hst ch _ => ?_
  have hname' : t.syncd.deviceName ≠ "" := by rw [hst.syncd]; exact hname
  simp only [SyncdOp.exec]
  cases hc : t.syncd.group.candidate pendingScan ch with
  | none => exact hread _ hname'
  | some n =>
      dsimp only
      rw [Prog.bind_assoc']
      refine SafeAt.send (fun t _ _ ch _ => .idle) fun u _ hstu ch _ => ?_
      have hname'' : u.syncd.deviceName ≠ "" := by rw [hstu.syncd]; exact hname'
      simp only [SyncdOp.exec]
      split_ifs with hclaim
      · cases hget : u.commands[n]? with
        | none => exact hread _ hname''
        | some event => exact hsome _ _ _ hname'' ⟨hclaim.2, hget⟩
      · exact hread _ hname''

theorem safe_acknowledge {n : Nat} {event : CommandEvent} (hp : Pending s n event)
    (hdone : (s.syncd.hash (.processedCommand event.id)).isSome) :
    SafeAt X (Syncd.acknowledge n) s := by
  refine SafeAt.send (fun t _ hst ch _ => ?_) fun t _ _ ch _ => ?_
  · exact .ack (hp.frame hst) (by rw [hst.syncd]; exact hdone)
  · split_ifs
    · exact SafeAt.done true
    · exact SafeAt.raise

end Delivery

/-! ## Bookkeeping -/

/-- The same world up to interference and bookkeeping. -/
structure Near (X : Exposure) (s t : World) : Prop where
  state : t.syncd.state = s.syncd.state
  group : t.syncd.group = s.syncd.group
  deviceName : t.syncd.deviceName = s.syncd.deviceName
  deviceGeneration : t.syncd.deviceGeneration = s.syncd.deviceGeneration
  hash : ∀ k, isAsideKey k = false → t.syncd.hash k = s.syncd.hash k
  commands : s.commands <+: t.commands
  device : X.moves s.hwsim t.hwsim
  name : t.hwsim.info.name = s.hwsim.info.name
  versions : ∀ id : String,
    Orch.currentVersion s.orch.appl[id]? ≤ Orch.currentVersion t.orch.appl[id]?

theorem Near.trans {X : Exposure} {a b c : World} (h₁ : Near X a b) (h₂ : Near X b c) :
    Near X a c where
  state := h₂.state.trans h₁.state
  group := h₂.group.trans h₁.group
  deviceName := h₂.deviceName.trans h₁.deviceName
  deviceGeneration := h₂.deviceGeneration.trans h₁.deviceGeneration
  hash k hk := (h₂.hash k hk).trans (h₁.hash k hk)
  commands := h₁.commands.trans h₂.commands
  device := X.trans h₁.device h₂.device
  name := h₂.name.trans h₁.name
  versions id := Nat.le_trans (h₁.versions id) (h₂.versions id)

theorem Frame.near {X : Exposure} {s t : World} (h : Frame X s t) : Near X s t where
  state := by rw [h.syncd]
  group := by rw [h.syncd]
  deviceName := by rw [h.syncd]
  deviceGeneration := by rw [h.syncd]
  hash k _ := by rw [h.syncd]
  commands := h.commands
  device := h.device
  name := h.name
  versions := h.versions

theorem AsideOnly.near {X : Exposure} {s t : World} (h : AsideOnly s t) : Near X s t where
  state := h.state
  group := h.group
  deviceName := h.deviceName
  deviceGeneration := h.deviceGeneration
  hash := h.hash
  commands := by rw [h.commands]
  device := by rw [h.hwsim]; exact X.refl _
  name := by rw [h.hwsim]
  versions id := by rw [h.orch]

theorem asideOnly_refl (t : World) : AsideOnly t t :=
  ⟨rfl, rfl, rfl, rfl, rfl, rfl, rfl, rfl, rfl, rfl, fun _ _ => rfl,
    ⟨[], by simp, by simp⟩, ⟨[], by simp, by simp⟩⟩

theorem AsideOnly.mark {t u : World} (h : AsideOnly t u) {key : SyncdKey} {v : SyncdHash key}
    (hkey : isAsideKey key = true) : AsideOnly t (u.markSyncd key v) := by
  refine ⟨h.inventory, h.config, h.orch, h.commands, h.hwsim, h.state, h.results, h.group,
    h.deviceName, h.deviceGeneration, fun k hk => ?_, h.stateEvents, h.counters⟩
  have hne : k ≠ key := by
    rintro rfl
    rw [hkey] at hk
    cases hk
  rw [World.markSyncd_hash_of_ne _ _ _ hne]
  exact h.hash k hk

theorem asideOnly_once {t : World} {marker : SyncdKey} {fields : SyncdHash marker}
    {write : World → World} (hmarker : isAsideKey marker = true) (hwrite : AsideOnly t (write t)) :
    AsideOnly t (t.onceSyncd marker fields write).2 := by
  unfold World.onceSyncd
  split_ifs
  · exact asideOnly_refl t
  · exact hwrite.mark hmarker

theorem asideOnly_putEntries {t : World} {entries : List SyncdEntry}
    (h : ∀ entry ∈ entries, isAsideKey entry.1 = true) : AsideOnly t (t.putEntries entries) := by
  induction entries using List.reverseRecOn with
  | nil => exact asideOnly_refl t
  | append_singleton rest entry ih =>
      have hrest := ih fun e he => h e (List.mem_append_left _ he)
      have heq : t.putEntries (rest ++ [entry]) = (t.putEntries rest).markSyncd entry.1 entry.2 := by
        simp [World.putEntries, World.markSyncd, World.setSyncd]
      rw [heq]
      exact hrest.mark (h entry (by simp))

/-- Operations that only keep the books. -/
def calmOp : Op → Prop
  | .syncd (.getHash _) | .syncd .now | .syncd .readMemory | .syncd .scanPortFaults
  | .syncd (.getPortState _ _) | .syncd (.raise _) => True
  | .syncd (.putHash key _) => isAsideKey key = true
  | .syncd (.putHashesAtomically entries) => ∀ entry ∈ entries, isAsideKey entry.1 = true
  | .syncd (.replaceHashAndAppendEvent key _ event) =>
      isAsideKey key = true ∧ isAsideEvent event = true
  | .syncd (.replaceAlarmOnce marker _ _ _ _) => isAsideKey marker = true
  | .syncd (.incrementOnce marker _ update) => isAsideKey marker = true ∧ update.command = none
  | _ => False

/-- Programs that only keep the books. -/
def Calm {α : Type} : Service α → Prop
  | .pure _ => True
  | .throw _ => True
  | .call o k => calmOp o ∧ ∀ r, Calm (k r)

theorem Calm.bind {α β : Type} {p : Service α} {f : α → Service β} (hp : Calm p)
    (hf : ∀ a, Calm (f a)) : Calm (p >>= f) := by
  induction p with
  | pure a => exact hf a
  | throw e => trivial
  | call o k ih => exact ⟨hp.1, fun r => ih r (hp.2 r)⟩

theorem Calm.send {α : Type} {o : SyncdOp} {k : o.Reply → Service α} (ho : calmOp (.syncd o))
    (hk : ∀ r, Calm (k r)) : Calm (Syncd.send o >>= k) := ⟨ho, hk⟩

theorem Calm.raise {α : Type} {e : Raised} : Calm (Syncd.raise e : Service α) :=
  ⟨trivial, fun _ => trivial⟩

theorem asideOnly_exec {o : SyncdOp} (ho : calmOp (.syncd o)) (t : World) (ch : Nat) :
    AsideOnly t (o.exec ch t).2 := by
  cases o with
  | getHash key => exact asideOnly_refl t
  | now => exact asideOnly_refl t
  | readMemory => exact asideOnly_refl t
  | scanPortFaults => exact asideOnly_refl t
  | getPortState direction id => exact asideOnly_refl t
  | raise e => exact asideOnly_refl t
  | putHash key v => exact (asideOnly_refl t).mark ho
  | putHashesAtomically entries => exact asideOnly_putEntries ho
  | replaceHashAndAppendEvent key v event =>
      have h := (asideOnly_refl t).mark (v := v) ho.1
      exact ⟨h.inventory, h.config, h.orch, h.commands, h.hwsim, h.state, h.results, h.group,
        h.deviceName, h.deviceGeneration, h.hash, ⟨[event], rfl, by simpa using ho.2⟩, h.counters⟩
  | replaceAlarmOnce marker fields id alarm event =>
      refine asideOnly_once ho ⟨rfl, rfl, rfl, rfl, rfl, rfl, rfl, rfl, rfl, rfl,
        fun k hk => Function.update_of_ne ?_ _ _, ⟨[], by simp, by simp⟩, ⟨[], by simp, by simp⟩⟩
      rintro rfl
      cases hk
  | incrementOnce marker fields update =>
      exact asideOnly_once ho.1 ⟨rfl, rfl, rfl, rfl, rfl, rfl, rfl, rfl, rfl, rfl, fun _ _ => rfl,
        ⟨[], by simp, by simp⟩, ⟨[update], rfl, by simpa using ho.2⟩⟩
  | _ => exact ho.elim

theorem SafeAt.calm {X : Exposure} {α β : Type} {s : World} {p : Service β} {k : β → Service α}
    (hp : Calm p) (h : ∀ a t, Near X s t → SafeAt X (k a) t) : SafeAt X (p >>= k) s := by
  induction p generalizing s with
  | pure a => exact h a s (Frame.refl s).near
  | throw e => exact fun _ _ _ => trivial
  | call o f ih =>
      obtain ⟨ho, hf⟩ := hp
      cases o with
      | orch o => exact ho.elim
      | syncd o =>
          refine fun t _ hst => ⟨fun ch _ => .aside (asideOnly_exec ho t ch), fun ch _ => ?_⟩
          refine ih _ (hf _) fun a u hu => h a u ?_
          exact (hst.near.trans (asideOnly_exec ho t ch).near).trans hu

section Near

variable {X : Exposure} {s t : World} {n : Nat} {event : CommandEvent}
  {batch : DeviceCommandBatch} {stored : StoredResult}

theorem Pending.near (h : Pending s n event) (hst : Near X s t) : Pending t n event :=
  ⟨by rw [hst.group]; exact h.mem, Gnmi.getElem?_of_prefix hst.commands h.get⟩

theorem CommandRun.near (h : CommandRun s n event batch) (hst : Near X s t) :
    CommandRun t n event batch :=
  ⟨h.pending.near hst, by rw [hst.hash _ rfl]; exact h.unprocessed, h.batch⟩

end Near

/-! ## Members -/

section Members

variable {X : Exposure} {α : Type} {s : World} {n : Nat} {event : CommandEvent}
  {batch : DeviceCommandBatch} {stored : StoredResult}

theorem Applied.mark {k : SyncdKey} {v : SyncdHash k} (h : Applied s n event batch stored)
    (hprocessed : .processedCommand event.id ≠ k) (hresult : .applyResult event.id ≠ k) :
    Applied (s.markSyncd k v) n event batch stored where
  pending := ⟨h.pending.mem, h.pending.get⟩
  unprocessed := by rw [World.markSyncd_hash_of_ne _ _ _ hprocessed]; exact h.unprocessed
  batch := h.batch
  stored := by rw [World.markSyncd_hash_of_ne _ _ _ hresult]; exact h.stored

theorem Applied.publishState {k : SyncdKey} {v : SyncdHash k} {id : String}
    {state : Option ConnectionState} {e : StateEvent} (h : Applied s n event batch stored)
    (hprocessed : .processedCommand event.id ≠ k) (hresult : .applyResult event.id ≠ k) :
    Applied (s.publishState k v id state e) n event batch stored := by
  have hset : Applied (s.setSyncd { s.syncd with
      state := putEntry s.syncd.state id state
      stateEvents := s.syncd.stateEvents ++ [e] }) n event batch stored :=
    ⟨⟨⟨h.pending.mem, h.pending.get⟩, h.unprocessed, h.batch⟩, h.stored⟩
  exact hset.mark hprocessed hresult

/-- The markers of the members only grow. -/
def Marks (command : CommandId) (s t : SyncdState) : Prop :=
  ∀ id (marker : StatePublication), s.hash (.statePublication command id) = some marker →
    t.hash (.statePublication command id) = some marker

theorem recordedDelta_mono {command : CommandId} {s t : SyncdState} (h : Marks command s t)
    {commands : List ConnectionCommand} {total : Int}
    (hs : recordedDelta s command commands = some total) :
    recordedDelta t command commands = some total := by
  induction commands generalizing total with
  | nil => exact hs
  | cons c rest ih =>
      unfold recordedDelta at hs ⊢
      split at hs
      · rename_i marker total' hmarker htotal
        rw [h _ _ hmarker, ih htotal]
        exact hs
      · cases hs

theorem recordedDelta_concat {command : CommandId} {s : SyncdState}
    {commands : List ConnectionCommand} {total : Int} {c : ConnectionCommand}
    {marker : StatePublication} (hs : recordedDelta s command commands = some total)
    (hmarker : s.hash (.statePublication command c.id) = some marker) :
    recordedDelta s command (commands ++ [c]) = some (total + marker.activeDelta) := by
  induction commands generalizing total with
  | nil =>
      cases hs
      simp [recordedDelta, hmarker]
  | cons d rest ih =>
      rw [List.cons_append]
      unfold recordedDelta at hs ⊢
      split at hs
      · rename_i marker' total' hmarker' htotal
        cases hs
        rw [hmarker', ih htotal]
        simp [Int.add_assoc]
      · cases hs

/-- After the marker of a member is written, its delta is read back. -/
theorem safe_markedMember {k : Int → Service α} {c : ConnectionCommand} {t : World}
    {marker : StatePublication}
    (ht : t.syncd.hash (.statePublication event.id c.id) = some marker)
    (hmarks : Marks event.id s.syncd t.syncd) (happlied' : Applied t n event batch stored)
    (hk : ∀ t (marker : StatePublication), Applied t n event batch stored →
      Marks event.id s.syncd t.syncd →
      t.syncd.hash (.statePublication event.id c.id) = some marker →
      SafeAt X (k marker.activeDelta) t) :
    SafeAt X (Syncd.send (.getHash (.statePublication event.id c.id)) >>= fun marker =>
      markedDelta (Option.map StatePublication.activeDelta marker) >>= k) t := by
  refine SafeAt.getHash ?_
  rw [ht]
  exact hk t marker happlied' hmarks ht

theorem marks_markSyncd {c : ConnectionCommand} {marker : StatePublication}
    (hnone : s.syncd.hash (.statePublication event.id c.id) = none) :
    Marks event.id s.syncd (s.markSyncd (.statePublication event.id c.id) marker).syncd :=
  fun _ _ hm => World.markSyncd_hash_of_some _ _ _ hnone hm

theorem marks_publishState {c : ConnectionCommand} {marker : StatePublication}
    {state : Option ConnectionState} {e : StateEvent}
    (hnone : s.syncd.hash (.statePublication event.id c.id) = none) :
    Marks event.id s.syncd
      (s.publishState (.statePublication event.id c.id) marker c.id state e).syncd :=
  fun _ _ hm => World.markSyncd_hash_of_some (World.setSyncd s { s.syncd with
    state := putEntry s.syncd.state c.id state
    stateEvents := s.syncd.stateEvents ++ [e] }) _ _ hnone hm

theorem safe_skipMemberState {k : Int → Service α} {c : ConnectionCommand}
    {marker : StatePublication} (happlied : Applied s n event batch stored)
    (hmem : c ∈ batch.commands)
    (hnone : s.syncd.hash (.statePublication event.id c.id) = none)
    (hstep : memberStep stored.result c s.syncd.state[c.id]? = .skip marker)
    (hk : ∀ t (marker : StatePublication), Applied t n event batch stored →
      Marks event.id s.syncd t.syncd →
      t.syncd.hash (.statePublication event.id c.id) = some marker →
      SafeAt X (k marker.activeDelta) t) :
    SafeAt X (skipMemberState event c marker >>= k) s := by
  refine SafeAt.write true (fun t => t.markSyncd (.statePublication event.id c.id) marker)
    (fun t hst _ => onceSyncd_none (by rw [hst.syncd]; exact hnone))
    (fun t _ hst => ?_) fun t _ hst => ?_
  · exact .skipMember (happlied.frame hst) hmem (by rw [hst.syncd]; exact hnone)
      (by rw [hst.syncd]; exact hstep)
  · refine safe_markedMember (s := t) (World.markSyncd_hash_self _ _ _)
      (marks_markSyncd (by rw [hst.syncd]; exact hnone))
      ((happlied.frame hst).mark (by simp) (by simp)) fun u m hu hmarks hm => ?_
    rw [hst.syncd] at hmarks
    exact hk u m hu hmarks hm

theorem safe_replaceMemberState {k : Int → Service α} {c : ConnectionCommand}
    {before after : Bool} {operation : ConnectionOperation} {state : Option ConnectionState}
    (happlied : Applied s n event batch stored) (hmem : c ∈ batch.commands)
    (hnone : s.syncd.hash (.statePublication event.id c.id) = none)
    (hstep : memberStep stored.result c s.syncd.state[c.id]? =
      .write { activeDelta := activeDelta before after } operation state)
    (hk : ∀ t (marker : StatePublication), Applied t n event batch stored →
      Marks event.id s.syncd t.syncd →
      t.syncd.hash (.statePublication event.id c.id) = some marker →
      SafeAt X (k marker.activeDelta) t) :
    SafeAt X (replaceMemberState event c before after operation state >>= k) s := by
  refine SafeAt.write true (fun t => t.publishState (.statePublication event.id c.id)
      { activeDelta := activeDelta before after } c.id state
      (memberStateEvent event c operation state))
    (fun t hst ch => exec_replaceStateOnce_none (by rw [hst.syncd]; exact hnone) ch)
    (fun t _ hst => ?_) fun t _ hst => ?_
  · exact .writeMember (happlied.frame hst) hmem (by rw [hst.syncd]; exact hnone)
      (by rw [hst.syncd]; exact hstep)
  · have hmarks : Marks event.id t.syncd (t.publishState (.statePublication event.id c.id)
        { activeDelta := activeDelta before after } c.id state
        (memberStateEvent event c operation state)).syncd :=
      marks_publishState (by rw [hst.syncd]; exact hnone)
    rw [hst.syncd] at hmarks
    exact hk _ _ ((happlied.frame hst).publishState (by simp) (by simp)) hmarks
      (World.markSyncd_hash_self _ _ _)

theorem safe_publishMember {k : Int → Service α} {c : ConnectionCommand}
    (happlied : Applied s n event batch stored) (hmem : c ∈ batch.commands)
    (hk : ∀ t (marker : StatePublication), Applied t n event batch stored →
      Marks event.id s.syncd t.syncd →
      t.syncd.hash (.statePublication event.id c.id) = some marker →
      SafeAt X (k marker.activeDelta) t) :
    SafeAt X (publishMember event stored.result c >>= k) s := by
  unfold publishMember
  rw [Prog.bind_assoc']
  refine SafeAt.getHash ?_
  cases hmarker : s.syncd.hash (.statePublication event.id c.id) with
  | some marker => exact hk s marker happlied (fun _ _ h => h) hmarker
  | none =>
      dsimp only
      rw [Prog.bind_assoc']
      refine SafeAt.getState ?_
      have hstep : ∃ step, memberStep stored.result c s.syncd.state[c.id]? = step := ⟨_, rfl⟩
      obtain ⟨step, hstep⟩ := hstep
      have hraw := hstep
      unfold memberStep at hstep
      dsimp only at hstep
      by_cases hsuperseded : isSupersededState c s.syncd.state[c.id]? = true
      · rw [if_pos hsuperseded] at hstep ⊢
        subst hstep
        exact safe_skipMemberState happlied hmem hmarker hraw hk
      · rw [if_neg hsuperseded] at hstep ⊢
        cases hpres : preserveConfirmedPortState c stored.result s.syncd.state[c.id]? with
        | error message => exact SafeAt.raise_bind
        | ok preserved =>
            rw [hpres] at hstep
            cases preserved with
            | true =>
                subst hstep
                exact safe_skipMemberState happlied hmem hmarker hraw hk
            | false =>
                dsimp only at hstep ⊢
                unfold publishMemberState
                dsimp only
                by_cases hok : stored.result.isOk = true
                · rw [if_pos hok] at hstep ⊢
                  cases hop : c.operation with
                  | remove =>
                      rw [hop] at hstep
                      subst hstep
                      exact safe_replaceMemberState happlied hmem hmarker hraw hk
                  | upsert =>
                      rw [hop] at hstep
                      dsimp only at hstep ⊢
                      cases hfind : stored.result.connections.find?
                          (fun item => item.id = c.id) with
                      | none => exact SafeAt.raise_bind
                      | some applied =>
                          rw [hfind] at hstep
                          subst hstep
                          exact safe_replaceMemberState happlied hmem hmarker hraw hk
                · rw [if_neg hok] at hstep ⊢
                  rw [Prog.bind_assoc']
                  refine SafeAt.getState ?_
                  subst hstep
                  exact safe_replaceMemberState happlied hmem hmarker hraw hk

/-- The loop over the members: `done` is what it has been through. -/
theorem safe_publishState {k : Int → Service α} {done rest : List ConnectionCommand} {total : Int}
    (happlied : Applied s n event batch stored) (hbatch : batch.commands = done ++ rest)
    (htotal : recordedDelta s.syncd event.id done = some total)
    (hk : ∀ t total, Applied t n event batch stored →
      recordedDelta t.syncd event.id batch.commands = some total → SafeAt X (k total) t) :
    SafeAt X (publishState event stored.result total rest >>= k) s := by
  induction rest generalizing s done total with
  | nil =>
      rw [List.append_nil] at hbatch
      exact hk s total happlied (by rw [hbatch]; exact htotal)
  | cons c rest ih =>
      unfold publishState
      rw [Prog.bind_assoc']
      refine safe_publishMember happlied (by rw [hbatch]; simp) fun t marker ht hmarks hm => ?_
      have hdone := recordedDelta_concat (recordedDelta_mono hmarks htotal) hm
      exact ih ht (by rw [hbatch]; simp) hdone

end Members

/-! ## Results and completion -/

section Completion

variable {X : Exposure} {α : Type} {s : World} {n : Nat} {event : CommandEvent}
  {batch : DeviceCommandBatch} {stored : StoredResult}

theorem Applied.appendResult {k : SyncdKey} {v : SyncdHash k} {r : ResultEvent}
    (h : Applied s n event batch stored) (hprocessed : .processedCommand event.id ≠ k)
    (hresult : .applyResult event.id ≠ k) :
    Applied ((s.setSyncd { s.syncd with results := s.syncd.results ++ [r] }).markSyncd k v) n event
      batch stored := by
  have hset : Applied (s.setSyncd { s.syncd with results := s.syncd.results ++ [r] }) n event batch
      stored :=
    ⟨⟨⟨h.pending.mem, h.pending.get⟩, h.unprocessed, h.batch⟩, h.stored⟩
  exact hset.mark hprocessed hresult

/-- A decoded batch has members. -/
theorem BatchOf.commands_ne_nil (h : BatchOf event batch) {decoded : DeviceCommandBatch}
    (hdec : decodeDeviceCommand event.payload = .ok decoded) : batch.commands ≠ [] := by
  unfold BatchOf at h
  rw [hdec] at h
  dsimp only at h
  subst h
  unfold decodeDeviceCommand at hdec
  split_ifs at hdec with _ _ hne
  cases hdec
  simpa [withOperation] using hne

/-- The loop that publishes the results of the members. -/
theorem safe_publishMemberResults {k : Unit → Service α} {rest : List ConnectionCommand}
    (happlied : Applied s n event batch stored) (hsub : ∀ c ∈ rest, c ∈ batch.commands)
    (hcounters : (s.syncd.hash (.countersPublication event.id)).isSome)
    (hdone : ∀ c ∈ batch.commands, c ∉ rest →
      (s.syncd.hash (.resultPublication event.id c.id)).isSome)
    (hk : ∀ t, Applied t n event batch stored →
      (t.syncd.hash (.countersPublication event.id)).isSome →
      (∀ c ∈ batch.commands, (t.syncd.hash (.resultPublication event.id c.id)).isSome) →
      SafeAt X (k ()) t) :
    SafeAt X (publishMemberResults event stored.result rest >>= k) s := by
  induction rest generalizing s with
  | nil => exact hk s happlied hcounters fun c hc => hdone c hc (by simp)
  | cons c rest ih =>
      unfold publishMemberResults
      rw [Prog.bind_assoc']
      refine SafeAt.getHash ?_
      rw [Prog.bind_assoc']
      have hmem : c ∈ batch.commands := hsub c (by simp)
      cases hm : s.syncd.hash (.resultPublication event.id c.id) with
      | some marker =>
          refine SafeAt.skip false (fun t hst _ => ?_) ?_
          · exact exec_appendResultOnce_some (by rw [hst.syncd, hm]; rfl) _
          · refine ih happlied (fun d hd => hsub d (by simp [hd])) hcounters fun d hd hnot => ?_
            by_cases hdc : d = c
            · rw [hdc, hm]; rfl
            · exact hdone d hd (by simp [hdc, hnot])
      | none =>
          refine SafeAt.write true (fun t => (t.setSyncd { t.syncd with
              results := t.syncd.results ++ [memberResultEvent t.syncd event stored c] }).markSyncd
                (.resultPublication event.id c.id) ())
            (fun t hst ch => ?_) (fun t _ hst => ?_) fun t _ hst => ?_
          · rw [exec_appendResultOnce_none (by rw [hst.syncd]; exact hm), memberResultEvent, hst.syncd]
          · have hact := Action.result (X := X) (happlied.frame hst) hmem
              (by rw [hst.syncd]; exact hcounters) (by rw [hst.syncd]; exact hm)
            rw [memberResultEvent, hst.syncd] at hact ⊢
            exact hact
          · refine ih ((happlied.frame hst).appendResult (by simp) (by simp))
              (fun d hd => hsub d (by simp [hd])) ?_ fun d hd hnot => ?_
            · rw [World.markSyncd_hash_of_ne _ _ _ (by simp)]
              change (t.syncd.hash _).isSome
              rw [hst.syncd]
              exact hcounters
            · by_cases hdc : d.id = c.id
              · rw [hdc, World.markSyncd_hash_self]; rfl
              · rw [World.markSyncd_hash_of_ne _ _ _ (by simp [hdc])]
                change (t.syncd.hash _).isSome
                rw [hst.syncd]
                exact hdone d hd (by
                  simp only [List.mem_cons, not_or]
                  exact ⟨fun h => hdc (by rw [h]), hnot⟩)

theorem safe_publishResult {k : Unit → Service α} (happlied : Applied s n event batch stored)
    (hcounters : (s.syncd.hash (.countersPublication event.id)).isSome)
    (hk : ∀ t, Applied t n event batch stored →
      (t.syncd.hash (.countersPublication event.id)).isSome →
      (∀ c ∈ batch.commands, (t.syncd.hash (.resultPublication event.id c.id)).isSome) →
      SafeAt X (k ()) t) :
    SafeAt X (publishResult event batch stored.result >>= k) s := by
  unfold publishResult
  split_ifs with hempty
  · rw [Prog.bind_assoc']
    have herror : ∃ message, decodeDeviceCommand event.payload = .error message := by
      cases hdec : decodeDeviceCommand event.payload with
      | error message => exact ⟨message, rfl⟩
      | ok decoded => exact absurd hempty (happlied.batch.commands_ne_nil hdec)
    obtain ⟨message, herror⟩ := herror
    have hnone : ∀ c ∈ batch.commands, False := by
      rw [hempty]
      simp
    cases hm : s.syncd.hash (.resultPublication event.id event.resourceId) with
    | some marker =>
        refine SafeAt.skip false (fun t hst _ => ?_) ?_
        · exact exec_appendResultOnce_some (by rw [hst.syncd, hm]; rfl) _
        · exact hk s happlied hcounters fun c hc => (hnone c hc).elim
    | none =>
        refine SafeAt.write true (fun t => (t.setSyncd { t.syncd with
            results := t.syncd.results ++ [resultEvent event none event.resourceId
              event.desiredVersion stored.result] }).markSyncd
                (.resultPublication event.id event.resourceId) ())
          (fun t hst ch => exec_appendResultOnce_none (by rw [hst.syncd]; exact hm) ch)
          (fun t _ hst => ?_) fun t _ hst => ?_
        · exact .malformedResult (happlied.pending.frame hst) herror
            (by rw [hst.syncd]; exact hm) rfl
        · refine hk _ ((happlied.frame hst).appendResult (by simp) (by simp)) ?_
            fun c hc => (hnone c hc).elim
          rw [World.markSyncd_hash_of_ne _ _ _ (by simp)]
          change (t.syncd.hash _).isSome
          rw [hst.syncd]
          exact hcounters
  · exact safe_publishMemberResults happlied (fun _ h => h) hcounters
      (fun c hc hnot => absurd hc hnot) hk

/-- The loop over the versions, as it comes out. -/
theorem safe_versionEntries {k : List SyncdEntry → Service α} {entries : List SyncdEntry}
    {commands : List ConnectionCommand}
    (h : SafeAt X (k (entries ++ versionsOf s.syncd commands)) s) :
    SafeAt X (versionEntries s.syncd.deviceGeneration entries commands >>= k) s := by
  induction commands generalizing entries with
  | nil => simpa [versionsOf, versionEntries] using h
  | cons c rest ih =>
      unfold versionEntries
      rw [Prog.bind_assoc']
      refine SafeAt.getHash ?_
      unfold versionsOf at h
      by_cases hsup : supersededBy s.syncd.deviceGeneration c
          (s.syncd.hash (.connectionVersion c.id)) = true
      · rw [List.filterMap_cons_none (by rw [if_pos hsup])] at h
        rw [if_pos hsup]
        exact ih h
      · rw [List.filterMap_cons_some (by rw [if_neg hsup])] at h
        rw [if_neg hsup]
        refine ih ?_
        rw [List.append_assoc]
        exact h

theorem calm_loadPortFaults (faults : List ((PortDirection × Nat) × PortFault))
    (keys : List (PortDirection × Nat)) : Calm (loadPortFaults faults keys) := by
  induction keys generalizing faults with
  | nil => trivial
  | cons key rest ih =>
      refine Calm.send trivial fun fault => ?_
      cases fault with
      | none => exact ih _
      | some fault => exact ih _

theorem calm_portFaults : Calm portFaults :=
  Calm.send trivial fun keys => calm_loadPortFaults [] keys

theorem safe_markReconciliation {k : List SyncdEntry → Service α} {applied : Bool}
    (hk : ∀ t repairs, Near X s t → (∀ entry ∈ repairs, isRepairKey entry.1 = true) →
      SafeAt X (k repairs) t) :
    SafeAt X (markReconciliation event applied >>= k) s := by
  unfold markReconciliation
  by_cases hrec : (!event.id.isReconciliation) = true
  · rw [if_pos hrec]
    exact hk s [] (Frame.refl s).near (by simp)
  · rw [if_neg hrec, Prog.bind_assoc']
    refine SafeAt.getHash ?_
    cases applied with
    | false => exact hk s _ (Frame.refl s).near (repair_controlEntry _ _ _)
    | true =>
        rw [if_pos rfl, Prog.bind_assoc']
        refine SafeAt.calm (p := Syncd.send _) ⟨⟨rfl, rfl⟩, fun _ => trivial⟩ fun _ t ht => ?_
        rw [Prog.bind_assoc']
        refine SafeAt.calm calm_portFaults fun faults u hu => ?_
        refine hk u _ (ht.trans hu) fun entry hentry => ?_
        rcases List.mem_append.mp hentry with h | h
        · exact repair_controlEntry _ _ _ entry h
        · exact repair_recoveredFaults _ _ entry h

theorem versionsOf_congr {s t : SyncdState} (hgen : t.deviceGeneration = s.deviceGeneration)
    (hhash : ∀ id, t.hash (.connectionVersion id) = s.hash (.connectionVersion id))
    (commands : List ConnectionCommand) : versionsOf t commands = versionsOf s commands := by
  simp only [versionsOf, hgen, hhash]

/-- The entries behind the first one of a completion leave the commands alone. -/
theorem completion_keys {w : SyncdState} {commands : List ConnectionCommand} {applied : Bool}
    {repairs : List SyncdEntry} (hrepairs : ∀ entry ∈ repairs, isRepairKey entry.1 = true) :
    ∀ entry ∈ (if applied then versionsOf w commands else []) ++ repairs,
      isRepairKey entry.1 = true ∨ ∃ id, entry.1 = .connectionVersion id := by
  intro entry hentry
  rcases List.mem_append.mp hentry with h | h
  · refine .inr ?_
    split_ifs at h
    · obtain ⟨c, -, hc⟩ := List.mem_filterMap.mp h
      split_ifs at hc
      cases hc
      exact ⟨c.id, rfl⟩
    · cases h
  · exact .inl (hrepairs entry h)

theorem safe_markProcessed {k : Unit → Service α} {applied : Bool}
    (hrun : CommandRun s n event batch)
    (hdone : ∀ t, Near X s t → Completed t event batch applied)
    (hk : ∀ t, Pending t n event → (t.syncd.hash (.processedCommand event.id)).isSome →
      SafeAt X (k ()) t) :
    SafeAt X (markProcessed event batch applied >>= k) s := by
  unfold markProcessed
  rw [Prog.bind_assoc']
  refine SafeAt.readMemory ?_
  rw [Prog.bind_assoc']
  have hrest : SafeAt X ((markReconciliation event applied >>= fun reconciliation =>
      Syncd.send (.putHashesAtomically (⟨.processedCommand event.id, applied⟩ ::
        (if applied then versionsOf s.syncd batch.commands else []) ++ reconciliation))) >>= k)
      s := by
    rw [Prog.bind_assoc']
    refine safe_markReconciliation fun t repairs ht hrepairs => ?_
    have hversions : ∀ u, Frame X t u →
        versionsOf u.syncd batch.commands = versionsOf s.syncd batch.commands := by
      intro u hu
      refine versionsOf_congr ?_ (fun id => ?_) _
      · rw [hu.syncd]; exact ht.deviceGeneration
      · rw [hu.syncd]; exact ht.hash _ rfl
    refine SafeAt.write () (fun u => u.putEntries (⟨.processedCommand event.id, applied⟩ ::
        (if applied then versionsOf s.syncd batch.commands else []) ++ repairs))
      (fun _ _ _ => rfl) (fun u _ hu => ?_) fun u _ hu => ?_
    · have hact := Action.processed (X := X) ((hrun.near ht).frame hu)
        (hdone u (ht.trans hu.near)) hrepairs
      rw [hversions u hu] at hact
      exact hact
    · have hpending := (hrun.pending.near ht).frame hu
      refine hk _ ⟨?_, hpending.get⟩ ?_
      · have hgroup : (u.putEntries (⟨.processedCommand event.id, applied⟩ ::
            (if applied then versionsOf s.syncd batch.commands else []) ++ repairs)).syncd.group =
              u.syncd.group := by
          have hfold : ∀ (entries : List SyncdEntry) (w : World),
              (w.putEntries entries).syncd.group = w.syncd.group := by
            intro entries
            induction entries with
            | nil => intro w; rfl
            | cons e es ih => intro w; rw [putEntries_cons, ih]; rfl
          exact hfold _ u
        rw [hgroup]
        exact hpending.mem
      · rw [List.cons_append, putEntries_cons, putEntries_hash_of_notMem]
        · rw [World.markSyncd_hash_self]; rfl
        · intro entry hentry
          rcases completion_keys hrepairs entry hentry with h | ⟨id, h⟩
          · intro heq
            rw [heq] at h
            cases h
          · rw [h]
            simp
  unfold appliedVersions
  cases applied with
  | true => exact safe_versionEntries (α := α) hrest
  | false => exact hrest

theorem safe_finishCommand (happlied : Applied s n event batch stored) :
    SafeAt X (finishCommand n event batch stored) s := by
  unfold finishCommand
  have hstart : batch.commands = [] ++ batch.commands := rfl
  refine safe_publishState happlied hstart rfl fun t total ht htotal => ?_
  have hrest : ∀ u, Applied u n event batch stored →
      (u.syncd.hash (.countersPublication event.id)).isSome →
      SafeAt X (publishResult event batch stored.result >>= fun _ =>
        markProcessed event batch stored.result.isOk >>= fun _ => acknowledge n) u := by
    intro u hu hcounters
    refine safe_publishResult hu hcounters fun v hv hvc hvr => ?_
    refine safe_markProcessed hv.toCommandRun (fun x hx => ?_) fun x hx hdone =>
      safe_acknowledge hx hdone
    refine .applied (by rw [hx.hash _ rfl]; exact hv.stored) (by rw [hx.hash _ rfl]; exact hvc)
      fun c hc => ?_
    rw [hx.hash _ rfl]
    exact hvr c hc
  cases hm : t.syncd.hash (.countersPublication event.id) with
  | some marker =>
      refine SafeAt.skip false (fun u hu _ => ?_) (hrest t ht (by rw [hm]; rfl))
      simp only [SyncdOp.exec]
      exact onceSyncd_some (by rw [hu.syncd, hm]; rfl)
  | none =>
      refine SafeAt.write true (fun u => { u with
          counters := u.counters ++ [applyCounters event stored total] }.markSyncd
            (.countersPublication event.id) ())
        (fun u hu _ => ?_) (fun u _ hu => ?_) fun u _ hu => ?_
      · simp only [SyncdOp.exec]
        rw [onceSyncd_none (by rw [hu.syncd]; exact hm)]
        rfl
      · exact .counters (ht.frame hu) (by rw [hu.syncd]; exact htotal) (by rw [hu.syncd]; exact hm)
      · refine hrest _ ?_ (by rw [World.markSyncd_hash_self]; rfl)
        have hu' := ht.frame hu
        have hset : Applied { u with
            counters := u.counters ++ [applyCounters event stored total] } n event batch stored :=
          ⟨⟨⟨hu'.pending.mem, hu'.pending.get⟩, hu'.unprocessed, hu'.batch⟩, hu'.stored⟩
        exact hset.mark (by simp) (by simp)

end Completion

/-! ## Applying -/

theorem lookup_finish {d : SimulatedOcsDevice CommandId} {options : ApplyOptions CommandId}
    {c : CommandId} (hop : options.operationId = some c) (result : ApplyResult) :
    (d.finish options result).1 = result ∧
      (d.finish options result).2.applyResults.lookup c = some result := by
  unfold SimulatedOcsDevice.finish
  rw [hop]
  refine ⟨rfl, ?_⟩
  dsimp only
  rw [List.lookup_append, List.lookup_eq_none_iff.mpr]
  · simp
  · intro entry hentry
    have hne : entry.1 ≠ c := by simpa using (List.mem_filter.mp hentry).2
    simp [hne.symm]

/-- The device remembers what it replied. -/
theorem lookup_applyConnections {d d' : SimulatedOcsDevice CommandId}
    {commands : List ConnectionCommand} {options : ApplyOptions CommandId} {c : CommandId}
    {result : ApplyResult} (hop : options.operationId = some c)
    (h : d.applyConnections commands options = .ok (result, d')) :
    d'.applyResults.lookup c = some result := by
  have hfinish : ∀ (e : SimulatedOcsDevice CommandId) r,
      (Except.ok (e.finish options r) : Except Abort _) = .ok (result, d') →
        d'.applyResults.lookup c = some result := by
    intro e r he
    obtain ⟨hr, hl⟩ := lookup_finish (d := e) hop r
    cases he' : e.finish options r with
    | mk r' e' =>
        rw [he'] at hr hl he
        cases he
        dsimp only at hr hl
        rw [hr]
        exact hl
  unfold SimulatedOcsDevice.applyConnections at h
  split at h
  · rename_i cached hcached
    cases h
    simpa [SimulatedOcsDevice.cachedResult, hop] using hcached
  · split_ifs at h
    · exact hfinish _ _ h
    · unfold SimulatedOcsDevice.applyBatch at h
      split at h
      · cases h
      · exact hfinish _ _ h
      · split_ifs at h
        · exact hfinish _ _ h
        · exact hfinish _ _ h
        · exact hfinish _ _ h

section Applying

variable {X : Exposure} {α : Type} {s : World} {n : Nat} {event : CommandEvent}
  {batch : DeviceCommandBatch}

/-- What is known of a command between its attempt and its result. -/
structure Attempted (w : World) (n : Nat) (event : CommandEvent) (batch : DeviceCommandBatch) :
    Prop extends Unapplied w n event batch where
  attempted : (w.syncd.hash (.applyAttempt event.id)).isSome

theorem Attempted.frame {t : World} (h : Attempted s n event batch) (hst : Frame X s t) :
    Attempted t n event batch :=
  ⟨h.toUnapplied.frame hst, by rw [hst.syncd]; exact h.attempted⟩

theorem BatchOf.operationId (h : BatchOf event batch) {decoded : DeviceCommandBatch}
    (hdec : decodeDeviceCommand event.payload = .ok decoded) :
    batch.options.operationId = some event.id := by
  unfold BatchOf at h
  rw [hdec] at h
  dsimp only at h
  rw [h]
  rfl

/-- A result that the device may have given. -/
def Obtainable (X : Exposure) (w : World) (event : CommandEvent) (batch : DeviceCommandBatch)
    (result : ApplyResult) : Prop :=
  ∃ d, X.moves d w.hwsim ∧ Obtained X d event batch result

theorem Obtainable.frame {t : World} {result : ApplyResult}
    (h : Obtainable X s event batch result) (hst : Frame X s t) :
    Obtainable X t event batch result := by
  obtain ⟨d, hd, hob⟩ := h
  exact ⟨d, X.trans hd hst.device, hob⟩

theorem confirmedConnections_concat (d : SimulatedOcsDevice CommandId)
    (commands : List ConnectionCommand) (c : ConnectionCommand) :
    confirmedConnections d (commands ++ [c]) = confirmedConnections d commands ++
      (match c.operation with
        | .upsert => (found d c.id).toList
        | .remove => []) := by
  unfold confirmedConnections
  rw [List.filterMap_append]
  congr 1
  cases hop : c.operation with
  | remove => simp [hop]
  | upsert => cases hf : found d c.id <;> simp [hop, hf]

/-- The loop that looks for the members on the device: `done` is what it has found. -/
theorem safe_confirmMembers {k : Option (List AppliedConnection) → Service α}
    {d : SimulatedOcsDevice CommandId} {done rest : List ConnectionCommand}
    (hdone : ∀ c ∈ done, intentMatches c (found d c.id) = true)
    (hnone : ∀ t, Frame X s t → SafeAt X (k none) t)
    (hsome : ∀ t, Frame X s t →
      (∀ c ∈ done ++ rest, intentMatches c (found d c.id) = true) →
      SafeAt X (k (some (confirmedConnections d (done ++ rest)))) t) :
    SafeAt X (confirmMembers d.getConnections (confirmedConnections d done) rest >>= k) s := by
  induction rest generalizing s done with
  | nil =>
      rw [List.append_nil] at hsome
      exact hsome s (Frame.refl s) hdone
  | cons c rest ih =>
      have hnext : ∀ t, Frame X s t → intentMatches c (found d c.id) = true →
          SafeAt X (confirmMembers d.getConnections (confirmedConnections d (done ++ [c])) rest
            >>= k) t := by
        intro t hst hc
        refine ih (fun e he => ?_) (fun u hu => hnone u (hst.trans hu)) fun u hu hall => ?_
        · rcases List.mem_append.mp he with he | he
          · exact hdone e he
          · rw [List.mem_singleton.mp he]
            exact hc
        · rw [List.append_assoc, List.singleton_append] at hall ⊢
          exact hsome u (hst.trans hu) hall
      unfold confirmMembers
      dsimp only
      rw [confirmedConnections_concat] at hnext
      cases hop : c.operation with
      | remove =>
          rw [hop] at hnext
          cases hf : found d c.id with
          | some x =>
              simp only [found] at hf
              rw [hf]
              exact hnone s (Frame.refl s)
          | none =>
              have hmatch := hnext s (Frame.refl s) (by simp [hf, intentMatches, hop])
              simp only [found] at hf
              rw [hf]
              simpa using hmatch
      | upsert =>
          rw [hop] at hnext
          cases hf : found d c.id with
          | none =>
              simp only [found] at hf
              rw [hf]
              exact hnone s (Frame.refl s)
          | some x =>
              rw [hf] at hnext
              simp only [found] at hf
              rw [hf]
              dsimp only
              by_cases happ : applies c x = true
              · rw [happ, Bool.not_true, if_neg (by simp), Prog.bind_assoc']
                refine SafeAt.send (fun t _ _ ch _ => .idle) fun t _ hst ch _ => ?_
                split
                · exact hnone _ hst
                · rw [Prog.bind_assoc']
                  refine SafeAt.send (fun t _ _ ch _ => .idle) fun u _ hu ch _ => ?_
                  split
                  · exact hnone _ (hst.trans hu)
                  · split_ifs
                    · exact hnone _ (hst.trans hu)
                    · exact hnext _ (hst.trans hu) (by simpa [intentMatches, hop] using happ)
              · rw [Bool.not_eq_true] at happ
                rw [happ, Bool.not_false, if_pos rfl]
                exact hnone s (Frame.refl s)

theorem safe_confirmAppliedResult {k : ApplyResult → Service α} {result : ApplyResult}
    (hob : Obtainable X s event batch result)
    (hk : ∀ t result, Frame X s t → Obtainable X t event batch result →
      SafeAt X (k result) t) :
    SafeAt X (confirmAppliedResult batch result >>= k) s := by
  unfold confirmAppliedResult
  split_ifs
  · exact hk s result (Frame.refl s) hob
  · rw [Prog.bind_assoc']
    refine SafeAt.send (fun t _ _ ch _ => .idle) fun t _ hst ch _ => ?_
    simp only [SyncdOp.exec, MiniOcs.readDevice]
    split_ifs
    · dsimp only
      rw [Prog.bind_assoc']
      have hstart : ∀ c ∈ ([] : List ConnectionCommand),
          intentMatches c (found t.hwsim c.id) = true := by simp
      refine safe_confirmMembers hstart (fun u hu => ?_) fun u hu hall => ?_
      · exact hk u result (hst.trans hu) ((hob.frame hst).frame hu)
      · exact hk u _ (hst.trans hu) ⟨t.hwsim, hu.device, .confirmed hall rfl⟩
    · exact hk t result hst (hob.frame hst)

theorem safe_confirmAttempt {k : ApplyResult → Service α} {result : ApplyResult}
    (hob : Obtainable X s event batch result)
    (hk : ∀ t result, Frame X s t → Obtainable X t event batch result →
      SafeAt X (k result) t) :
    SafeAt X (confirmAttempt batch result >>= k) s := by
  unfold confirmAttempt
  split_ifs
  · exact hk s result (Frame.refl s) hob
  · exact safe_confirmAppliedResult hob hk

theorem refused_isOk {code : ErrorCode} {message : String} (h : code ≠ .ok) :
    (refused code message).isOk = false := by
  simp [refused, ApplyResult.isOk, Error.isOk, h]

/-- Whatever the link makes of an apply request, its result was obtained from the device. -/
theorem obtained_applyOverLink {d : SimulatedOcsDevice CommandId} {choice : Nat}
    (hop : batch.options.operationId = some event.id) (hch : X.lossy ∨ choice = 0) :
    Obtained X (applyOverLink choice d batch.commands batch.options).2 event batch
      (appliedResult (applyOverLink choice d batch.commands batch.options).1) := by
  unfold applyOverLink
  cases happ : d.applyConnections batch.commands batch.options with
  | error a => exact .aborted (X.refl _) happ (refused_isOk (by simp))
  | ok reply =>
      obtain ⟨result, d'⟩ := reply
      dsimp only
      rcases hch with hl | rfl
      · split
        · exact .reply (lookup_applyConnections hop happ)
        all_goals exact .lost hl rfl
      · exact .reply (lookup_applyConnections hop happ)

theorem Attempted.remember {name : String} {generation : Nat} (h : Attempted s n event batch) :
    Attempted (s.setSyncd { s.syncd with
      deviceName := name
      deviceGeneration := generation }) n event batch :=
  ⟨⟨⟨⟨h.pending.mem, h.pending.get⟩, h.unprocessed, h.batch⟩, h.decoded, h.unstored⟩, h.attempted⟩

theorem Attempted.apply {d : SimulatedOcsDevice CommandId} (h : Attempted s n event batch) :
    Attempted { s with hwsim := d } n event batch :=
  ⟨⟨⟨⟨h.pending.mem, h.pending.get⟩, h.unprocessed, h.batch⟩, h.decoded, h.unstored⟩, h.attempted⟩

theorem safe_applyCommand {k : ApplyResult → Service α} (hrun : Attempted s n event batch)
    (hname : s.syncd.deviceName ≠ "")
    (hk : ∀ t result, Attempted t n event batch → Obtainable X t event batch result →
      SafeAt X (k result) t) :
    SafeAt X (applyCommand event batch >>= k) s := by
  obtain ⟨decoded, hdec⟩ := hrun.decoded
  have hop := hrun.batch.operationId hdec
  unfold applyCommand
  rw [Prog.bind_assoc']
  refine SafeAt.send (fun t _ _ ch _ => .idle) fun t _ hst ch hch => ?_
  simp only [SyncdOp.exec, MiniOcs.readDevice]
  split_ifs with hzero
  · dsimp only
    rw [Prog.bind_assoc']
    refine SafeAt.write () (fun u => u.setSyncd { u.syncd with
        deviceName := t.hwsim.info.name
        deviceGeneration := t.hwsim.info.generation }) (fun _ _ _ => rfl)
      (fun u _ hu => .remember hu.device rfl rfl (.inl (by rw [hu.syncd, hst.syncd]; exact hname)))
      fun u _ hu => ?_
    have hrun' : Attempted (u.setSyncd { u.syncd with
        deviceName := t.hwsim.info.name
        deviceGeneration := t.hwsim.info.generation }) n event batch :=
      ((hrun.frame hst).frame hu).remember
    split_ifs with hforeign
    · exact hk _ _ hrun' ⟨t.hwsim, hu.device, .foreign hforeign (refused_isOk (by simp))⟩
    · rw [Prog.bind_assoc']
      refine SafeAt.send (fun v _ hv ch hch => .apply (hrun'.frame hv).toUnapplied
        (hrun'.frame hv).attempted (hch rfl)) fun v _ hv ch hch => ?_
      have hafter := (hrun'.frame hv).apply
        (d := (applyOverLink ch v.hwsim batch.commands batch.options).2)
      have hob : Obtainable X { v with
          hwsim := (applyOverLink ch v.hwsim batch.commands batch.options).2 } event batch
          (appliedResult (applyOverLink ch v.hwsim batch.commands batch.options).1) :=
        ⟨_, X.refl _, obtained_applyOverLink hop (hch rfl)⟩
      exact safe_confirmAttempt hob fun x result hx hobx => hk x result (hafter.frame hx) hobx
  · exact hk t _ (hrun.frame hst)
      ⟨t.hwsim, X.refl _, .lost ((hch rfl).resolve_right hzero) (refused_isOk (by simp))⟩

theorem Attempted.store {result : StoredResult} (h : Attempted s n event batch) :
    Applied (s.markSyncd (.applyResult event.id) result) n event batch result where
  pending := ⟨h.pending.mem, h.pending.get⟩
  unprocessed := by rw [World.markSyncd_hash_of_ne _ _ _ (by simp)]; exact h.unprocessed
  batch := h.batch
  stored := World.markSyncd_hash_self _ _ _

end Applying

/-! ## Commands -/

section Commands

variable {X : Exposure} {α : Type} {s : World} {n : Nat} {event : CommandEvent}
  {batch : DeviceCommandBatch}

theorem safe_storeResult {result : ApplyResult} (hrun : Attempted s n event batch)
    (hob : Obtainable X s event batch result) (latencyMs : Nat) :
    SafeAt X (Syncd.send (.putHash (.applyResult event.id) ⟨result, latencyMs⟩) >>= fun _ =>
      Syncd.send (.getHash (.applyResult event.id)) >>= fun stored =>
        finishStored n event batch stored) s := by
  refine SafeAt.write () (fun t => t.markSyncd (.applyResult event.id) ⟨result, latencyMs⟩)
    (fun _ _ _ => rfl) (fun t _ hst => ?_) fun t _ hst => ?_
  · obtain ⟨d, hd, hobt⟩ := hob.frame hst
    exact .store (hrun.frame hst).toUnapplied (hrun.frame hst).attempted hd hobt
  · refine SafeAt.getHash ?_
    rw [World.markSyncd_hash_self]
    exact safe_finishCommand (hrun.frame hst).store

theorem safe_attemptCommand (hrun : Unapplied s n event batch) (hname : s.syncd.deviceName ≠ "")
    (hstale : (s.syncd.hash (.applyAttempt event.id)).isSome ∨ ¬Stale s event batch) :
    SafeAt X (attemptCommand n event batch) s := by
  have hrest : ∀ t, Attempted t n event batch → t.syncd.deviceName ≠ "" →
      SafeAt X (applyCommand event batch >>= fun result => Syncd.send .now >>= fun latencyMs =>
        Syncd.send (.putHash (.applyResult event.id) ⟨result, latencyMs⟩) >>= fun _ =>
          Syncd.send (.getHash (.applyResult event.id)) >>= fun stored =>
            finishStored n event batch stored) t := by
    intro t ht hnamet
    refine safe_applyCommand ht hnamet fun u result hu hob => ?_
    refine SafeAt.now fun latencyMs => ?_
    exact safe_storeResult hu hob latencyMs
  unfold attemptCommand
  cases hm : s.syncd.hash (.applyAttempt event.id) with
  | some attempt =>
      refine SafeAt.skip false (fun t hst _ => ?_) (hrest s ⟨hrun, by rw [hm]; rfl⟩ hname)
      simp only [SyncdOp.exec]
      exact onceSyncd_some (by rw [hst.syncd, hm]; rfl)
  | none =>
      have hfresh : ¬Stale s event batch := hstale.resolve_left (by rw [hm]; simp)
      refine SafeAt.write true (fun t => t.markSyncd (.applyAttempt event.id) batch)
        (fun t hst _ => ?_) (fun t _ hst => ?_) fun t _ hst => ?_
      · simp only [SyncdOp.exec]
        rw [onceSyncd_none (by rw [hst.syncd]; exact hm)]
        rfl
      · refine .attempt (hrun.frame hst) (by rw [hst.syncd]; exact hm) fun hs => hfresh ?_
        obtain ⟨hrec, hrecon, hall⟩ := hs
        rw [hst.syncd] at hall
        exact ⟨hrec, hrecon, hall⟩
      · have ht := hrun.frame hst
        refine hrest _ ⟨⟨⟨⟨ht.pending.mem, ht.pending.get⟩, ?_, ht.batch⟩, ht.decoded, ?_⟩, ?_⟩ ?_
        · rw [World.markSyncd_hash_of_ne _ _ _ (by simp)]
          exact ht.unprocessed
        · rw [World.markSyncd_hash_of_ne _ _ _ (by simp)]
          exact ht.unstored
        · rw [World.markSyncd_hash_self]
          rfl
        · rw [World.markSyncd_deviceName, hst.syncd]
          exact hname

theorem safe_allSuperseded {k : Bool → Service α} {commands : List ConnectionCommand}
    (h : ∀ b, (b = true ↔ ∀ c ∈ commands, supersededBy s.syncd.deviceGeneration c
      (s.syncd.hash (.connectionVersion c.id)) = true) → SafeAt X (k b) s) :
    SafeAt X (allSuperseded s.syncd.deviceGeneration commands >>= k) s := by
  induction commands with
  | nil => exact h true (by simp)
  | cons c rest ih =>
      unfold allSuperseded
      rw [Prog.bind_assoc']
      refine SafeAt.getHash ?_
      by_cases hc : supersededBy s.syncd.deviceGeneration c
          (s.syncd.hash (.connectionVersion c.id)) = true
      · rw [if_pos hc]
        exact ih fun b hb => h b (by rw [hb]; simp [hc])
      · rw [if_neg hc]
        exact h false (by simp [hc])

theorem safe_isStaleVersion {k : Bool → Service α}
    (h : ∀ b, (b = true ↔ Stale s event batch) → SafeAt X (k b) s) :
    SafeAt X (isStaleVersion event batch >>= k) s := by
  unfold isStaleVersion
  split_ifs with hrepair
  · refine h false ⟨fun hf => absurd hf (by simp), fun hs => ?_⟩
    rcases hrepair with hr | hr
    · rw [hs.1] at hr
      cases hr
    · rw [hs.2.1] at hr
      cases hr
  · rw [Prog.bind_assoc']
    refine SafeAt.readMemory ?_
    simp only [not_or, Bool.not_eq_true] at hrepair
    refine safe_allSuperseded fun b hb => h b ?_
    rw [hb]
    exact ⟨fun hall => ⟨hrepair.1, hrepair.2, hall⟩, fun hs => hs.2.2⟩

theorem safe_startCommand (hrun : CommandRun s n event batch)
    (hdec : (s.syncd.hash (.applyResult event.id)).isSome ∨
      ∃ decoded, decodeDeviceCommand event.payload = .ok decoded)
    (hname : s.syncd.deviceName ≠ "") : SafeAt X (startCommand n event batch) s := by
  unfold startCommand
  refine SafeAt.getHash ?_
  cases hstored : s.syncd.hash (.applyResult event.id) with
  | some stored => exact safe_finishCommand ⟨hrun, hstored⟩
  | none =>
      have hun : Unapplied s n event batch :=
        ⟨hrun, hdec.resolve_left (by rw [hstored]; simp), hstored⟩
      refine SafeAt.getHash ?_
      cases hattempt : s.syncd.hash (.applyAttempt event.id) with
      | some attempt => exact safe_attemptCommand hun hname (.inl (by rw [hattempt]; rfl))
      | none =>
          refine safe_isStaleVersion fun b hb => ?_
          split_ifs with hstale
          · refine safe_markProcessed hrun (fun t ht => ?_) fun t ht hdone =>
              safe_acknowledge ht hdone
            obtain ⟨hrec, hrecon, hall⟩ := hb.mp hstale
            refine .stale (by rw [ht.hash _ rfl]; exact hstored)
              (by rw [ht.hash _ rfl]; exact hattempt) ⟨hrec, hrecon, fun c hc => ?_⟩
            rw [ht.deviceGeneration, ht.hash _ rfl]
            exact hall c hc
          · exact safe_attemptCommand hun hname (.inr fun hs => hstale (hb.mpr hs))

theorem safe_malformedCommand {message : String} (hp : Pending s n event)
    (hprocessed : s.syncd.hash (.processedCommand event.id) = none)
    (herror : decodeDeviceCommand event.payload = .error message)
    (hname : s.syncd.deviceName ≠ "") : SafeAt X (malformedCommand n event message) s := by
  have hbatch : ∀ batch, BatchOf event batch := by
    intro batch
    unfold BatchOf
    rw [herror]
    trivial
  have hstore : ∀ t batch, Frame X s t →
      SafeAt X (Syncd.send (.putHash (.applyResult event.id)
        ⟨refused .protocolMalformed message, 0⟩) >>= fun _ => startCommand n event batch) t := by
    intro t batch hst
    refine SafeAt.write () (fun u => u.markSyncd (.applyResult event.id)
        ⟨refused .protocolMalformed message, 0⟩) (fun _ _ _ => rfl) (fun u _ hu => ?_)
      fun u _ hu => ?_
    · exact .malformed (hp.frame (hst.trans hu)) (by rw [(hst.trans hu).syncd]; exact hprocessed)
        herror
    · have hpu := hp.frame (hst.trans hu)
      refine safe_startCommand ⟨⟨hpu.mem, hpu.get⟩, ?_, hbatch batch⟩ (.inl ?_) ?_
      · rw [World.markSyncd_hash_of_ne _ _ _ (by simp), (hst.trans hu).syncd]
        exact hprocessed
      · rw [World.markSyncd_hash_self]
        rfl
      · rw [World.markSyncd_deviceName, (hst.trans hu).syncd]
        exact hname
  unfold malformedCommand recoverPreparedBatch
  rw [Prog.bind_assoc']
  refine SafeAt.send (fun t _ _ ch _ => .idle) fun t _ hst ch _ => ?_
  split
  · exact hstore _ _ hst
  · split
    · exact hstore _ _ hst
    · exact hstore _ _ hst

theorem safe_handleCommand (hp : Pending s n event) (hname : s.syncd.deviceName ≠ "") :
    SafeAt X (handleCommand n event) s := by
  unfold handleCommand
  refine SafeAt.getHash ?_
  cases hprocessed : s.syncd.hash (.processedCommand event.id) with
  | some applied => exact safe_acknowledge hp (by rw [hprocessed]; rfl)
  | none =>
      dsimp only
      cases hdec : decodeDeviceCommand event.payload with
      | error message => exact safe_malformedCommand hp hprocessed hdec hname
      | ok decoded =>
          refine safe_startCommand ⟨hp, hprocessed, ?_⟩ (.inr ⟨decoded, hdec⟩) hname
          unfold BatchOf
          rw [hdec]

theorem safe_processOne (hname : s.syncd.deviceName ≠ "") : SafeAt X processOne s := by
  unfold processOne
  refine SafeAt.nextCommand hname (fun t => SafeAt.done false) fun t n event hnamet hp => ?_
  exact safe_handleCommand hp hnamet

end Commands

end MiniOcs.Syncd
