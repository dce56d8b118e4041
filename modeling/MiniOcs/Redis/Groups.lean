import MiniOcs.Concurrent.System
import MiniOcs.Concurrent.Stream

/-!
# Consumer groups of a stream

`claimPending` and `readGroupIfNoPending` over the stream commands of Redis. Entries are named
by their place in the stream; a group is created at its beginning and nothing is trimmed. A
consumer looks at the pending entries, claims one that is idle, and reads a new entry only
through a script that finds nothing pending.
-/
namespace MiniOcs.Redis
open Concurrent

/-- An entry of the pending list. -/
structure PendingEntry where
  id : Nat
  owner : String
  deliveredAt : Nat
  deliveries : Nat
  deriving DecidableEq, Repr

inductive GroupEvent where
  | delivered (consumer : String) (id : Nat)
  | acked (id : Nat)
  deriving DecidableEq, Repr

def GroupEvent.deliveredId : GroupEvent → Option Nat
  | .delivered _ id => some id
  | .acked _ => none

/-- A stream and one group of it. No command reads the history. -/
structure GroupServer (α : Type) where
  stream : List α := []
  lastDelivered : Nat := 0
  pending : List PendingEntry := []
  now : Nat := 0
  history : List GroupEvent := []

namespace GroupServer

variable {α : Type}

def idle (s : GroupServer α) (entry : PendingEntry) : Nat := s.now - entry.deliveredAt

/-- `XPENDING <stream> <group> - + <count>`: id, owner, idle time and deliveries. -/
def xpending (s : GroupServer α) (count : Nat) : List (Nat × String × Nat × Nat) :=
  (s.pending.take count).map fun entry => (entry.id, entry.owner, s.idle entry, entry.deliveries)

def message (s : GroupServer α) (id : Nat) : Option (Nat × α) :=
  s.stream[id]?.map fun event => (id, event)

/-- `XCLAIM`: the ids that are still pending and idle long enough. -/
def claimable (s : GroupServer α) (minIdle : Nat) (ids : List Nat) : List Nat :=
  ids.filter fun id => s.pending.any fun entry => entry.id = id && minIdle ≤ s.idle entry

def xclaim (s : GroupServer α) (consumer : String) (minIdle : Nat) (ids : List Nat) :
    List (Nat × α) × GroupServer α :=
  let claimed := s.claimable minIdle ids
  (claimed.filterMap s.message, { s with
    pending := s.pending.map fun entry =>
      if entry.id ∈ claimed then { entry with
        owner := consumer
        deliveredAt := s.now
        deliveries := entry.deliveries + 1 }
      else entry
    history := s.history ++ claimed.map (.delivered consumer) })

/-- The ids that `XREADGROUP … COUNT <count> STREAMS <stream> >` delivers. -/
def freshIds (s : GroupServer α) (count : Nat) : List Nat :=
  List.range' s.lastDelivered (min count (s.stream.length - s.lastDelivered))

def xreadgroup (s : GroupServer α) (consumer : String) (count : Nat) :
    List (Nat × α) × GroupServer α :=
  let fresh := s.freshIds count
  (fresh.filterMap s.message, { s with
    lastDelivered := s.lastDelivered + fresh.length
    pending := s.pending ++ fresh.map fun id => ⟨id, consumer, s.now, 1⟩
    history := s.history ++ fresh.map (.delivered consumer) })

/-- `kReadGroupIfNoPendingScript`. -/
def readGroupScript (s : GroupServer α) (consumer : String) (count : Nat) :
    List (Nat × α) × GroupServer α :=
  if s.pending.length ≠ 0 then ([], s) else s.xreadgroup consumer count

def xack (s : GroupServer α) (id : Nat) : Nat × GroupServer α :=
  if s.pending.any fun entry => entry.id = id then
    (1, { s with
      pending := s.pending.filter fun entry => entry.id ≠ id
      history := s.history ++ [.acked id] })
  else (0, s)

end GroupServer

/-! ## Consumers -/

inductive GroupOp where
  | xpending (count : Nat)
  | xclaim (consumer : String) (minIdle : Nat) (ids : List Nat)
  | readGroupScript (consumer : String) (count : Nat)
  | xack (id : Nat)

abbrev GroupOp.Reply (α : Type) : GroupOp → Type
  | .xpending _ => List (Nat × String × Nat × Nat)
  | .xclaim _ _ _ => List (Nat × α)
  | .readGroupScript _ _ => List (Nat × α)
  | .xack _ => Nat

/-- Every command is atomic, and so is a script. -/
def groupExec (α : Type) : (o : GroupOp) → Nat → GroupServer α → o.Reply α × GroupServer α
  | .xpending count, _, s => (s.xpending count, s)
  | .xclaim consumer minIdle ids, _, s => s.xclaim consumer minIdle ids
  | .readGroupScript consumer count, _, s => s.readGroupScript consumer count
  | .xack id, _, s => s.xack id

abbrev GroupProg (α β : Type) := Prog GroupOp (GroupOp.Reply α) String β

section Consumers

variable {α : Type}

def readGroupIfNoPending (consumer : String) (count : Nat) : GroupProg α (List (Nat × α)) :=
  if count = 0 then .throw "serialized stream read count must be positive"
  else .call (.readGroupScript consumer count) .pure

def claimPending (consumer : String) (minIdle : Int) (count : Nat) :
    GroupProg α (List (Nat × α)) :=
  if count = 0 ∨ minIdle < 0 then
    .throw "pending claim count must be positive and idle non-negative"
  else do
    let pending ← Prog.perform (.xpending (min 100 (count * 10)))
    let ids := ((pending.filter fun entry => minIdle ≤ (entry.2.2.1 : Int)).map (·.1)).take count
    if ids = [] then .pure []
    else Prog.perform (GroupOp.xclaim consumer minIdle.toNat ids)

/-- How a service obtains its next message. -/
def nextMessage (consumer : String) (minIdle : Int) : GroupProg α (Option (Nat × α)) := do
  let claimed ← claimPending consumer minIdle 1
  match claimed with
  | message :: _ => .pure (some message)
  | [] =>
      let messages ← readGroupIfNoPending consumer 1
      .pure messages.head?

def acknowledge (id : Nat) : GroupProg α (Option (Nat × α)) := do
  let _ ← Prog.perform (.xack id)
  .pure none

end Consumers

/-- Any number of consumers of one group. They start and are cut at any time and acknowledge
whatever they like, while producers append and time passes. -/
def groupConsumers (α ι : Type) :
    System GroupOp (GroupOp.Reply α) String (Option (Nat × α)) (GroupServer α) ι where
  exec := groupExec α
  init s := ∃ stream now, s = { stream := stream, now := now }
  starts _ _ p := (∃ consumer minIdle, p = nextMessage consumer minIdle) ∨ ∃ id, p = acknowledge id
  crash _ s := s
  env s t := (∃ event, t = { s with stream := s.stream ++ [event] }) ∨
    ∃ later, s.now ≤ later ∧ t = { s with now := later }
  allow _ _ _ _ := True

/-! ## Serial delivery -/

section Serial

variable {α : Type} {s : GroupServer α}

/-- The ids in the pending list. -/
def GroupServer.pendingIds (s : GroupServer α) : List Nat := s.pending.map (·.id)

/-- The ids of the deliveries so far, each at its first delivery. -/
def firstDeliveries (history : List GroupEvent) : List Nat :=
  (history.filterMap GroupEvent.deliveredId).eraseDups

/-- Every delivery but that of the first entry has the acknowledgement of the entry before it
somewhere before. -/
def InOrder (history : List GroupEvent) : Prop :=
  ∀ before after consumer n, history = before ++ .delivered consumer (n + 1) :: after →
    .acked n ∈ before

/-- What the commands of the consumers keep. -/
structure SerialGroup (s : GroupServer α) : Prop where
  bound : s.lastDelivered ≤ s.stream.length
  pending : ∀ n ∈ s.pendingIds, s.pendingIds = [n] ∧ s.lastDelivered = n + 1
  acked : ∀ n < s.lastDelivered, n ∈ s.pendingIds ∨ .acked n ∈ s.history
  first : firstDeliveries s.history = List.range s.lastDelivered
  order : InOrder s.history

theorem SerialGroup.init (stream : List α) (now : Nat) :
    SerialGroup { stream := stream, now := now } where
  bound := Nat.zero_le _
  pending n hn := by cases hn
  acked n hn := by cases hn
  first := rfl
  order before after consumer n h := by simp at h

theorem inOrder_snoc {history : List GroupEvent} {event : GroupEvent} (h : InOrder history)
    (hnew : ∀ consumer n, event = .delivered consumer (n + 1) → .acked n ∈ history) :
    InOrder (history ++ [event]) := by
  intro before after consumer n heq
  rcases List.eq_nil_or_concat after with rfl | ⟨rest, last, rfl⟩
  · obtain ⟨rfl, hlast⟩ := List.append_inj' heq rfl
    exact hnew consumer n (List.singleton_inj.mp hlast)
  · rw [List.concat_eq_append, ← List.cons_append, ← List.append_assoc] at heq
    obtain ⟨hbefore, -⟩ := List.append_inj' heq rfl
    exact h before rest consumer n hbefore

theorem deliveredId_snoc {history : List GroupEvent} {consumer : String} {n : Nat} :
    (history ++ [GroupEvent.delivered consumer n]).filterMap GroupEvent.deliveredId =
      history.filterMap GroupEvent.deliveredId ++ [n] := by
  rw [List.filterMap_append]
  rfl

theorem firstDeliveries_snoc_of_mem {history : List GroupEvent} (consumer : String) {n : Nat}
    (h : n ∈ firstDeliveries history) :
    firstDeliveries (history ++ [.delivered consumer n]) = firstDeliveries history := by
  unfold firstDeliveries at h ⊢
  rw [List.mem_eraseDups] at h
  rw [deliveredId_snoc, List.eraseDups_append, List.removeAll,
    List.filter_cons_of_neg (by simpa using h)]
  simp

theorem firstDeliveries_snoc_of_notMem {history : List GroupEvent} {consumer : String} {n : Nat}
    (h : n ∉ firstDeliveries history) :
    firstDeliveries (history ++ [.delivered consumer n]) = firstDeliveries history ++ [n] := by
  unfold firstDeliveries at h ⊢
  rw [List.mem_eraseDups] at h
  rw [deliveredId_snoc, List.eraseDups_append, List.removeAll,
    List.filter_cons_of_pos (by simpa using h)]
  rfl

theorem firstDeliveries_snoc_acked {history : List GroupEvent} {n : Nat} :
    firstDeliveries (history ++ [.acked n]) = firstDeliveries history := by
  unfold firstDeliveries
  rw [List.filterMap_append]
  exact congrArg List.eraseDups (List.append_nil _)

/-- Nothing is pending: every delivered entry is acknowledged. -/
theorem SerialGroup.acked_of_idle (h : SerialGroup s) (hidle : s.pending = []) {n : Nat}
    (hn : n < s.lastDelivered) : .acked n ∈ s.history := by
  refine (h.acked n hn).resolve_left fun hmem => ?_
  rw [GroupServer.pendingIds, hidle] at hmem
  cases hmem

/-- The entry before the pending one is acknowledged. -/
theorem SerialGroup.acked_of_pending (h : SerialGroup s) {n : Nat} (hn : n + 1 ∈ s.pendingIds) :
    .acked n ∈ s.history := by
  obtain ⟨hids, hlast⟩ := h.pending _ hn
  refine (h.acked n (by omega)).resolve_left fun hmem => ?_
  rw [hids, List.mem_singleton] at hmem
  omega

theorem SerialGroup.readGroupScript (h : SerialGroup s) (consumer : String) :
    SerialGroup (s.readGroupScript consumer 1).2 := by
  unfold GroupServer.readGroupScript
  split_ifs with hpending
  · exact h
  · have hidle : s.pending = [] := by simpa using hpending
    by_cases hmore : s.lastDelivered < s.stream.length
    · have hfresh : s.freshIds 1 = [s.lastDelivered] := by
        have hmin : min 1 (s.stream.length - s.lastDelivered) = 1 := by omega
        rw [GroupServer.freshIds, hmin]
        rfl
      have hnew : s.lastDelivered ∉ firstDeliveries s.history := by
        rw [h.first, List.mem_range]
        omega
      simp only [GroupServer.xreadgroup, hfresh, hidle]
      refine ⟨hmore, fun n hn => ?_, fun n hn => ?_, ?_, ?_⟩
      · have heq : n = s.lastDelivered := by simpa [GroupServer.pendingIds] using hn
        subst heq
        exact ⟨rfl, rfl⟩
      · by_cases heq : n = s.lastDelivered
        · subst heq
          exact .inl (by simp [GroupServer.pendingIds])
        · have hlt : n < s.lastDelivered := by
            simp only [List.length_singleton] at hn
            omega
          exact .inr (List.mem_append_left _ (h.acked_of_idle hidle hlt))
      · change firstDeliveries (s.history ++ [.delivered consumer s.lastDelivered]) =
          List.range (s.lastDelivered + 1)
        rw [firstDeliveries_snoc_of_notMem hnew, h.first, List.range_succ]
      · refine inOrder_snoc h.order fun c n heq => ?_
        simp only [GroupEvent.delivered.injEq] at heq
        exact h.acked_of_idle hidle (by omega)
    · have hfresh : s.freshIds 1 = [] := by
        have hmin : min 1 (s.stream.length - s.lastDelivered) = 0 := by omega
        rw [GroupServer.freshIds, hmin]
        rfl
      simpa [GroupServer.xreadgroup, hfresh] using h

theorem pendingIds_xclaim {consumer : String} {minIdle : Nat} {ids : List Nat} :
    (s.xclaim consumer minIdle ids).2.pendingIds = s.pendingIds := by
  simp only [GroupServer.xclaim, GroupServer.pendingIds, List.map_map]
  refine List.map_congr_left fun entry _ => ?_
  simp only [Function.comp_apply]
  split_ifs <;> rfl

/-- Claims deliver pending entries once more. -/
theorem redelivered {history : List GroupEvent} (consumer : String) {claimed : List Nat}
    (horder : InOrder history)
    (hfirst : ∀ n ∈ claimed, n ∈ firstDeliveries history)
    (hacked : ∀ n, n + 1 ∈ claimed → .acked n ∈ history) :
    firstDeliveries (history ++ claimed.map (.delivered consumer)) = firstDeliveries history ∧
      InOrder (history ++ claimed.map (.delivered consumer)) := by
  induction claimed generalizing history with
  | nil => simpa using horder
  | cons n rest ih =>
      have hsnoc := firstDeliveries_snoc_of_mem consumer (hfirst n (by simp))
      have horder' : InOrder (history ++ [.delivered consumer n]) := by
        refine inOrder_snoc horder fun c m heq => hacked m ?_
        simp only [GroupEvent.delivered.injEq] at heq
        rw [heq.2]
        simp
      obtain ⟨hf, ho⟩ := ih horder'
        (fun m hm => by rw [hsnoc]; exact hfirst m (List.mem_cons_of_mem _ hm))
        fun m hm => List.mem_append_left _ (hacked m (List.mem_cons_of_mem _ hm))
      rw [List.map_cons, ← List.singleton_append, ← List.append_assoc]
      exact ⟨hf.trans hsnoc, ho⟩

theorem SerialGroup.xclaim (h : SerialGroup s) (consumer : String) (minIdle : Nat)
    (ids : List Nat) : SerialGroup (s.xclaim consumer minIdle ids).2 := by
  have hclaimed : ∀ n ∈ s.claimable minIdle ids, n ∈ s.pendingIds := by
    intro n hn
    obtain ⟨entry, hentry, heq⟩ := List.any_eq_true.mp (List.mem_filter.mp hn).2
    simp only [Bool.and_eq_true, decide_eq_true_eq] at heq
    exact List.mem_map.mpr ⟨entry, hentry, heq.1⟩
  obtain ⟨hfirst, horder⟩ := redelivered consumer h.order
    (fun n hn => by
      rw [h.first, List.mem_range]
      have := (h.pending n (hclaimed n hn)).2
      omega)
    fun n hn => h.acked_of_pending (hclaimed _ hn)
  refine ⟨h.bound, fun n hn => ?_, fun n hn => ?_, hfirst.trans h.first, horder⟩
  · rw [pendingIds_xclaim] at hn ⊢
    exact h.pending n hn
  · rw [pendingIds_xclaim]
    exact (h.acked n hn).imp_right fun hmem => List.mem_append_left _ hmem

theorem SerialGroup.xack (h : SerialGroup s) (id : Nat) : SerialGroup (s.xack id).2 := by
  unfold GroupServer.xack
  split_ifs with hpending
  · have hids : ∀ n, n ∈ GroupServer.pendingIds { s with
        pending := s.pending.filter fun entry => entry.id ≠ id
        history := s.history ++ [.acked id] } ↔ n ∈ s.pendingIds ∧ n ≠ id := by
      intro n
      simp only [GroupServer.pendingIds, List.mem_map, List.mem_filter, decide_eq_true_eq]
      constructor
      · rintro ⟨entry, ⟨hentry, hne⟩, rfl⟩
        exact ⟨⟨entry, hentry, rfl⟩, hne⟩
      · rintro ⟨⟨entry, hentry, rfl⟩, hne⟩
        exact ⟨entry, ⟨hentry, hne⟩, rfl⟩
    refine ⟨h.bound, fun n hn => ?_, fun n hn => ?_, ?_, ?_⟩
    · obtain ⟨hmem, hne⟩ := (hids n).mp hn
      obtain ⟨hone, hlast⟩ := h.pending n hmem
      have hid : id ∈ s.pendingIds := by
        obtain ⟨entry, hentry, heq⟩ := List.any_eq_true.mp hpending
        exact List.mem_map.mpr ⟨entry, hentry, by simpa using heq⟩
      rw [hone, List.mem_singleton] at hid
      exact absurd hid.symm hne
    · rw [hids]
      by_cases heq : n = id
      · subst heq
        exact .inr (by simp)
      · exact (h.acked n hn).imp (fun hmem => ⟨hmem, heq⟩) fun hmem => List.mem_append_left _ hmem
    · exact firstDeliveries_snoc_acked.trans h.first
    · exact inOrder_snoc h.order fun c n heq => by cases heq
  · exact h

theorem SerialGroup.env {t : GroupServer α} (h : SerialGroup s)
    (henv : (∃ event, t = { s with stream := s.stream ++ [event] }) ∨
      ∃ later, s.now ≤ later ∧ t = { s with now := later }) : SerialGroup t := by
  obtain ⟨event, rfl⟩ | ⟨later, -, rfl⟩ := henv
  · refine ⟨?_, h.pending, h.acked, h.first, h.order⟩
    have hbound := h.bound
    simp only [List.length_append, List.length_singleton]
    omega
  · exact ⟨h.bound, h.pending, h.acked, h.first, h.order⟩

/-! ### The groups of the services -/

/-- What the services see of a group. -/
def GroupServer.group (s : GroupServer α) : Group := ⟨s.lastDelivered, s.pendingIds⟩

theorem group_readGroupScript (consumer : String) :
    (s.readGroupScript consumer 1).2.group = (s.group.read s.stream.length).2 := by
  unfold GroupServer.readGroupScript Group.read
  by_cases hidle : s.pending = []
  · have hids : s.group.pending = [] := by simp [GroupServer.group, GroupServer.pendingIds, hidle]
    rw [if_neg (by simp [hidle])]
    by_cases hmore : s.lastDelivered < s.stream.length
    · have hmin : min 1 (s.stream.length - s.lastDelivered) = 1 := by omega
      rw [if_pos ⟨hids, hmore⟩]
      simp [GroupServer.xreadgroup, GroupServer.freshIds, GroupServer.group,
        GroupServer.pendingIds, hmin, hidle]
    · have hmin : min 1 (s.stream.length - s.lastDelivered) = 0 := by omega
      rw [if_neg fun h => hmore h.2]
      simp [GroupServer.xreadgroup, GroupServer.freshIds, GroupServer.group,
        GroupServer.pendingIds, hmin]
  · have hids : s.group.pending ≠ [] := by
      simpa [GroupServer.group, GroupServer.pendingIds] using hidle
    rw [if_pos (by simpa using hidle), if_neg fun h => hids h.1]

theorem group_xclaim (consumer : String) (minIdle : Nat) (ids : List Nat) :
    (s.xclaim consumer minIdle ids).2.group = s.group := by
  simp only [GroupServer.group, pendingIds_xclaim]
  rfl

theorem group_xack (id : Nat) : (s.xack id).2.group = (s.group.ack id).2 := by
  unfold GroupServer.xack Group.ack
  split_ifs with hpending
  · simp only [GroupServer.group, GroupServer.pendingIds, List.filter_map]
    rfl
  · have hnone : id ∉ s.pendingIds := by simpa [GroupServer.pendingIds] using hpending
    have hkeep : s.pendingIds.filter (· ≠ id) = s.pendingIds :=
      List.filter_eq_self.mpr fun n hn => by
        simpa using ne_of_mem_of_not_mem hn hnone
    simp only [GroupServer.group, hkeep]

end Serial

/-! ## Every run -/

/-- Consumers read new entries one at a time. -/
def oneAtATime (α : Type) : Contract GroupOp (GroupServer α) where
  inv _ := True
  rely _ _ := True
  guard o _ := match o with
    | .readGroupScript _ count => count = 1
    | _ => True
  allow _ _ _ := True
  refl _ := trivial
  trans _ _ := trivial

theorem safe_nextMessage {α : Type} (consumer : String) (minIdle : Int) (s : GroupServer α) :
    Safe (groupExec α) (oneAtATime α) (fun _ _ => True) (nextMessage consumer minIdle) s := by
  have hread : ∀ s : GroupServer α, Safe (groupExec α) (oneAtATime α) (fun _ _ => True)
      (readGroupIfNoPending consumer 1 >>= fun messages =>
        (.pure messages.head? : GroupProg α (Option (Nat × α)))) s :=
    fun s t _ _ => ⟨rfl, fun _ _ _ _ _ => trivial⟩
  unfold nextMessage claimPending
  by_cases hbad : 1 = 0 ∨ minIdle < 0
  · rw [if_pos hbad]
    exact fun _ _ _ => trivial
  · rw [if_neg hbad, Prog.bind_assoc', Prog.perform_bind]
    intro t _ _
    refine ⟨trivial, fun c _ => ?_⟩
    dsimp only
    split_ifs
    · exact hread _
    · rw [Prog.perform_bind]
      intro u _ _
      refine ⟨trivial, fun c _ => ?_⟩
      beta_reduce
      split
      · exact fun _ _ _ => trivial
      · exact hread _

theorem groupConsumers_verified (α ι : Type) [DecidableEq ι] :
    Verified (groupConsumers α ι) SerialGroup (fun _ => oneAtATime α) (fun _ _ _ _ => True) where
  inv _ _ _ := trivial
  allow _ _ _ _ _ := trivial
  init := by
    rintro _ ⟨stream, now, rfl⟩
    exact .init stream now
  starts := by
    rintro _ s _ _ (⟨consumer, minIdle, rfl⟩ | ⟨id, rfl⟩)
    · exact safe_nextMessage consumer minIdle s
    · exact fun _ _ _ => ⟨trivial, fun _ _ _ _ _ => trivial⟩
  call := by
    intro _ o _ s hs hguard _
    refine ⟨?_, fun _ _ => trivial⟩
    cases o with
    | xpending count => exact hs
    | xclaim consumer minIdle ids => exact hs.xclaim consumer minIdle ids
    | readGroupScript consumer count =>
        cases hguard
        exact hs.readGroupScript consumer
    | xack id => exact hs.xack id
  crash _ _ hs _ := ⟨hs, fun _ _ => trivial⟩
  env _ _ hs henv := ⟨hs.env henv, fun _ => trivial⟩

/-- No consumer overtakes another: one entry is pending, first deliveries go through the stream
entry by entry, and no entry is delivered to anyone before its predecessor is acknowledged. -/
theorem no_overtaking {α ι : Type} [DecidableEq ι]
    {c : Config GroupOp (GroupOp.Reply α) String (Option (Nat × α)) (GroupServer α) ι}
    (h : Reachable (groupConsumers α ι) c) :
    c.world.pending.length ≤ 1 ∧
      firstDeliveries c.world.history = List.range c.world.lastDelivered ∧
      c.world.lastDelivered ≤ c.world.stream.length ∧ InOrder c.world.history := by
  have hs := (groupConsumers_verified α ι).invariant h
  refine ⟨?_, hs.first, hs.bound, hs.order⟩
  cases hp : c.world.pending with
  | nil => simp
  | cons entry rest =>
      have hone := (hs.pending entry.id (by simp [GroupServer.pendingIds, hp])).1
      have hlength := congrArg List.length hone
      simp only [GroupServer.pendingIds, List.length_map, List.length_singleton, hp] at hlength
      omega

/-! ### A crash between two consumers -/

def afterConsumer (p : GroupProg String (Option (Nat × String))) (s : GroupServer String) :
    GroupServer String :=
  (p.run (groupExec String) (List.replicate 4 0) s).2

/-- One consumer is cut after its delivery; another claims the entry, acknowledges it and reads
the next one. -/
def takenOver : GroupServer String :=
  afterConsumer (nextMessage "right" 0) (afterConsumer (acknowledge 0)
    (afterConsumer (nextMessage "right" 0)
      (afterConsumer (nextMessage "left" 0) { stream := ["a", "b"] })))

theorem takenOver_reachable :
    Reachable (groupConsumers String Bool) ⟨takenOver, fun _ => none⟩ := by
  have hinit : Reachable (groupConsumers String Bool) ⟨{ stream := ["a", "b"] }, fun _ => none⟩ :=
    .init ⟨["a", "b"], 0, rfl⟩
  have hall : ∀ (p : GroupProg String (Option (Nat × String))) s i, p.along (groupExec String)
      ((groupConsumers String Bool).allow i) (List.replicate 4 0) s :=
    fun p s i => Prog.along_of_forall (fun _ _ _ => trivial) p _ s
  have hleft := hinit.cut (i := false) rfl (.inl ⟨"left", 0, rfl⟩) _ (hall _ _ _) trivial
  have hclaim := hleft.cut (i := true) rfl (.inl ⟨"right", 0, rfl⟩) _ (hall _ _ _) trivial
  have hack := hclaim.cut (i := true) rfl (.inr ⟨0, rfl⟩) _ (hall _ _ _) trivial
  exact hack.cut (i := true) rfl (.inl ⟨"right", 0, rfl⟩) _ (hall _ _ _) trivial

theorem no_overtaking_takenOver :
    takenOver.history = [.delivered "left" 0, .delivered "right" 0, .acked 0,
      .delivered "right" 1] ∧
      takenOver.pending.length ≤ 1 ∧
      firstDeliveries takenOver.history = List.range takenOver.lastDelivered ∧
      takenOver.lastDelivered ≤ takenOver.stream.length ∧ InOrder takenOver.history :=
  ⟨by decide +kernel, no_overtaking takenOver_reachable⟩

end MiniOcs.Redis
