import Mathlib.Data.List.Infix
import MiniOcs.Gnmi.Commit

/-!
# Concurrent commits are serializable

Every executed transaction is the candidate of the plan on the state it replaces: its
`EXEC` succeeds only when the revision stands still since the `WATCH`, and then all the
reads in between saw that one state. The event log is therefore a serial history.
-/
namespace MiniOcs.Gnmi
open Std Concurrent

/-! ## One state -/

def checkAllPorts (inventory : Inventory) : List (Nat × Nat) → Except SetError Unit
  | [] => .ok ()
  | pair :: rest =>
      match checkPorts pair (inventory.portAdminStatus .input pair.1)
          (inventory.portAdminStatus .output pair.2) with
      | .ok () => checkAllPorts inventory rest
      | .error e => .error e

/-- The answer to a plan, given the connections and the next revision. -/
def evaluateOn (inventory : Inventory) (plan : SetPlan) (timestampNs : Nat)
    (current : Dict String ConnectionConfig) (revision : Nat) : Except SetError CandidateMutation :=
  match portCounts plan.device inventory.fields with
  | .error e => .error e
  | .ok counts =>
      match buildCandidate {
          current := current
          revision := revision
          timestampNs := timestampNs
          inputPortCount := counts.1
          outputPortCount := counts.2 } plan with
      | .error e => .error e
      | .ok candidate =>
          match checkAllPorts inventory (portPairs candidate.connections) with
          | .error e => .error e
          | .ok () => .ok candidate

/-- The answer to a plan on one committed state, with nothing in between. -/
def evaluate (inventory : Inventory) (plan : SetPlan) (timestampNs : Nat) (db : ConfigDb) :
    Except SetError CandidateMutation :=
  evaluateOn inventory plan timestampNs (ConnectionTable.load db.connections)
    (db.revision.getD 0 + 1)

theorem portPairs_unstamped {a b : List ConnectionConfig}
    (h : a.map ConnectionConfig.unstamped = b.map ConnectionConfig.unstamped) :
    portPairs a = portPairs b := by
  have hports : ∀ l : List ConnectionConfig, l.map (fun c => (c.inputPort, c.outputPort)) =
      (l.map ConnectionConfig.unstamped).map fun c => (c.inputPort, c.outputPort) := by
    intro l
    simp [Function.comp_def, ConnectionConfig.unstamped]
  unfold portPairs
  rw [hports a, hports b, h]

/-- Neither the revision nor the clock decides whether a plan is refused or changes nothing. -/
theorem evaluateOn_stamp {inventory : Inventory} {plan : SetPlan}
    {current : Dict String ConnectionConfig} (r r' ts ts' : Nat) :
    (∃ e, evaluateOn inventory plan ts current (r + 1) = .error e ∧
      evaluateOn inventory plan ts' current (r' + 1) = .error e) ∨
    ∃ c c', evaluateOn inventory plan ts current (r + 1) = .ok c ∧
      evaluateOn inventory plan ts' current (r' + 1) = .ok c' ∧
      (c.changes = [] → c'.changes = []) := by
  unfold evaluateOn
  cases portCounts plan.device inventory.fields with
  | error e => exact .inl ⟨e, rfl, rfl⟩
  | ok counts =>
      dsimp only
      have hstamp := buildCandidate_stamp ⟨current, 0, 0, counts.1, counts.2⟩ plan
        (Nat.succ_ne_zero r) (Nat.succ_ne_zero r') ts ts'
      simp only [CandidateInput.stamp] at hstamp
      rcases hstamp with ⟨e, he, he'⟩ | ⟨c, c', hc, hc', hchanges, hconns⟩
      · exact .inl ⟨e, by simp only [he], by simp only [he']⟩
      · simp only [hc, hc', portPairs_unstamped hconns]
        cases checkAllPorts inventory (portPairs c'.connections) with
        | error e => exact .inl ⟨e, rfl, rfl⟩
        | ok _ => exact .inr ⟨c, c', rfl, rfl, hchanges⟩

/-! ## The event log as a history -/

def ConnectionConfig.view (c : ConnectionConfig) : AppliedConnection :=
  ⟨c.connectionId, c.inputPort, c.outputPort, c.desiredVersion⟩

def replayCommand (table : ExtTreeMap String AppliedConnection) (command : ConnectionCommand) :
    ExtTreeMap String AppliedConnection :=
  match command.operation with
  | .upsert => table.insert command.id
      ⟨command.id, command.inputPort, command.outputPort, command.desiredVersion⟩
  | .remove => table.erase command.id

/-- The fold of all event batches in stream order. -/
def replay (events : List ConfigEvent) : ExtTreeMap String AppliedConnection :=
  events.foldl (fun table event => event.commands.foldl replayCommand table) ∅

/-- Nothing is configured yet, or the connections are a matching inside the inventory's
port counts. -/
def ValidTable (inventory : Inventory) (table : ConnectionTable) : Prop :=
  table = ∅ ∨ ∃ n m, portCounts inventory.device inventory.fields = .ok (n, m) ∧ Matching n m table

/-- The log and the tables of CONFIG_DB agree. -/
structure Serial (inventory : Inventory) (db : ConfigDb) : Prop where
  revision : db.revision.getD 0 = db.events.length
  versions : ∀ n event, db.events[n]? = some event → event.desiredVersion = n + 1 ∧
    ∀ command ∈ event.commands, command.desiredVersion = n + 1
  replayed : ∀ id : String, (db.connections[id]?).map ConnectionConfig.view = (replay db.events)[id]?
  valid : ValidTable inventory db.connections

theorem Serial.init (inventory : Inventory) : Serial inventory {} where
  revision := rfl
  versions n event h := by simp at h
  replayed id := by simp [replay]
  valid := .inl rfl

theorem getElem?_replayCommand (table : ExtTreeMap String AppliedConnection)
    (command : ConnectionCommand) (id : String) :
    (replayCommand table command)[id]? = if id = command.id then
      (match command.operation with
        | .upsert => some ⟨command.id, command.inputPort, command.outputPort, command.desiredVersion⟩
        | .remove => none)
      else table[id]? := by
  unfold replayCommand
  cases command.operation with
  | upsert =>
      rw [ExtTreeMap.getElem?_insert]
      simp only [Std.compare_eq_iff_eq, eq_comm (a := id)]
  | remove =>
      rw [ExtTreeMap.getElem?_erase]
      simp only [Std.compare_eq_iff_eq, eq_comm (a := id)]

/-- Replaying the event of a batch follows the batch itself. -/
theorem replay_changes {revision : Nat} {changes : List CandidateChange}
    (hup : ∀ change ∈ changes, change.operation = .upsert ↔ change.config.isSome)
    (hst : ∀ change ∈ changes, ∀ config, change.config = some config →
      config.connectionId = change.connectionId ∧ config.desiredVersion = revision)
    {table : ConnectionTable} {view : ExtTreeMap String AppliedConnection}
    (h : ∀ id : String, (table[id]?).map ConnectionConfig.view = view[id]?) (id : String) :
    ((applyChanges table changes)[id]?).map ConnectionConfig.view =
      ((changes.map (eventCommand revision)).foldl replayCommand view)[id]? := by
  induction changes generalizing table view with
  | nil => exact h id
  | cons change rest ih =>
      refine ih (fun c hc => hup c (by simp [hc])) (fun c hc => hst c (by simp [hc])) ?_
      intro id
      rw [getElem?_applyChange, getElem?_replayCommand]
      have hop := hup change (by simp)
      cases hc : change.config with
      | some config =>
          obtain ⟨hid, hv⟩ := hst change (by simp) config hc
          have hupsert : change.operation = .upsert := hop.mpr (by rw [hc]; rfl)
          simp only [eventCommand, hc, hupsert]
          split_ifs
          · simp [ConnectionConfig.view, hid, hv]
          · exact h id
      | none =>
          have hremove : change.operation = .remove := by
            cases hcase : change.operation with
            | upsert => rw [hc] at hop; exact absurd (hop.mp hcase) (by simp)
            | remove => rfl
          simp only [eventCommand, hc, hremove]
          split_ifs
          · rfl
          · exact h id

theorem eventCommand_desiredVersion (revision : Nat) (change : CandidateChange) :
    (eventCommand revision change).desiredVersion = revision := by
  unfold eventCommand
  cases change.config <;> rfl

theorem ValidTable.keyed {inventory : Inventory} {table : ConnectionTable}
    (h : ValidTable inventory table) (id : String) (c : ConnectionConfig) (hc : table[id]? = some c) :
    c.connectionId = id ∧ id ≠ "" := by
  rcases h with rfl | ⟨n, m, -, hm⟩
  · simp at hc
  · exact hm.keyed id c hc

/-- Executing the candidate of the current state extends the history by one entry. -/
theorem Serial.commit {inventory : Inventory} {db : ConfigDb} (h : Serial inventory db)
    {plan : SetPlan} (hdev : plan.device = inventory.device) {timestampNs eventId : Nat}
    {candidate : CandidateMutation}
    (hcand : evaluate inventory plan timestampNs db = .ok candidate) :
    Serial inventory {
      connections := applyChanges db.connections candidate.changes
      revision := some candidate.revision
      events := db.events ++
        [eventFields plan eventId candidate.revision candidate.timestampNs candidate.changes] } := by
  unfold evaluate evaluateOn at hcand
  rw [hdev] at hcand
  split at hcand
  · cases hcand
  rename_i counts hcounts
  split at hcand
  · cases hcand
  rename_i cand hbuild
  split at hcand
  · cases hcand
  cases hcand
  have hw := buildCandidate_writes h.valid.keyed rfl hbuild
  have hrev : candidate.revision = db.events.length + 1 := by rw [hw.revision, h.revision]
  refine ⟨?_, ?_, ?_, .inr ⟨counts.1, counts.2, hcounts, hw.matching⟩⟩
  · simp [hrev]
  · intro n event hn
    rw [List.getElem?_append] at hn
    split_ifs at hn with hlt
    · exact h.versions n event hn
    · obtain ⟨hidx, rfl⟩ := List.getElem?_eq_some_iff.mp hn
      simp only [List.length_singleton] at hidx
      have hn' : n = db.events.length := by omega
      simp only [List.getElem_singleton, eventFields, List.mem_map]
      refine ⟨by omega, ?_⟩
      rintro command ⟨change, -, rfl⟩
      rw [eventCommand_desiredVersion]
      omega
  · intro id
    have hst : ∀ change ∈ candidate.changes, ∀ config, change.config = some config →
        config.connectionId = change.connectionId ∧ config.desiredVersion = candidate.revision := by
      intro change hchange config hconfig
      rw [hw.revision]
      exact hw.stamped change hchange config hconfig
    rw [replay_changes hw.upsert hst h.replayed]
    simp only [replay, List.foldl_append, List.foldl_cons, List.foldl_nil, eventFields]

/-! ## The contract of a caller -/

structure Inv (w : World) : Prop where
  serial : Serial w.inventory w.db
  length : w.past.length = w.db.events.length
  stamp : w.stamps .revision = w.past.length
  loads : ∀ caller, (w.loads caller).1 ≤ (w.loads caller).2 ∧ (w.loads caller).2 ≤ w.past.length

/-- What the others leave alone: they extend the history and keep a caller's own marks. -/
structure Keeps (caller : Caller) (s t : World) : Prop where
  inventory : t.inventory = s.inventory
  committed : s.committed <+: t.committed
  watched : t.watched caller = s.watched caller
  loads : t.loads caller = s.loads caller
  commits : t.commits caller = s.commits caller

theorem Keeps.refl (caller : Caller) (s : World) : Keeps caller s s :=
  ⟨rfl, List.prefix_rfl, rfl, rfl, rfl⟩

theorem Keeps.trans {caller : Caller} {a b c : World} (h : Keeps caller a b) (h' : Keeps caller b c) :
    Keeps caller a c :=
  ⟨h'.inventory.trans h.inventory, h.committed.trans h'.committed, h'.watched.trans h.watched,
    h'.loads.trans h.loads, h'.commits.trans h.commits⟩

theorem past_length_le {s t : World} (h : s.committed <+: t.committed) :
    s.past.length ≤ t.past.length := by
  have hle := h.length_le
  simp only [World.committed, List.length_append, List.length_singleton] at hle
  omega

/-- The transaction is the candidate of the plan on the state it is executed in. -/
def Justified (caller : Caller) (changes : List CandidateChange) (revision : Nat)
    (event : ConfigEvent) (w : World) : Prop :=
  caller.plan.device = w.inventory.device ∧ ∃ timestampNs eventId candidate,
    evaluate w.inventory caller.plan timestampNs w.db = .ok candidate ∧
    changes = candidate.changes ∧ revision = candidate.revision ∧
    event = eventFields caller.plan eventId candidate.revision candidate.timestampNs candidate.changes

def Guard (caller : Caller) : Op → World → Prop
  | .exec c changes revision event, w =>
      c = caller ∧ (w.clean caller = true → Justified caller changes revision event w)
  | .watch c _, _ => c = caller
  | .keys c, _ => c = caller
  | .hgetallConnection c _, _ => c = caller
  | .unwatch c _, _ => c = caller
  | _, _ => True

/-- An attempt that answers without `EXEC` read its connections from one committed state. -/
def Settled : Op → World → Prop
  | .unwatch caller true, w => (w.loads caller).1 = (w.loads caller).2
  | _, _ => True

def contract (allow : Op → World → Prop) (caller : Caller) : Contract Op World where
  inv := Inv
  rely := Keeps caller
  guard := Guard caller
  allow o _ w := allow o w
  refl := Keeps.refl caller
  trans := Keeps.trans

theorem exec_cases (o : Op) (choice : Nat) (w : World) :
    exec o choice w = (.ok (o.execute w choice).1, (o.execute w choice).2) ∨
    ∃ fault, exec o choice w = (.error fault, w) ∨
      exec o choice w = (.error fault, (o.execute w choice).2) := by
  unfold exec
  dsimp only
  split_ifs
  · exact .inl rfl
  · split
    · exact .inr ⟨_, .inl rfl⟩
    · exact .inr ⟨_, .inr rfl⟩
    · exact .inr ⟨_, .inl rfl⟩
    · exact .inr ⟨_, .inr rfl⟩
    · exact .inl rfl

theorem Inv.setWatched {w : World} (h : Inv w) (caller : Caller) (keys : List (WatchKey × Nat)) :
    Inv (w.setWatched caller keys) := ⟨h.serial, h.length, h.stamp, h.loads⟩

theorem Inv.setLoads {w : World} (h : Inv w) (caller : Caller) {a : Nat} (ha : a ≤ w.past.length) :
    Inv { w with loads := Function.update w.loads caller (a, w.past.length) } := by
  refine ⟨h.serial, h.length, h.stamp, fun c => ?_⟩
  by_cases hc : c = caller
  · subst hc; simpa using ha
  · simpa [Function.update_of_ne hc] using h.loads c

theorem Inv.transact {w : World} (h : Inv w) {caller : Caller} {changes : List CandidateChange}
    {revision : Nat} {event : ConfigEvent} (hj : Justified caller changes revision event w) :
    Inv (w.transact caller changes revision event) := by
  obtain ⟨hdev, timestampNs, eventId, candidate, hcand, rfl, rfl, rfl⟩ := hj
  refine ⟨h.serial.commit hdev hcand, ?_, ?_, ?_⟩
  · simp [World.transact, h.length]
  · simp [World.transact, h.stamp]
  · intro c
    have := h.loads c
    simp only [World.transact, List.length_append, List.length_singleton]
    omega

/-- One executed command keeps the invariant, and keeps it for every other caller. -/
theorem execute_keeps {w : World} (h : Inv w) {caller : Caller} {o : Op} (hg : Guard caller o w)
    (choice : Nat) : Inv (o.execute w choice).2 ∧
      ∀ other, other ≠ caller → Keeps other w (o.execute w choice).2 := by
  cases o with
  | hincrby counter => exact ⟨⟨h.serial, h.length, h.stamp, h.loads⟩, fun _ _ =>
      ⟨rfl, List.prefix_rfl, rfl, rfl, rfl⟩⟩
  | watch c keys =>
      cases hg
      exact ⟨h.setWatched _ _, fun other hne =>
        ⟨rfl, List.prefix_rfl, Function.update_of_ne hne _ _, rfl, rfl⟩⟩
  | getRevision => exact ⟨h, fun other _ => Keeps.refl other w⟩
  | keys c =>
      cases hg
      exact ⟨h.setLoads _ le_rfl, fun other hne =>
        ⟨rfl, List.prefix_rfl, rfl, Function.update_of_ne hne _ _, rfl⟩⟩
  | hgetallConnection c id =>
      cases hg
      exact ⟨h.setLoads _ ((h.loads _).1.trans (h.loads _).2), fun other hne =>
        ⟨rfl, List.prefix_rfl, rfl, Function.update_of_ne hne _ _, rfl⟩⟩
  | hgetallDevice => exact ⟨h, fun other _ => Keeps.refl other w⟩
  | hgetallPort direction id => exact ⟨h, fun other _ => Keeps.refl other w⟩
  | timestamp => exact ⟨h, fun other _ => Keeps.refl other w⟩
  | uuid => exact ⟨⟨h.serial, h.length, h.stamp, h.loads⟩, fun _ _ =>
      ⟨rfl, List.prefix_rfl, rfl, rfl, rfl⟩⟩
  | exec c changes revision event =>
      obtain ⟨rfl, hj⟩ := hg
      simp only [Op.execute]
      split_ifs with hclean
      · exact ⟨h.transact (hj hclean), fun other hne => ⟨rfl, List.prefix_append _ _,
          Function.update_of_ne hne _ _, rfl, Function.update_of_ne hne _ _⟩⟩
      · exact ⟨h.setWatched _ _, fun other hne =>
          ⟨rfl, List.prefix_rfl, Function.update_of_ne hne _ _, rfl, rfl⟩⟩
  | unwatch c answered =>
      cases hg
      exact ⟨h.setWatched _ _, fun other hne =>
        ⟨rfl, List.prefix_rfl, Function.update_of_ne hne _ _, rfl, rfl⟩⟩

/-! ## What an attempt knows -/

/-- The call that started at `s₀` has not executed a transaction yet. -/
structure Started (caller : Caller) (s₀ t : World) : Prop where
  inventory : t.inventory = s₀.inventory
  committed : s₀.committed <+: t.committed
  commits : t.commits caller = s₀.commits caller

/-- The revision is watched since the transaction number `w₀`. -/
structure Attempt (caller : Caller) (s₀ : World) (w₀ : Nat) (t : World) : Prop
    extends Started caller s₀ t where
  watched : (WatchKey.revision, w₀) ∈ t.watched caller
  since : s₀.past.length ≤ w₀

/-- The connections were read after the revision `rv`, and when no transaction came in
between, they are those of one committed state. -/
structure Loaded (caller : Caller) (s₀ : World) (w₀ rv : Nat) (current : Dict String ConnectionConfig)
    (t : World) : Prop extends Attempt caller s₀ w₀ t where
  revision : w₀ ≤ rv ∧ rv ≤ (t.loads caller).1
  snapshot : (t.loads caller).1 = (t.loads caller).2 → ∃ db,
    t.committed[(t.loads caller).1]? = some db ∧ current = ConnectionTable.load db.connections

variable {caller : Caller} {s₀ s t : World} {w₀ rv : Nat} {allow : Op → World → Prop}

theorem getElem?_of_prefix {α : Type} {l l' : List α} (h : l <+: l') {n : Nat} {a : α}
    (hn : l[n]? = some a) : l'[n]? = some a := by
  obtain ⟨hlt, rfl⟩ := List.getElem?_eq_some_iff.mp hn
  exact List.prefix_iff_getElem?.mp h n hlt

theorem Started.keeps (h : Started caller s₀ s) (hk : Keeps caller s t) : Started caller s₀ t :=
  ⟨hk.inventory.trans h.inventory, h.committed.trans hk.committed, hk.commits.trans h.commits⟩

theorem Attempt.keeps (h : Attempt caller s₀ w₀ s) (hk : Keeps caller s t) :
    Attempt caller s₀ w₀ t :=
  ⟨h.toStarted.keeps hk, hk.watched ▸ h.watched, h.since⟩

theorem Loaded.keeps {current : Dict String ConnectionConfig} (h : Loaded caller s₀ w₀ rv current s)
    (hk : Keeps caller s t) : Loaded caller s₀ w₀ rv current t := by
  refine ⟨h.toAttempt.keeps hk, hk.loads ▸ h.revision, fun heq => ?_⟩
  rw [hk.loads] at heq ⊢
  obtain ⟨db, hdb, hcur⟩ := h.snapshot heq
  exact ⟨db, getElem?_of_prefix hk.committed hdb, hcur⟩

theorem World.committed_current (w : World) : w.committed[w.past.length]? = some w.db := by
  simp [World.committed]

/-- A command that raises on its fault. -/
theorem safe_send {α : Type} {post : Except Raised α → World → Prop} {o : Op}
    {k : o.Reply → Commit α} (hguard : ∀ t, Inv t → Keeps caller s t → Guard caller o t)
    (hfault : ∀ fault t, post (.error (.ofFault fault)) t)
    (hok : ∀ t choice, Inv t → Keeps caller s t → allow o t →
      Safe exec (contract allow caller) post (k (o.execute t choice).1) (o.execute t choice).2) :
    Safe exec (contract allow caller) post (send o >>= k) s := by
  intro t ht hst
  refine ⟨hguard t ht hst, fun choice hallow => ?_⟩
  rcases exec_cases o choice t with he | ⟨fault, he | he⟩
  · rw [he]; exact hok t choice ht hst hallow
  · rw [he]; exact fun u _ _ => hfault fault u
  · rw [he]; exact fun u _ _ => hfault fault u

/-! ## Loading the connections -/

theorem keys_filterMap (table : ConnectionTable) :
    (table.keys.filterMap fun id => (table[id]?).map fun c => (id, c)) = table.toList := by
  rw [← ExtTreeMap.map_fst_toList_eq_keys, List.filterMap_map]
  refine (List.filterMap_congr fun entry hentry => ?_).trans (List.filterMap_some)
  have hget : table[entry.1]? = some entry.2 :=
    ExtTreeMap.mem_toList_iff_getElem?_eq_some.mp hentry
  simp [Function.comp, hget]

theorem insertionSort_keys (table : ConnectionTable) :
    table.keys.insertionSort (· ≤ ·) = table.keys := by
  refine List.Pairwise.insertionSort_eq ?_
  refine (ExtTreeMap.ordered_keys (t := table)).imp fun h => ?_
  exact Std.le_of_lt (compareOfLessAndEq_eq_lt.mp h)

theorem entries_set_of_fresh {d : Dict String ConnectionConfig} {id : String} {c : ConnectionConfig}
    (h : id ∉ d.keys) : (d.set id c).entries = d.entries ++ [(id, c)] := by
  unfold Dict.set
  rw [dif_neg h]

/-- The rest of the loading loop: what was read so far and the state that the keys come
from account for all of that state's entries. -/
structure Loading (caller : Caller) (s₀ : World) (w₀ rv : Nat) (rest : List String)
    (current : Dict String ConnectionConfig) (t : World) : Prop extends Attempt caller s₀ w₀ t where
  revision : w₀ ≤ rv ∧ rv ≤ (t.loads caller).1
  snapshot : (t.loads caller).1 = (t.loads caller).2 → ∃ db,
    t.committed[(t.loads caller).1]? = some db ∧
    current.entries ++ rest.filterMap (fun id => (db.connections[id]?).map fun c => (id, c)) =
      db.connections.toList

theorem Loading.keeps {rest : List String} {current : Dict String ConnectionConfig}
    (h : Loading caller s₀ w₀ rv rest current s) (hk : Keeps caller s t) :
    Loading caller s₀ w₀ rv rest current t := by
  refine ⟨h.toAttempt.keeps hk, hk.loads ▸ h.revision, fun heq => ?_⟩
  rw [hk.loads] at heq ⊢
  obtain ⟨db, hdb, hcur⟩ := h.snapshot heq
  exact ⟨db, getElem?_of_prefix hk.committed hdb, hcur⟩

/-- The state of an attempt after a connection read. -/
def World.read (w : World) (caller : Caller) (first : Nat) : World :=
  { w with loads := Function.update w.loads caller (first, w.past.length) }

theorem Attempt.read (h : Attempt caller s₀ w₀ t) (first : Nat) :
    Attempt caller s₀ w₀ (t.read caller first) :=
  ⟨⟨h.inventory, h.committed, h.commits⟩, h.watched, h.since⟩

theorem Loading.next {id : String} {rest : List String} {current : Dict String ConnectionConfig}
    (hinv : Inv t) (h : Loading caller s₀ w₀ rv (id :: rest) current t) :
    Loading caller s₀ w₀ rv rest
      (match t.db.connections[id]? with | some c => current.set id c | none => current)
      (t.read caller (t.loads caller).1) := by
  refine ⟨h.toAttempt.read _, by simpa [World.read] using h.revision, fun heq => ?_⟩
  simp only [World.read, Function.update_self] at heq ⊢
  -- the counts only grow, so the earlier reads saw the current state as well
  have hloads := hinv.loads caller
  obtain ⟨db, hdb, hall⟩ := h.snapshot (by omega)
  have hcur : t.db = db := by
    rw [heq, t.committed_current] at hdb
    exact Option.some.inj hdb
  subst hcur
  refine ⟨t.db, by rw [heq]; exact t.committed_current, ?_⟩
  cases hc : t.db.connections[id]? with
  | none => rwa [List.filterMap_cons_none (by simp [hc])] at hall
  | some c =>
      rw [List.filterMap_cons_some (b := (id, c)) (by simp [hc])] at hall
      have hfresh : id ∉ current.keys := by
        have hnodup := (ConnectionTable.load t.db.connections).nodup
        simp only [ConnectionTable.load, ← hall, List.map_append, List.map_cons] at hnodup
        intro hmem
        exact (List.nodup_append.mp hnodup).2.2 id hmem id (by simp) rfl
      dsimp only
      rw [entries_set_of_fresh hfresh, List.append_assoc]
      exact hall

theorem Loading.done {current : Dict String ConnectionConfig}
    (h : Loading caller s₀ w₀ rv [] current t) : Loaded caller s₀ w₀ rv current t := by
  refine ⟨h.toAttempt, h.revision, fun heq => ?_⟩
  obtain ⟨db, hdb, hall⟩ := h.snapshot heq
  refine ⟨db, hdb, ?_⟩
  simp only [List.filterMap_nil, List.append_nil] at hall
  cases current
  simp only [ConnectionTable.load, Dict.mk.injEq]
  exact hall

/-- The result of a stage: its fact on an answer, nothing promised after a fault. -/
def Stage {α : Type} (fact : Except SetError α → World → Prop) : Except Raised α → World → Prop
  | .ok a, t => fact (.ok a) t
  | .error (.service e), t => fact (.error e) t
  | .error .watchError, _ => False
  | .error .timeout, _ => True
  | .error .redisError, _ => True

theorem stage_fault {α : Type} (fact : Except SetError α → World → Prop) (fault : Fault) (t : World) :
    Stage fact (.error (.ofFault fault)) t := by
  cases fault <;> trivial

def LoadedOk (caller : Caller) (s₀ : World) (w₀ rv : Nat) :
    Except SetError (Dict String ConnectionConfig) → World → Prop
  | .ok current, t => Loaded caller s₀ w₀ rv current t
  | .error _, _ => False

theorem safe_loadEach {rest : List String} {current : Dict String ConnectionConfig}
    (h : Loading caller s₀ w₀ rv rest current s) :
    Safe exec (contract allow caller) (Stage (LoadedOk caller s₀ w₀ rv))
      (loadEach caller rest current) s := by
  induction rest generalizing current s with
  | nil => exact fun t _ hst => (h.keeps hst).done
  | cons id rest ih =>
      refine safe_send (fun _ _ _ => rfl) (stage_fault _) fun t choice ht hst _ => ?_
      have hnext := (h.keeps hst).next ht
      cases hc : t.db.connections[id]? with
      | none =>
          simp only [Op.execute, hc]
          simp only [hc] at hnext
          exact ih hnext
      | some c =>
          simp only [Op.execute, hc]
          simp only [hc] at hnext
          exact ih hnext

theorem safe_loadConnections (h : Attempt caller s₀ w₀ s) (hw : w₀ ≤ rv) (hrv : rv ≤ s.past.length) :
    Safe exec (contract allow caller) (Stage (LoadedOk caller s₀ w₀ rv)) (loadConnections caller) s := by
  refine safe_send (fun _ _ _ => rfl) (stage_fault _) fun t choice ht hst _ => ?_
  have hle := past_length_le hst.committed
  refine safe_loadEach ⟨(h.keeps hst).read t.past.length, ?_, fun _ => ⟨t.db, ?_, ?_⟩⟩
  · simp only [Op.execute, Function.update_self]
    omega
  · simp only [Op.execute, Function.update_self]
    exact t.committed_current
  · simp only [Op.execute, insertionSort_keys, keys_filterMap]
    rfl

/-! ## The fixed inventory -/

/-- A fact that survives the other callers and pins the inventory. -/
structure Stable (caller : Caller) (inventory : Inventory) (F : World → Prop) : Prop where
  keeps : ∀ s t, F s → Keeps caller s t → F t
  inventory : ∀ t, F t → t.inventory = inventory

theorem safe_loadPortCounts {F : World → Prop} {inventory : Inventory}
    (hF : Stable caller inventory F) (h : F s) (device : String) :
    Safe exec (contract allow caller)
      (Stage fun r t => F t ∧ r = portCounts device inventory.fields) (loadPortCounts device) s := by
  refine safe_send (fun _ _ _ => trivial) (stage_fault _) fun t choice _ hst _ => ?_
  have ht := hF.keeps s t h hst
  simp only [Op.execute, hF.inventory t ht]
  cases hc : portCounts device inventory.fields with
  | ok counts => exact fun u _ hu => ⟨hF.keeps t u ht hu, rfl⟩
  | error e => exact fun u _ hu => ⟨hF.keeps t u ht hu, rfl⟩

theorem safe_validateEach {F : World → Prop} {inventory : Inventory}
    (hF : Stable caller inventory F) (h : F s) (pairs : List (Nat × Nat)) :
    Safe exec (contract allow caller)
      (Stage fun r t => F t ∧ r = checkAllPorts inventory pairs) (validateEach pairs) s := by
  induction pairs generalizing s with
  | nil => exact fun u _ hu => ⟨hF.keeps s u h hu, rfl⟩
  | cons pair rest ih =>
      refine safe_send (fun _ _ _ => trivial) (stage_fault _) fun t choice _ hst _ => ?_
      have ht := hF.keeps s t h hst
      refine safe_send (fun _ _ _ => trivial) (stage_fault _) fun u choice' _ htu _ => ?_
      have hu := hF.keeps t u ht htu
      simp only [Op.execute, hF.inventory t ht, hF.inventory u hu, checkAllPorts]
      cases checkPorts pair (inventory.portAdminStatus .input pair.1)
          (inventory.portAdminStatus .output pair.2) with
      | ok _ => exact ih hu
      | error e => exact fun v _ hv => ⟨hF.keeps u v hu hv, rfl⟩

theorem safe_validatePortsEnabled {F : World → Prop} {inventory : Inventory}
    (hF : Stable caller inventory F) (h : F s)
    (hwatch : ∀ t keys, F t → F (t.setWatched caller (t.watched caller ++ keys)))
    (connections : List ConnectionConfig) :
    Safe exec (contract allow caller)
      (Stage fun r t => F t ∧ r = checkAllPorts inventory (portPairs connections))
      (validatePortsEnabled caller connections) s := by
  unfold validatePortsEnabled
  dsimp only
  split_ifs
  · exact safe_validateEach hF h _
  · refine safe_send (fun _ _ _ => rfl) (stage_fault _) fun t choice _ hst _ => ?_
    exact safe_validateEach hF (hwatch t _ (hF.keeps s t h hst)) _

/-! ## One attempt -/

/-- The errors that tell the client why its request was refused. -/
def SetError.isRejection : SetError → Bool
  | .invalidArgument _ | .conflict _ | .notFound _ => true
  | _ => false

/-- The states that were committed at some moment from `s₀` to `t`. -/
def World.committedSince (s₀ t : World) : List ConfigDb := t.committed.drop s₀.past.length

/-- What holds when a call that started at `s₀` ends. The last clause of each case is the
justification of the answer by one committed state; an answer without a transaction has one
when its reads are settled. -/
def Outcome (settled : Prop) (caller : Caller) (s₀ : World) :
    Except Raised SetCommitResult → World → Prop
  | .ok result, t =>
      (result.candidate.changes = [] → t.commits caller = s₀.commits caller) ∧
      (settled ∨ result.candidate.changes ≠ [] →
        ∃ db ∈ s₀.committedSince t, ∃ candidate,
          evaluate s₀.inventory caller.plan result.timestampNs db = .ok candidate ∧
          candidate.changes = result.candidate.changes)
  | .error (.service e), t => e.isRejection = true →
      t.commits caller = s₀.commits caller ∧
      (settled → ∃ db ∈ s₀.committedSince t, ∀ timestampNs,
        evaluate s₀.inventory caller.plan timestampNs db = .error e)
  | .error .watchError, t => Started caller s₀ t
  | .error _, _ => True

theorem mem_committedSince {n : Nat} {db : ConfigDb} (hn : s₀.past.length ≤ n)
    (h : t.committed[n]? = some db) : db ∈ s₀.committedSince t := by
  refine List.mem_iff_getElem?.mpr ⟨n - s₀.past.length, ?_⟩
  rw [World.committedSince, List.getElem?_drop, Nat.add_sub_cancel' hn]
  exact h

theorem Loaded.watch {current : Dict String ConnectionConfig}
    (h : Loaded caller s₀ w₀ rv current t) (keys : List (WatchKey × Nat)) :
    Loaded caller s₀ w₀ rv current (t.setWatched caller (t.watched caller ++ keys)) :=
  ⟨⟨⟨h.inventory, h.committed, h.commits⟩, by simp [World.setWatched, h.watched], h.since⟩,
    h.revision, h.snapshot⟩

theorem Loaded.stable (current : Dict String ConnectionConfig) :
    Stable caller s₀.inventory (Loaded caller s₀ w₀ rv current) :=
  ⟨fun _ _ h hk => h.keeps hk, fun _ h => h.inventory⟩

/-- A clean watch pins everything that was read to the current state. -/
theorem Loaded.clean {current : Dict String ConnectionConfig} (hinv : Inv t)
    (h : Loaded caller s₀ w₀ rv current t) (hclean : t.clean caller = true) :
    current = ConnectionTable.load t.db.connections ∧ rv = t.db.revision.getD 0 := by
  have hstamp : t.stamps .revision = w₀ := by
    have := List.all_eq_true.mp hclean _ h.watched
    simpa using this
  have hloads := hinv.loads caller
  have hrev := h.revision
  rw [hinv.stamp] at hstamp
  obtain ⟨db, hdb, hcur⟩ := h.snapshot (by omega)
  have hfirst : (t.loads caller).1 = t.past.length := by omega
  rw [hfirst, t.committed_current] at hdb
  cases hdb
  refine ⟨hcur, ?_⟩
  rw [hinv.serial.revision, ← hinv.length]
  omega

/-- A settled read answers as one committed state does. -/
theorem Loaded.answer {current : Dict String ConnectionConfig}
    (h : Loaded caller s₀ w₀ rv current t) (hset : (t.loads caller).1 = (t.loads caller).2) :
    ∃ db ∈ s₀.committedSince t, current = ConnectionTable.load db.connections := by
  obtain ⟨db, hdb, hcur⟩ := h.snapshot hset
  have hsince := h.since
  have hrev := h.revision
  exact ⟨db, mem_committedSince (by omega) hdb, hcur⟩

/-- A service error before the pipeline is reset. -/
def Refused (caller : Caller) (s₀ : World) (e : SetError) (t : World) : Prop :=
  Started caller s₀ t ∧ ((t.loads caller).1 = (t.loads caller).2 →
    ∃ db ∈ s₀.committedSince t, ∀ timestampNs,
      evaluate s₀.inventory caller.plan timestampNs db = .error e)

theorem Loaded.refused {current : Dict String ConnectionConfig}
    (h : Loaded caller s₀ w₀ rv current t) (timestampNs : Nat) {e : SetError}
    (he : evaluateOn s₀.inventory caller.plan timestampNs current (rv + 1) = .error e) :
    Refused caller s₀ e t := by
  refine ⟨h.toStarted, fun hset => ?_⟩
  obtain ⟨db, hmem, hcur⟩ := h.answer hset
  refine ⟨db, hmem, fun ts => ?_⟩
  rw [hcur] at he
  unfold evaluate
  rcases evaluateOn_stamp rv (db.revision.getD 0) timestampNs ts with ⟨e', h1, h2⟩ |
    ⟨c, c', h1, -, -⟩
  · rw [h1] at he
    rw [h2]
    exact he
  · rw [h1] at he
    cases he

theorem committedSince_mono (h : s.committed <+: t.committed) {db : ConfigDb}
    (hdb : db ∈ s₀.committedSince s) : db ∈ s₀.committedSince t :=
  (List.IsPrefix.drop h s₀.past.length).subset hdb

theorem Refused.keeps {e : SetError} (h : Refused caller s₀ e s) (hk : Keeps caller s t) :
    Refused caller s₀ e t := by
  refine ⟨h.1.keeps hk, fun hset => ?_⟩
  rw [hk.loads] at hset
  obtain ⟨db, hmem, hev⟩ := h.2 hset
  exact ⟨db, committedSince_mono hk.committed hmem, hev⟩

/-- What the body of the pipeline context leaves behind. -/
def BodyPost (settled : Prop) (caller : Caller) (s₀ : World) :
    Except Raised SetCommitResult → World → Prop
  | .ok result, t => Outcome settled caller s₀ (.ok result) t
  | .error (.service e), t => Refused caller s₀ e t
  | .error .watchError, t => Started caller s₀ t
  | .error _, _ => True

theorem body_fault (settled : Prop) (s₀ : World) (fault : Fault) (t : World) :
    BodyPost settled caller s₀ (.error (.ofFault fault)) t := by
  cases fault <;> trivial

theorem Outcome.keeps_ok {settled : Prop} {result : SetCommitResult}
    (h : Outcome settled caller s₀ (.ok result) s) (hk : Keeps caller s t) :
    Outcome settled caller s₀ (.ok result) t := by
  refine ⟨fun hnil => hk.commits.trans (h.1 hnil), fun hs => ?_⟩
  obtain ⟨db, hmem, hev⟩ := h.2 hs
  exact ⟨db, committedSince_mono hk.committed hmem, hev⟩

/-- The part of the body after all reads: the answer is that of the connections it read. -/
theorem safe_conclude {settled : Prop} (hallow : settled → ∀ o w, allow o w → Settled o w)
    {current : Dict String ConnectionConfig} (h : Loaded caller s₀ w₀ rv current s)
    (hdev : caller.plan.device = s₀.inventory.device) {timestampNs : Nat}
    {candidate : CandidateMutation}
    (hcand : evaluateOn s₀.inventory caller.plan timestampNs current (rv + 1) = .ok candidate) :
    Safe exec (contract allow caller) (BodyPost settled caller s₀)
      (if candidate.changes.isEmpty then
        send (.unwatch caller true) >>= fun _ => .pure ⟨timestampNs, caller.plan.operations, candidate⟩
      else
        send .uuid >>= fun eventId =>
        send (.exec caller candidate.changes candidate.revision
          (eventFields caller.plan eventId candidate.revision candidate.timestampNs
            candidate.changes)) >>= fun committed =>
        if committed then .pure ⟨timestampNs, caller.plan.operations, candidate⟩
        else .throw .watchError) s := by
  split_ifs with hnil
  · refine safe_send (fun _ _ _ => rfl) (body_fault _ _) fun t choice ht hst hal => ?_
    have hl := h.keeps hst
    rw [List.isEmpty_iff] at hnil
    suffices hout : Outcome settled caller s₀
        (.ok ⟨timestampNs, caller.plan.operations, candidate⟩) (t.setWatched caller []) from
      fun u _ hu => hout.keeps_ok hu
    refine ⟨fun _ => hl.commits, fun hs => ?_⟩
    have hsettled : (t.loads caller).1 = (t.loads caller).2 :=
      hallow (hs.resolve_right (not_not.mpr hnil)) _ _ hal
    obtain ⟨db, hmem, hcur⟩ := hl.answer hsettled
    rw [hcur] at hcand
    rcases evaluateOn_stamp rv (db.revision.getD 0) timestampNs timestampNs with ⟨e, h1, -⟩ |
      ⟨c, c', h1, h2, h3⟩
    · rw [h1] at hcand
      cases hcand
    · rw [h1] at hcand
      cases hcand
      exact ⟨db, hmem, c', h2, by rw [h3 hnil, hnil]⟩
  · refine safe_send (fun _ _ _ => trivial) (body_fault _ _) fun t choice ht hst _ => ?_
    have hl : Loaded caller s₀ w₀ rv current (Op.execute t choice .uuid).2 :=
      have hk := h.keeps hst
      ⟨⟨⟨hk.inventory, hk.committed, hk.commits⟩, hk.watched, hk.since⟩, hk.revision, hk.snapshot⟩
    -- a clean watch makes the candidate that of the current state
    have hpin : ∀ u, Inv u → Loaded caller s₀ w₀ rv current u → u.clean caller = true →
        evaluate u.inventory caller.plan timestampNs u.db = .ok candidate := by
      intro u hu hlu hclean
      obtain ⟨hcur, hrv⟩ := hlu.clean hu hclean
      unfold evaluate
      rw [hlu.inventory, ← hcur, ← hrv]
      exact hcand
    refine safe_send ?_ (body_fault _ _) fun u choice' hu htu _ => ?_
    · intro u hu htu
      refine ⟨rfl, fun hclean => ⟨?_, timestampNs, _, candidate, ?_, rfl, rfl, rfl⟩⟩
      · rw [(hl.keeps htu).inventory]; exact hdev
      · exact hpin u hu (hl.keeps htu) hclean
    · have hlu := hl.keeps htu
      cases hclean : u.clean caller with
      | true =>
          simp only [Op.execute, hclean, ↓reduceIte]
          suffices hout : Outcome settled caller s₀
              (.ok ⟨timestampNs, caller.plan.operations, candidate⟩)
              (u.transact caller candidate.changes candidate.revision
                (eventFields caller.plan t.uuids candidate.revision candidate.timestampNs
                  candidate.changes)) from
            fun v _ hv => hout.keeps_ok hv
          refine ⟨fun hnil' => ?_, fun _ => ?_⟩
          · exact absurd (List.isEmpty_iff.mpr hnil') hnil
          · refine ⟨u.db, ?_, candidate, ?_, rfl⟩
            · refine mem_committedSince (past_length_le hlu.committed) ?_
              simp [World.committed, World.transact]
            · rw [← hlu.inventory]; exact hpin u hu hlu hclean
      | false =>
          simp only [Op.execute, hclean, Bool.false_eq_true, ↓reduceIte]
          have hstarted : Started caller s₀ (u.setWatched caller []) :=
            ⟨hlu.inventory, hlu.committed, hlu.commits⟩
          exact fun v _ hv => hstarted.keeps hv

theorem safe_commitBody {settled : Prop} (hallow : settled → ∀ o w, allow o w → Settled o w)
    (h : Started caller s₀ s) (hdev : caller.plan.device = s₀.inventory.device) :
    Safe exec (contract allow caller) (BodyPost settled caller s₀) (commitBody caller) s := by
  refine safe_send (fun _ _ _ => rfl) (body_fault _ _) fun t choice ht hst _ => ?_
  have hatt : Attempt caller s₀ t.past.length (Op.execute t choice
      (.watch caller [.revision, .device])).2 := by
    have hk := h.keeps hst
    refine ⟨⟨hk.inventory, hk.committed, hk.commits⟩, ?_, ?_⟩
    · simp [Op.execute, World.setWatched, ht.stamp]
    · exact past_length_le hk.committed
  refine safe_send (fun _ _ _ => trivial) (body_fault _ _) fun u choice hu htu _ => ?_
  have hle : t.past.length ≤ u.past.length := past_length_le htu.committed
  have hrv : (u.db.revision.getD 0) = u.past.length := hu.serial.revision.trans hu.length.symm
  simp only [Op.execute, hrv]
  refine Safe.bind (safe_loadConnections (hatt.keeps htu) hle le_rfl) ?_ ?_
  · intro current v _ hl
    refine Safe.bind (safe_loadPortCounts (Loaded.stable current) hl caller.plan.device) ?_ ?_
    · rintro counts v _ ⟨hl, hcounts⟩
      refine safe_send (fun _ _ _ => trivial) (body_fault _ _) fun x choice hx hvx _ => ?_
      have hlx := hl.keeps hvx
      simp only [Op.execute]
      cases hbuild : buildCandidate ⟨current, u.past.length + 1, choice, counts.1, counts.2⟩
          caller.plan with
      | error e =>
          intro y _ hy
          refine (hlx.refused choice ?_).keeps hy
          simp only [evaluateOn, ← hcounts, hbuild]
      | ok candidate =>
          refine Safe.bind (safe_validatePortsEnabled (Loaded.stable current) hlx
            (fun t keys ht => ht.watch keys) candidate.connections) ?_ ?_
          · rintro ⟨⟩ y _ ⟨hly, hports⟩
            refine safe_conclude hallow hly hdev ?_
            simp only [evaluateOn, ← hcounts, hbuild, ← hports]
          · rintro e y _ hy
            cases e with
            | service e =>
                obtain ⟨hly, hports⟩ := hy
                refine hly.refused choice ?_
                simp only [evaluateOn, ← hcounts, hbuild, ← hports]
            | watchError => cases hy
            | timeout => trivial
            | redisError => trivial
    · rintro e v _ hv
      cases e with
      | service e =>
          obtain ⟨hl, hcounts⟩ := hv
          refine hl.refused 0 ?_
          simp only [evaluateOn, ← hcounts]
      | watchError => cases hv
      | timeout => trivial
      | redisError => trivial
  · rintro e v _ hv
    cases e with
    | service e => cases hv
    | watchError => cases hv
    | timeout => trivial
    | redisError => trivial

/-! ## The whole call -/

theorem Refused.outcome {settled : Prop} {e : SetError} (h : Refused caller s₀ e t)
    (hset : settled → (t.loads caller).1 = (t.loads caller).2) :
    Outcome settled caller s₀ (.error (.service e)) t :=
  fun _ => ⟨h.1.commits, fun hs => h.2 (hset hs)⟩

theorem Outcome.keeps {settled : Prop} {r : Except Raised SetCommitResult}
    (h : Outcome settled caller s₀ r s) (hk : Keeps caller s t) : Outcome settled caller s₀ r t := by
  rcases r with (e | _ | _ | _) | result
  · intro hrej
    obtain ⟨hcommits, hjust⟩ := h hrej
    refine ⟨hk.commits.trans hcommits, fun hs => ?_⟩
    obtain ⟨db, hmem, hev⟩ := hjust hs
    exact ⟨db, committedSince_mono hk.committed hmem, hev⟩
  · exact Started.keeps h hk
  · trivial
  · trivial
  · exact Outcome.keeps_ok h hk

theorem safe_resetPipeline {settled : Prop} (hallow : settled → ∀ o w, allow o w → Settled o w)
    {raised : Raised} (h : BodyPost settled caller s₀ (.error raised) s) :
    Safe exec (contract allow caller) (Outcome settled caller s₀) (resetPipeline caller raised) s := by
  cases raised with
  | watchError => exact fun t _ hst => Started.keeps h hst
  | service e =>
      intro t ht hst
      refine ⟨rfl, fun choice hal => ?_⟩
      have href : Refused caller s₀ e t := Refused.keeps h hst
      have hout := href.outcome fun hs => hallow hs _ _ hal
      rcases exec_cases (.unwatch caller true) choice t with he | ⟨fault, he | he⟩
      · rw [he]
        exact fun u _ hu => Outcome.keeps (s := t.setWatched caller []) hout hu
      · rw [he]
        cases fault with
        | timeout => exact fun _ _ _ => trivial
        | failure => exact fun u _ hu => hout.keeps hu
      · rw [he]
        cases fault with
        | timeout => exact fun _ _ _ => trivial
        | failure => exact fun u _ hu => Outcome.keeps (s := t.setWatched caller []) hout hu
  | timeout =>
      intro t _ _
      refine ⟨rfl, fun choice _ => ?_⟩
      dsimp only
      split <;> exact fun _ _ _ => trivial
  | redisError =>
      intro t _ _
      refine ⟨rfl, fun choice _ => ?_⟩
      dsimp only
      split <;> exact fun _ _ _ => trivial

theorem safe_commitOnce {settled : Prop} (hallow : settled → ∀ o w, allow o w → Settled o w)
    (h : Started caller s₀ s) (hdev : caller.plan.device = s₀.inventory.device) :
    Safe exec (contract allow caller) (Outcome settled caller s₀) (commitOnce caller) s :=
  Safe.tryCatch (safe_commitBody hallow h hdev) (fun _ _ _ hp => hp)
    fun _ _ _ hp => safe_resetPipeline hallow hp

theorem safe_commitCandidate {settled : Prop} (hallow : settled → ∀ o w, allow o w → Settled o w)
    (h : Started caller s₀ s) (hdev : caller.plan.device = s₀.inventory.device) (retries : Nat) :
    Safe exec (contract allow caller) (Outcome settled caller s₀) (commitCandidate caller retries) s := by
  induction retries generalizing s with
  | zero => exact fun t _ _ hrej => absurd hrej (by simp [SetError.isRejection])
  | succ retries ih =>
      refine Safe.tryCatch (safe_commitOnce hallow h hdev) (fun _ _ _ hp => hp) ?_
      intro raised t _ hp
      cases raised with
      | service e => exact fun u _ hu => Outcome.keeps hp hu
      | watchError => exact ih hp
      | timeout => exact fun t _ _ hrej => absurd hrej (by simp [SetError.isRejection])
      | redisError => exact fun t _ _ hrej => absurd hrej (by simp [SetError.isRejection])

theorem safe_countRejected {settled : Prop} {raised : Raised}
    (h : Outcome settled caller s₀ (.error raised) s) :
    Safe exec (contract allow caller) (Outcome settled caller s₀) (countRejected raised) s := by
  intro t _ hst
  refine ⟨trivial, fun choice _ => ?_⟩
  have hk : Keeps caller s (exec (.hincrby .rejected) choice t).2 := by
    rcases exec_cases (.hincrby .rejected) choice t with he | ⟨fault, he | he⟩
    · rw [he]; exact hst.trans ⟨rfl, List.prefix_rfl, rfl, rfl, rfl⟩
    · rw [he]; exact hst
    · rw [he]; exact hst.trans ⟨rfl, List.prefix_rfl, rfl, rfl, rfl⟩
  exact fun u _ hu => (h.keeps hk).keeps hu

theorem safe_commit {settled : Prop} (hallow : settled → ∀ o w, allow o w → Settled o w)
    (maxWatchRetries : Nat) (hdev : caller.plan.device = s₀.inventory.device) :
    Safe exec (contract allow caller) (Outcome settled caller s₀)
      (commit maxWatchRetries caller) s₀ := by
  intro t _ hst
  have hstarted : Started caller s₀ t := ⟨hst.inventory, hst.committed, hst.commits⟩
  refine ⟨trivial, fun choice _ => ?_⟩
  rcases exec_cases (.hincrby .requests) choice t with he | ⟨fault, he | he⟩
  · rw [he]
    refine Safe.tryCatch (safe_commitCandidate hallow ?_ hdev maxWatchRetries) (fun _ _ _ hp => hp)
      fun _ _ _ hp => safe_countRejected hp
    exact ⟨hstarted.inventory, hstarted.committed, hstarted.commits⟩
  · rw [he]
    cases fault <;> exact fun t _ _ hrej => absurd hrej (by simp [SetError.isRejection])
  · rw [he]
    cases fault <;> exact fun t _ _ hrej => absurd hrej (by simp [SetError.isRejection])

theorem gnmi_verified {settled : Prop} (hallow : settled → ∀ o w, allow o w → Settled o w)
    (maxWatchRetries : Nat) :
    Verified (gnmi maxWatchRetries allow) Inv (contract allow) (Outcome settled) where
  inv _ _ h := h
  allow _ _ _ _ h := h
  init := by
    rintro w ⟨inventory, rfl⟩
    exact ⟨Serial.init inventory, rfl, rfl, fun _ => ⟨le_rfl, le_rfl⟩⟩
  starts := by
    rintro caller w p - ⟨hdev, rfl⟩
    exact safe_commit hallow maxWatchRetries hdev
  call := by
    intro caller o choice w hinv hg _
    obtain ⟨hinv', hkeep⟩ := execute_keeps hinv hg choice
    rcases exec_cases o choice w with he | ⟨fault, he | he⟩
    · simp only [gnmi, he]; exact ⟨hinv', hkeep⟩
    · simp only [gnmi, he]; exact ⟨hinv, fun other _ => Keeps.refl other w⟩
    · simp only [gnmi, he]; exact ⟨hinv', hkeep⟩
  crash := by
    intro caller w hinv _
    exact ⟨hinv.setWatched _ _, fun other hne =>
      ⟨rfl, List.prefix_rfl, Function.update_of_ne hne _ _, rfl, rfl⟩⟩
  env := by
    intro s t _ h
    cases h

end MiniOcs.Gnmi
