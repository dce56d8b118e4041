import MiniOcs.Gnmi.Log
import MiniOcs.Orch.Contract

/-!
# Streams, markers and versions

What holds of a single orchestrator in every run, whatever the results and timeouts are: at
most one entry of a stream is in flight, markers belong to delivered entries, prepared batches
are parts of their events, and no application is newer than the events delivered so far.
-/
namespace MiniOcs.Orch
open Std Concurrent

structure Tidy (w : World) : Prop where
  log : Gnmi.Log w.inventory w.config
  serial : ∀ g, (w.orch.group g).Serial
  within : ∀ g, (w.orch.group g).delivered ≤ (w.stream g).length
  resultIds : ∀ (i j : Nat) (a b : ResultEvent), w.syncd.results[i]? = some a →
    w.syncd.results[j]? = some b → a.id = b.id → i = j
  retryIds : ∀ (i j : Nat) (a b : RetryEvent), w.orch.retries[i]? = some a →
    w.orch.retries[j]? = some b → a.id.failed = b.id.failed → i = j
  retryPublished : ∀ y ∈ w.orch.retries, (w.orch.hash (.retryPublication y.id.failed)).isSome
  prepared : ∀ e (payload : DeviceCommandBatch),
    w.orch.hash (.configBatch (.config e)) = some payload →
      ∃ n event, n < w.orch.configGroup.delivered ∧ w.config.events[n]? = some event ∧
        event.eventId = e ∧ payload.commands.Sublist event.commands ∧ payload.commands ≠ [] ∧
        payload.options = {}
  knownResult : ∀ r, (w.orch.hash (.resultDevicePublication r)).isSome →
    ∃ n result, n < w.orch.resultGroup.delivered ∧ w.syncd.results[n]? = some result ∧ result.id = r
  knownRetry : ∀ y, (w.orch.hash (.retryApplicationPublication y)).isSome →
    ∃ n retry, n < w.orch.retryGroup.delivered ∧ w.orch.retries[n]? = some retry ∧ retry.id = y
  clock : ∀ (id : String) (a : Application), w.orch.appl[id]? = some a →
    a.desiredVersion ≤ w.orch.configGroup.delivered

/-! ## Decoding a committed event -/

theorem decodeCommand_of_removes {command : ConnectionCommand}
    (h : command.operation = .remove → command.inputPort = 0 ∧ command.outputPort = 0) :
    decodeCommand command = command := by
  unfold decodeCommand
  cases hop : command.operation with
  | upsert => rfl
  | remove =>
      obtain ⟨hi, ho⟩ := h hop
      cases command
      simp_all

/-- An event of the log decodes to its own members. -/
theorem decodeConfigBatchEvent_ok {inventory : Gnmi.Inventory} {before : List Gnmi.ConfigEvent}
    {event : Gnmi.ConfigEvent} {decoded : DeviceCommandBatch}
    (hok : Gnmi.EventOk inventory before event)
    (h : decodeConfigBatchEvent event = .ok decoded) : decoded = { commands := event.commands } := by
  unfold decodeConfigBatchEvent at h
  split_ifs at h
  cases hdec : decodeDeviceCommand { commands := event.commands } with
  | error e => rw [hdec] at h; cases h
  | ok batch =>
      rw [hdec] at h
      dsimp only at h
      split_ifs at h
      cases h
      obtain ⟨hb, -, -⟩ := decodeDeviceCommand_ok hdec
      rw [hb]
      congr 1
      rw [← List.map_id event.commands, List.map_map]
      refine List.map_congr_left fun c hc => ?_
      exact decodeCommand_of_removes fun hop =>
        ⟨(hok.removes c hc hop).1, (hok.removes c hc hop).2.1⟩

theorem selection_sublist {table : Table} {selected commands kept : List ConnectionCommand}
    (h : selection table selected commands = some kept) :
    ∃ part, kept = selected ++ part ∧ part.Sublist commands := by
  induction commands generalizing selected with
  | nil =>
      cases h
      exact ⟨[], (List.append_nil _).symm, List.Sublist.refl _⟩
  | cons command rest ih =>
      unfold selection at h
      split_ifs at h
      · obtain ⟨part, rfl, hsub⟩ := ih h
        exact ⟨part, rfl, hsub.cons command⟩
      · obtain ⟨part, rfl, hsub⟩ := ih h
        exact ⟨command :: part, by simp, hsub.cons_cons command⟩

/-! ## Versioned publications -/

theorem getElem?_putVersioned_cases (table : Table) (version : Nat)
    (hashes : List (String × Option Application)) (id : String) :
    (putVersioned table version hashes)[id]? = table[id]? ∨
      ∃ hash, (id, hash) ∈ hashes ∧ notNewer table version id ∧
        (putVersioned table version hashes)[id]? = hash := by
  have hfold : ∀ (entries : List (String × Option Application)) (t : Table),
      (entries.foldl (fun t entry => putEntry t entry.1 entry.2) t)[id]? = t[id]? ∨
        ∃ hash, (id, hash) ∈ entries ∧
          (entries.foldl (fun t entry => putEntry t entry.1 entry.2) t)[id]? = hash := by
    intro entries
    induction entries with
    | nil => exact fun t => .inl rfl
    | cons entry rest ih =>
        intro t
        rw [List.foldl_cons]
        rcases ih (putEntry t entry.1 entry.2) with heq | ⟨hash, hmem, heq⟩
        · rw [heq, getElem?_putEntry]
          split_ifs with hid
          · exact .inr ⟨entry.2, by subst hid; exact List.mem_cons_self, rfl⟩
          · exact .inl rfl
        · exact .inr ⟨hash, List.mem_cons_of_mem _ hmem, heq⟩
  rcases hfold (publishable table version hashes) table with heq | ⟨hash, hmem, heq⟩
  · exact .inl heq
  · obtain ⟨hm, hle⟩ := mem_publishable.mp hmem
    exact .inr ⟨hash, hm, hle, heq⟩

theorem resultDecision_publish {result : ResultEvent} {application : Application}
    {next : ConnectionApplyStatus} (h : resultDecision result application = .publish next) :
    result.desiredVersion = application.desiredVersion ∧ next = resultStatus result application ∧
      resultChecks result application.applyStatus next = .ok () ∧
      application.applyStatus ≠ .active ∧ application.applyStatus ≠ .absent := by
  unfold resultDecision at h
  dsimp only at h
  split_ifs at h with hstale hnewer
  cases hcheck : resultChecks result application.applyStatus
      (resultStatus result application) with
  | error e => rw [hcheck] at h; cases h
  | ok u =>
      rw [hcheck] at h
      cases h
      simp only [not_and, not_or, Nat.not_lt] at hstale hnewer
      have hle : result.desiredVersion ≤ application.desiredVersion := hnewer
      obtain ⟨hge, hactive, habsent, -⟩ := hstale hle
      exact ⟨Nat.le_antisymm hle hge, rfl, hcheck, hactive, habsent⟩

theorem resultApplication_version (result : ResultEvent) (next : ConnectionApplyStatus)
    (application : Application) :
    (resultApplication result next application).desiredVersion = application.desiredVersion := by
  unfold resultApplication
  dsimp only
  split_ifs <;> rfl

/-! ## Every action keeps the streams tidy -/

theorem Tidy.pending {w : World} (h : Tidy w) {g : OrchGroup} {n : Nat} {event : g.Entry}
    (hp : Pending w g n event) : (w.orch.group g).delivered = n + 1 :=
  (h.serial g n hp.mem).2

/-- At most one entry of a group is pending. -/
theorem Tidy.unique {w : World} (h : Tidy w) {g : OrchGroup} {n n' : Nat} {event event' : g.Entry}
    (hp : Pending w g n event) (hp' : Pending w g n' event') : event' = event := by
  have hn := (h.serial g n hp.mem).1
  have hmem := hp'.mem
  rw [hn, List.mem_singleton] at hmem
  have hget := hp'.get
  rw [hmem, hp.get] at hget
  exact (Option.some.inj hget).symm

/-- The version of a pending configuration event is the number of delivered events. -/
theorem Tidy.version {w : World} (h : Tidy w) {n : Nat} {event : Gnmi.ConfigEvent}
    (hp : Pending w .config n event) :
    event.desiredVersion = n + 1 ∧ w.orch.configGroup.delivered = n + 1 ∧
      ∀ c ∈ event.commands, c.desiredVersion = n + 1 :=
  ⟨(h.log.serial.versions n event hp.get).1, h.pending hp,
    (h.log.serial.versions n event hp.get).2⟩

/-- What the new marker must belong to. -/
def markKnown (w : World) : (k : OrchKey) → OrchHash k → Prop
  | .configBatch (.config e), payload => ∃ n event, n < w.orch.configGroup.delivered ∧
      w.config.events[n]? = some event ∧ event.eventId = e ∧
      payload.commands.Sublist event.commands ∧ payload.commands ≠ [] ∧ payload.options = {}
  | .resultDevicePublication r, _ => ∃ n result, n < w.orch.resultGroup.delivered ∧
      w.syncd.results[n]? = some result ∧ result.id = r
  | .retryApplicationPublication y, _ => ∃ n retry, n < w.orch.retryGroup.delivered ∧
      w.orch.retries[n]? = some retry ∧ retry.id = y
  | _, _ => True

/-- An action that sets one marker and keeps the streams and groups. -/
theorem Tidy.mark {w w' : World} (h : Tidy w) {k : OrchKey} {v : OrchHash k}
    (hknown : markKnown w k v) (hself : w'.orch.hash k = some v)
    (hhash : ∀ k', k' ≠ k → w'.orch.hash k' = w.orch.hash k')
    (hinventory : w'.inventory = w.inventory) (hconfig : w'.config = w.config)
    (hsyncd : w'.syncd = w.syncd) (hretries : w'.orch.retries = w.orch.retries)
    (hgroup : ∀ g, w'.orch.group g = w.orch.group g)
    (hclock : ∀ (id : String) (a : Application), w'.orch.appl[id]? = some a →
      a.desiredVersion ≤ w.orch.configGroup.delivered) : Tidy w' := by
  have hold : ∀ k', k' = k ∨ w'.orch.hash k' = w.orch.hash k' := fun k' =>
    (em (k' = k)).imp_right (hhash k')
  have hstream : ∀ g, (w'.stream g).length = (w.stream g).length := by
    intro g
    cases g
    · exact congrArg (fun c => c.events.length) hconfig
    · exact congrArg (fun s => s.results.length) hsyncd
    · exact congrArg List.length hretries
  have hcg : w'.orch.configGroup = w.orch.configGroup := hgroup .config
  have hrg : w'.orch.resultGroup = w.orch.resultGroup := hgroup .results
  have hyg : w'.orch.retryGroup = w.orch.retryGroup := hgroup .retries
  refine ⟨by rw [hinventory, hconfig]; exact h.log, fun g => by rw [hgroup]; exact h.serial g,
    fun g => by rw [hgroup, hstream]; exact h.within g, by rw [hsyncd]; exact h.resultIds,
    by rw [hretries]; exact h.retryIds, ?_, ?_, ?_, ?_, by rw [hcg]; exact hclock⟩
  · intro y hy
    rw [hretries] at hy
    rcases hold (.retryPublication y.id.failed) with rfl | heq
    · rw [hself]; rfl
    · rw [heq]; exact h.retryPublished y hy
  · intro e payload hp
    rw [hcg, hconfig]
    rcases hold (.configBatch (.config e)) with rfl | heq
    · rw [hself] at hp
      cases hp
      exact hknown
    · exact h.prepared e payload (heq ▸ hp)
  · intro r hr
    rw [hrg, hsyncd]
    rcases hold (.resultDevicePublication r) with rfl | heq
    · exact hknown
    · exact h.knownResult r (heq ▸ hr)
  · intro y hy
    rw [hyg, hretries]
    rcases hold (.retryApplicationPublication y) with rfl | heq
    · exact hknown
    · exact h.knownRetry y (heq ▸ hy)

theorem Tidy.marked {w : World} (h : Tidy w) {k : OrchKey} {v : OrchHash k}
    (hknown : markKnown w k v) : Tidy (w.mark k v) :=
  h.mark hknown (w.mark_hash_self k v) (fun _ hk => w.mark_hash_of_ne k v hk) rfl rfl rfl rfl
    (fun g => w.mark_group k v g) h.clock

theorem Tidy.staged {w : World} (h : Tidy w) {copy : Copy} {k : OrchKey} {v : OrchHash k}
    {version : Nat} {hashes : List (String × Option Application)} (hknown : markKnown w k v)
    (hversions : copy = .appl → ∀ entry ∈ hashes, ∀ a, entry.2 = some a →
      a.desiredVersion ≤ w.orch.configGroup.delivered) :
    Tidy (w.stage copy k v version hashes) := by
  refine h.mark hknown (w.stage_hash_self k v copy version hashes)
    (fun _ hk => w.stage_hash_of_ne k v copy version hashes hk) rfl rfl rfl (by simp)
    (fun g => by simp) fun id a ha => ?_
  cases copy with
  | device => exact h.clock id a ha
  | appl =>
      rw [World.stage_appl_appl] at ha
      rcases getElem?_putVersioned_cases w.orch.appl version hashes id with heq | ⟨hash, hm, -, heq⟩
      · rw [heq] at ha
        exact h.clock id a ha
      · rw [heq] at ha
        exact hversions rfl (id, hash) hm a ha

/-- The parts of the world that the streams depend on. -/
theorem Tidy.congr {w w' : World} (h : Tidy w) (hinventory : w'.inventory = w.inventory)
    (hconfig : w'.config = w.config) (hsyncd : w'.syncd = w.syncd)
    (hretries : w'.orch.retries = w.orch.retries) (happl : w'.orch.appl = w.orch.appl)
    (hhash : ∀ k, isAlarmKey k = false → w'.orch.hash k = w.orch.hash k)
    (hserial : ∀ g, (w'.orch.group g).Serial)
    (hgrow : ∀ g, (w.orch.group g).delivered ≤ (w'.orch.group g).delivered)
    (hwithin : ∀ g, (w'.orch.group g).delivered ≤ (w.stream g).length) : Tidy w' := by
  have hstream : ∀ g, (w'.stream g).length = (w.stream g).length := by
    intro g
    cases g
    · exact congrArg (fun c => c.events.length) hconfig
    · exact congrArg (fun s => s.results.length) hsyncd
    · exact congrArg List.length hretries
  refine ⟨by rw [hinventory, hconfig]; exact h.log, hserial,
    fun g => by rw [hstream]; exact hwithin g, by rw [hsyncd]; exact h.resultIds,
    by rw [hretries]; exact h.retryIds, ?_, ?_, ?_, ?_, ?_⟩
  · intro y hy
    rw [hretries] at hy
    rw [hhash _ rfl]
    exact h.retryPublished y hy
  · intro e payload hp
    rw [hhash _ rfl] at hp
    obtain ⟨n, event, hn, hrest⟩ := h.prepared e payload hp
    rw [hconfig]
    exact ⟨n, event, Nat.lt_of_lt_of_le hn (hgrow .config), hrest⟩
  · intro r hr
    rw [hhash _ rfl] at hr
    obtain ⟨n, result, hn, hrest⟩ := h.knownResult r hr
    rw [hsyncd]
    exact ⟨n, result, Nat.lt_of_lt_of_le hn (hgrow .results), hrest⟩
  · intro y hy
    rw [hhash _ rfl] at hy
    obtain ⟨n, retry, hn, hrest⟩ := h.knownRetry y hy
    rw [hretries]
    exact ⟨n, retry, Nat.lt_of_lt_of_le hn (hgrow .retries), hrest⟩
  · intro id a ha
    rw [happl] at ha
    exact Nat.le_trans (h.clock id a ha) (hgrow .config)

theorem Tidy.acknowledged {w : World} (h : Tidy w) (g : OrchGroup) (n : Nat) :
    Tidy (w.acknowledge g n) := by
  have hdelivered : ∀ g', ((w.acknowledge g n).orch.group g').delivered =
      (w.orch.group g').delivered := by
    intro g'
    rw [World.acknowledge_group]
    split_ifs with hg
    · subst hg; rfl
    · rfl
  refine h.congr rfl rfl rfl (by simp) (by simp) (fun _ _ => by simp) (fun g' => ?_)
    (fun g' => Nat.le_of_eq (hdelivered g').symm) fun g' => by rw [hdelivered]; exact h.within g'
  rw [World.acknowledge_group]
  split_ifs with hg
  · subst hg; exact (h.serial g').ack n
  · exact h.serial g'

/-- The prepared batch of a pending event is a part of it. -/
theorem ConfigRun.part {w : World} (h : Tidy w) {n : Nat} {event : Gnmi.ConfigEvent}
    {batch : DeviceCommandBatch} (hrun : ConfigRun w n event batch) :
    batch.commands.Sublist event.commands ∧ batch.commands ≠ [] ∧ batch.options = {} := by
  obtain ⟨payload, hprep, hdec⟩ := hrun.prepared
  obtain ⟨n', event', -, hget, hid, hsub, hne, hopt⟩ := h.prepared event.eventId payload hprep
  have hn : n' = n := h.log.ids n' n event' event hget hrun.pending.get hid
  rw [hn] at hget
  have hevent : event' = event :=
    Option.some.inj (hget.symm.trans (show w.config.events[n]? = some event from hrun.pending.get))
  subst hevent
  have hok := h.log.events n event' hrun.pending.get
  obtain ⟨rfl, -, -⟩ := decodeDeviceCommand_ok hdec
  have hmap : payload.commands.map decodeCommand = payload.commands := by
    rw [← List.map_id payload.commands, List.map_map]
    refine List.map_congr_left fun c hc => decodeCommand_of_removes fun hop => ?_
    have hremoves := hok.removes c (hsub.subset hc) hop
    exact ⟨hremoves.1, hremoves.2.1⟩
  exact ⟨by rw [hmap]; exact hsub, by rw [hmap]; exact hne, hopt⟩

theorem ConfigRun.nodup {w : World} (h : Tidy w) {n : Nat} {event : Gnmi.ConfigEvent}
    {batch : DeviceCommandBatch} (hrun : ConfigRun w n event batch) : (batchIds batch).Nodup :=
  ((hrun.part h).1.map _).nodup (h.log.events n event hrun.pending.get).nodup

theorem configHashes_version {event : Gnmi.ConfigEvent} {commands : List ConnectionCommand}
    {version : Nat} (hv : ∀ c ∈ commands, c.desiredVersion = version) :
    ∀ entry ∈ configHashes event commands, ∀ a, entry.2 = some a → a.desiredVersion = version := by
  intro entry hentry a ha
  obtain ⟨c, hc, rfl⟩ := List.mem_map.mp hentry
  cases ha
  exact hv c hc

theorem timeoutHashes_version {table : Table} {result : ResultEvent} {metadata : TimeoutMetadata}
    {commands : List ConnectionCommand} :
    ∀ entry ∈ timeoutHashes table result metadata commands, ∀ a, entry.2 = some a →
      ∃ existing : Application, table[entry.1]? = some existing ∧
        a.desiredVersion = existing.desiredVersion := by
  intro entry hentry a ha
  obtain ⟨c, hc, rfl⟩ := List.mem_map.mp hentry
  obtain ⟨existing, hex, rfl⟩ := Option.map_eq_some_iff.mp ha
  exact ⟨existing, hex, rfl⟩

theorem retryHashes_version {table : Table} {retry : RetryEvent} {started : Bool}
    {commands : List ConnectionCommand} :
    ∀ entry ∈ retryHashes table retry started commands, ∀ a, entry.2 = some a →
      ∃ existing : Application, table[entry.1]? = some existing ∧
        a.desiredVersion = existing.desiredVersion := by
  intro entry hentry a ha
  obtain ⟨c, hc, rfl⟩ := List.mem_map.mp hentry
  obtain ⟨existing, hex, rfl⟩ := Option.map_eq_some_iff.mp ha
  exact ⟨existing, hex, rfl⟩

theorem Tidy.action {policy : ApplyRetryPolicy} {w w' : World} {o : OrchOp} (h : Tidy w)
    (ha : Action policy w o w') : Tidy w' := by
  cases ha with
  | idle _ => exact h
  | raise _ => exact h
  | alarm _ hstep =>
      have halarm := hstep.only
      refine h.congr halarm.inventory halarm.config halarm.syncd halarm.retries halarm.appl
        halarm.hash (fun g => ?_) (fun g => ?_) fun g => ?_
      · rw [halarm.group]; exact h.serial g
      · rw [halarm.group]
      · rw [halarm.group]; exact h.within g
  | @deliver g n hp hd hlt =>
      have hgroup : ∀ g', (w.orch.setGroup g ⟨n + 1, [n]⟩).group g' =
          if g' = g then ⟨n + 1, [n]⟩ else w.orch.group g' := by
        intro g'
        cases g <;> cases g' <;> rfl
      refine h.congr rfl rfl rfl (by cases g <;> rfl) (by cases g <;> rfl)
        (fun k _ => by cases g <;> rfl) (fun g' => ?_) (fun g' => ?_) fun g' => ?_
      · change Group.Serial ((w.orch.setGroup g ⟨n + 1, [n]⟩).group g')
        rw [hgroup]
        split_ifs
        · intro m hm
          cases List.mem_singleton.mp hm
          exact ⟨rfl, rfl⟩
        · exact h.serial g'
      · change _ ≤ ((w.orch.setGroup g ⟨n + 1, [n]⟩).group g').delivered
        rw [hgroup]
        split_ifs with hg
        · subst hg; dsimp only; omega
        · exact Nat.le_refl _
      · change ((w.orch.setGroup g ⟨n + 1, [n]⟩).group g').delivered ≤ _
        rw [hgroup]
        split_ifs with hg
        · subst hg; exact hlt
        · exact h.within g'
  | @prepare n event decoded selected hp _ _ hdec hsel hne =>
      have hok := h.log.events n event hp.get
      have hd := decodeConfigBatchEvent_ok hok hdec
      obtain ⟨part, hpart, hsub⟩ := selection_sublist hsel
      refine h.marked ⟨n, event, ?_, hp.get, rfl, ?_, hne, ?_⟩
      · have := h.pending hp
        change n < (w.orch.group .config).delivered
        omega
      · rw [hd, List.nil_append] at *
        rw [hpart]
        exact hsub
      · rw [hd]
  | @stageApplication n event batch hrun _ hv _ =>
      refine h.staged trivial fun _ entry hentry a ha => ?_
      obtain ⟨hev, hdel, -⟩ := h.version hrun.pending
      rw [configHashes_version hv entry hentry a ha]
      omega
  | stageDevice _ _ _ _ => exact h.staged trivial fun hcopy => by cases hcopy
  | @publishCommand n event batch _ _ =>
      exact h.mark (k := .deviceCommandPublication event.eventId) (v := ()) trivial
        (World.mark_hash_self _ _ _) (fun _ hk => World.mark_hash_of_ne _ _ _ hk) rfl rfl rfl rfl
        (fun g => by cases g <;> rfl) h.clock
  | @ackConfig n event _ _ => exact h.acknowledged .config n
  | @resultDevice n result application next hrun _ _ =>
      refine h.staged ⟨n, result, ?_, hrun.pending.get, rfl⟩ fun hcopy => by cases hcopy
      have := h.pending hrun.pending
      change n < (w.orch.group .results).delivered
      omega
  | @resultApplication n result application next hrun _ _ =>
      refine h.staged trivial fun _ entry hentry a ha => ?_
      cases List.mem_singleton.mp hentry
      cases ha
      rw [resultApplication_version]
      exact h.clock _ _ hrun.found
  | @ackResult n _ _ _ _ _ => exact h.acknowledged .results n
  | timeoutDevice _ _ _ _ _ _ => exact h.staged trivial fun hcopy => by cases hcopy
  | timeoutApplication _ _ _ _ _ =>
      refine h.staged trivial fun _ entry hentry a ha => ?_
      obtain ⟨existing, hex, hv⟩ := timeoutHashes_version entry hentry a ha
      rw [hv]
      exact h.clock _ _ hex
  | @scheduleRetry n result batch metadata hrun _ _ _ hnone =>
      have hnew : ∀ y ∈ w.orch.retries, y.id.failed ≠ result.commandId := by
        intro y hy heq
        have hset := h.retryPublished y hy
        rw [heq, hnone] at hset
        cases hset
      have hhash : ∀ k' ≠ OrchKey.retryPublication result.commandId, ((w.setOrch { w.orch with
          retries := w.orch.retries ++ [retryEvent result batch metadata] }).mark
            (.retryPublication result.commandId) ()).orch.hash k' = w.orch.hash k' :=
        fun k' hk => World.mark_hash_of_ne _ _ _ hk
      refine ⟨h.log, fun g => ?_, fun g => ?_, h.resultIds, ?_, ?_, ?_, ?_, ?_, h.clock⟩
      · cases g
        · exact h.serial .config
        · exact h.serial .results
        · exact h.serial .retries
      · cases g
        · exact h.within .config
        · exact h.within .results
        · refine Nat.le_trans (h.within .retries) ?_
          change w.orch.retries.length ≤ (w.orch.retries ++ _).length
          simp
      · intro i j a b hi hj hab
        rcases getElem?_concat hi with hi | ⟨rfl, rfl⟩ <;>
          rcases getElem?_concat hj with hj | ⟨rfl, rfl⟩
        · exact h.retryIds i j a b hi hj hab
        · exact absurd hab (hnew a (List.mem_of_getElem? hi))
        · exact absurd hab.symm (hnew b (List.mem_of_getElem? hj))
        · rfl
      · intro y hy
        change y ∈ w.orch.retries ++ _ at hy
        by_cases hc : y.id.failed = result.commandId
        · rw [hc, World.mark_hash_self]; rfl
        · rw [hhash _ (by simpa using hc)]
          rcases List.mem_append.mp hy with hy | hy
          · exact h.retryPublished y hy
          · rw [List.mem_singleton.mp hy] at hc
            exact absurd rfl hc
      · intro e payload hp
        rw [hhash _ (by simp)] at hp
        exact h.prepared e payload hp
      · intro r hr
        rw [hhash _ (by simp)] at hr
        exact h.knownResult r hr
      · intro y hy
        rw [hhash _ (by simp)] at hy
        obtain ⟨m, retry, hm, hget, hid⟩ := h.knownRetry y hy
        refine ⟨m, retry, hm, ?_, hid⟩
        change (w.orch.retries ++ _)[m]? = _
        exact Gnmi.getElem?_of_prefix (List.prefix_append _ _) hget
  | @ackTimeout n _ _ _ _ => exact h.acknowledged .results n
  | @retryApplication n retry batch hrun _ _ _ _ =>
      refine h.staged ⟨n, retry, ?_, hrun.pending.get, rfl⟩ fun _ entry hentry a ha => ?_
      · have := h.pending hrun.pending
        change n < (w.orch.group .retries).delivered
        omega
      · obtain ⟨existing, hex, hv⟩ := retryHashes_version entry hentry a ha
        rw [hv]
        exact h.clock _ _ hex
  | retryDevice _ _ _ _ _ => exact h.staged trivial fun hcopy => by cases hcopy
  | retryBatch _ _ => exact h.marked trivial
  | @retryCommand n retry batch _ _ =>
      exact h.mark (k := .retryCommandPublication retry.id) (v := ()) trivial
        (World.mark_hash_self _ _ _) (fun _ hk => World.mark_hash_of_ne _ _ _ hk) rfl rfl rfl rfl
        (fun g => by cases g <;> rfl) h.clock
  | @ackRetry n _ _ _ => exact h.acknowledged .retries n

end MiniOcs.Orch
