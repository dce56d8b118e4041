import MiniOcs.Syncd.Booked

/-!
# Effects of a command, exactly once

What the handler does for other events leaves the books of a command alone, so they are kept in
every run. Once the command is acknowledged after an attempt, everything that it did was done
once and came from the one result that is stored.
-/
namespace MiniOcs.Syncd
open Std Concurrent

/-! ## What processing writes -/

section Attributed

variable {event : CommandEvent}

theorem Serves.attributed {command : CommandId} {o : Op} (ho : Serves command o) :
    Attributed (some command) o := by
  have howner : ∀ k, isEffectOf command k = true → ownerOf k = some command := by
    intro k hk
    cases k with
    | statePublication owner member => exact congrArg some (of_decide_eq_true hk)
    | countersPublication owner => exact congrArg some (of_decide_eq_true hk)
    | resultPublication owner member => exact congrArg some (of_decide_eq_true hk)
    | _ => cases hk
  cases o with
  | orch o => exact ho.elim
  | syncd o =>
      cases o with
      | putHashIfAbsent k v => exact .inr (howner k ho)
      | replaceStateOnce marker fields member state event =>
          obtain ⟨hmarker, c, hevent⟩ := ho
          refine ⟨.inr (howner marker hmarker), fun id hid => ?_⟩
          unfold isStateOf at hid
          rw [hevent] at hid
          exact congrArg some (of_decide_eq_true hid)
      | appendResultOnce marker fields event =>
          exact ⟨.inr (howner marker ho.1), congrArg some ho.2.symm⟩
      | raise e => trivial
      | _ => exact ReadOp.attributed ho

theorem attributed_markProcessed (batch : DeviceCommandBatch) (applied : Bool) :
    AttributedTo (some event.id) (fun _ => True) (markProcessed event batch applied) := by
  refine given_markProcessed (fun _ => Tallies.attributed)
    fun generation versions repairs hversions hrepairs entry hmem => ?_
  have hownerless := (ownerless_versions hversions).append (ownerless_repairs hrepairs)
  rcases List.mem_cons.mp hmem with rfl | hmem
  · exact .inr rfl
  · exact .inl (hownerless entry hmem)

end Attributed

/-! ## Other events -/

/-- The event is not the command, or it does not decode. -/
def Stray (id : CommandId) (event : CommandEvent) : Prop :=
  event.id = id → ∀ batch, decodeDeviceCommand event.payload ≠ .ok batch

/-- The program may be started while the event is in the stream. -/
def Apart (id : CommandId) (n : Nat) (event : CommandEvent) {α : Type} (p : Service α) : Prop :=
  ∀ t, Booked id t → t.world.commands[n]? = some event → SafeE id p t

section Strays

variable {α β : Type} {id : CommandId} {n : Nat} {event : CommandEvent} {t : Traced} {o : SyncdOp}

theorem markSyncd_kept {w : World} {k k' : SyncdKey} {v : SyncdHash k'}
    (h : (w.syncd.hash k).isSome) : ((w.markSyncd k' v).syncd.hash k).isSome := by
  by_cases hk : k = k'
  · subst hk
    rw [World.markSyncd_hash_self]
    rfl
  · rw [World.markSyncd_hash_of_ne _ _ _ hk]
    exact h

theorem once_kept {w : World} {k marker : SyncdKey} {fields : SyncdHash marker}
    {write : World → World} (h : (w.syncd.hash k).isSome) (hwrite : ((write w).syncd.hash k).isSome) :
    ((w.onceSyncd marker fields write).2.syncd.hash k).isSome := by
  unfold World.onceSyncd
  split_ifs
  · exact h
  · exact markSyncd_kept hwrite

theorem putEntries_kept {w : World} {k : SyncdKey} (entries : List SyncdEntry)
    (h : (w.syncd.hash k).isSome) : ((w.putEntries entries).syncd.hash k).isSome := by
  induction entries generalizing w with
  | nil => exact h
  | cons entry rest ih =>
      rw [putEntries_cons]
      exact ih (markSyncd_kept h)

/-- Records of a command are written, and never taken away. -/
theorem record_kept (ho : isRecord o = true) {k : SyncdKey} (hk : (ownerOf k).isSome)
    (choice : Nat) {w : World} (h : (w.syncd.hash k).isSome) :
    ((o.exec choice w).2.syncd.hash k).isSome := by
  cases o with
  | putHash k' v => exact markSyncd_kept h
  | putHashIfAbsent k' v => exact once_kept h h
  | putHashesAtomically entries => exact putEntries_kept entries h
  | replaceHashAndAppendEvent k' v event => exact markSyncd_kept h
  | replaceStateOnce marker fields member state event => exact once_kept h h
  | replaceAlarmOnce marker fields alarmId alarm event =>
      refine once_kept h ?_
      have hne : k ≠ .activeAlarm alarmId := by
        rintro rfl
        cases hk
      change (Function.update w.syncd.hash (.activeAlarm alarmId) alarm k).isSome = true
      rw [Function.update_of_ne hne]
      exact h
  | appendResultOnce marker fields event => exact once_kept h h
  | incrementOnce marker fields update => exact once_kept h h
  | _ => cases ho

theorem Attributed.spares_unless_record {own : Option CommandId} (h : Attributed own (.syncd o))
    (ho : isRecord o = false) : Spares id o := by
  cases o with
  | xack n => exact h.elim
  | appendCommandOnce marker fields event => exact h.elim
  | applyConnections commands options => exact h.elim
  | putHash _ _ | putHashIfAbsent _ _ | putHashesAtomically _ | replaceHashAndAppendEvent _ _ _
  | replaceStateOnce _ _ _ _ _ | replaceAlarmOnce _ _ _ _ _ | appendResultOnce _ _ _
  | incrementOnce _ _ _ => cases ho
  | _ => trivial

/-- What is written for another event keeps the books of the command. -/
theorem Booked.stray (h : Booked id t) (hget : t.world.commands[n]? = some event)
    (hstray : Stray id event) (ho : Attributed (some event.id) (.syncd o)) (choice : Nat)
    (hremembers : Remembers id t.world (o.exec choice t.world).2) :
    Booked id (execTraced (.syncd o) choice t).2 := by
  by_cases hid : event.id = id
  · cases hrecord : isRecord o with
    | false => exact h.spared (ho.spares_unless_record hrecord) choice hremembers
    | true =>
        have happly : isApply o = false := by
          cases o with
          | applyConnections commands options => cases hrecord
          | _ => rfl
        rw [execTraced_still happly]
        exact h.move (recordsOnly_exec hrecord choice t.world) rfl
          (record_kept hrecord rfl choice) (record_kept hrecord rfl choice)
          (.inr ⟨event, List.mem_of_getElem? hget, hid, fun batch hbatch =>
            absurd hbatch (hstray hid batch)⟩)
  · exact h.spared (ho.spares fun heq => hid (Option.some.inj heq)) choice hremembers

theorem Apart.send {k : o.Reply → Service α}
    (hcommands : ∀ w choice, (o.exec choice w).2.commands = w.commands)
    (hguard : ∀ t, Booked id t → t.world.commands[n]? = some event → ∀ choice,
      Remembers id t.world (o.exec choice t.world).2 →
        Booked id (execTraced (.syncd o) choice t).2)
    (hk : ∀ r, Apart id n event (k r)) : Apart id n event (Syncd.send o >>= k) := by
  intro s hs hget
  refine SafeE.send (fun t ht hst => ?_) fun t choice ht hst hkeep => ?_
  · exact hguard t ht (Gnmi.getElem?_of_prefix hst.commands hget)
  · refine hk _ _ hkeep ?_
    change (o.exec choice t.world).2.commands[n]? = some event
    rw [hcommands]
    exact Gnmi.getElem?_of_prefix hst.commands hget

theorem Apart.skip {k : o.Reply → Service α} (hstray : Stray id event)
    (ho : Attributed (some event.id) (.syncd o)) (hk : ∀ r, Apart id n event (k r)) :
    Apart id n event (Syncd.send o >>= k) := by
  refine Apart.send (fun w choice => ?_)
    (fun t ht hget choice hremembers => ht.stray hget hstray ho choice hremembers) hk
  cases hrecord : isRecord o with
  | true => exact (recordsOnly_exec hrecord choice w).commands
  | false =>
      have hspares : Spares id o := ho.spares_unless_record hrecord
      exact commands_spared hspares choice w

theorem Apart.given {Q : β → Prop} {p : Service β} {k : β → Service α} (hstray : Stray id event)
    (hp : AttributedTo (some event.id) Q p) (hk : ∀ b, Q b → Apart id n event (k b)) :
    Apart id n event (p >>= k) := by
  induction p with
  | pure b => exact hk b hp
  | throw e => exact fun _ _ _ _ _ _ => trivial
  | call o k' ih =>
      cases o with
      | orch o => exact hp.1.elim
      | syncd o => exact Apart.skip hstray hp.1 fun r => ih r (hp.2 r trivial)

theorem Apart.raise {e : Raised} (hstray : Stray id event) :
    Apart id n event (Syncd.raise e : Service α) :=
  Apart.skip (k := fun _ => .throw e) hstray trivial fun _ _ _ _ _ _ _ => trivial

theorem Apart.done (value : α) : Apart id n event (.pure value : Service α) :=
  fun _ _ _ _ _ _ => trivial

theorem Apart.acknowledge (hstray : Stray id event) : Apart id n event (acknowledge n) := by
  refine Apart.send (fun _ _ => rfl) (fun t ht hget choice _ => ?_) fun acknowledged => ?_
  · exact ht.ack hget (fun hid batch hbatch => absurd hbatch (hstray hid batch)) choice
  · split_ifs
    · exact Apart.done true
    · exact Apart.raise hstray

/-- The apply request of another command. -/
theorem Apart.apply {commands : List ConnectionCommand} {options : ApplyOptions CommandId}
    {k : Except String ApplyResult → Service α} (hne : event.id ≠ id)
    (hop : options.operationId = some event.id) (hk : ∀ reply, Apart id n event (k reply)) :
    Apart id n event (Syncd.send (.applyConnections commands options) >>= k) := by
  have hspares : Spares id (.applyConnections commands options) := by
    intro heq
    exact hne (Option.some.inj (hop.symm.trans heq))
  exact Apart.send (fun _ _ => rfl)
    (fun t ht _ choice hremembers => ht.spared hspares choice hremembers) hk

theorem apart_finishCommand {batch : DeviceCommandBatch} {stored : StoredResult}
    (hstray : Stray id event) : Apart id n event (finishCommand n event batch stored) := by
  unfold finishCommand
  refine Apart.given hstray ((serves_publishState _ _ _).permit fun _ => Serves.attributed) fun delta _ => ?_
  refine Apart.skip hstray ⟨.inr rfl, .inr rfl⟩ fun _ => ?_
  refine Apart.given hstray ((serves_publishResult batch _).permit fun _ => Serves.attributed) fun _ _ => ?_
  exact Apart.given hstray (attributed_markProcessed batch _) fun _ _ => Apart.acknowledge hstray

theorem apart_attemptCommand {batch : DeviceCommandBatch} (hne : event.id ≠ id)
    (hop : batch.options.operationId = some event.id) :
    Apart id n event (attemptCommand n event batch) := by
  have hstray : Stray id event := fun heq => absurd heq hne
  have hstore : ∀ result : ApplyResult, Apart id n event (do
      let latencyMs ← Syncd.send .now
      Syncd.send (.putHash (.applyResult event.id) ⟨result, latencyMs⟩)
      let stored : Option StoredResult ← Syncd.send (.getHash (.applyResult event.id))
      finishStored n event batch stored) := by
    intro result
    refine Apart.skip hstray trivial fun latencyMs => ?_
    refine Apart.skip hstray (.inr rfl) fun _ => ?_
    refine Apart.skip hstray trivial fun stored => ?_
    cases stored with
    | none => exact Apart.raise hstray
    | some stored => exact apart_finishCommand hstray
  refine Apart.skip hstray (.inr rfl) fun _ => ?_
  unfold applyCommand
  rw [Prog.bind_assoc']
  refine Apart.skip hstray trivial fun info => ?_
  cases info with
  | error message => exact hstore _
  | ok info =>
      dsimp only
      rw [Prog.bind_assoc']
      refine Apart.skip hstray trivial fun _ => ?_
      split_ifs
      · exact hstore _
      · rw [Prog.bind_assoc']
        refine Apart.apply hne hop fun reply => ?_
        exact Apart.given hstray (attributed_of_reads (reads_confirmAttempt batch _)) fun result _ =>
          hstore result

theorem apart_startCommand {batch : DeviceCommandBatch} (hne : event.id ≠ id)
    (hop : batch.options.operationId = some event.id) :
    Apart id n event (startCommand n event batch) := by
  have hstray : Stray id event := fun heq => absurd heq hne
  refine Apart.skip hstray trivial fun stored => ?_
  cases stored with
  | some stored => exact apart_finishCommand hstray
  | none =>
      refine Apart.skip hstray trivial fun attempt => ?_
      cases attempt with
      | some _ => exact apart_attemptCommand hne hop
      | none =>
          refine Apart.given hstray (attributed_of_reads (reads_isStaleVersion event batch)) fun stale _ => ?_
          split_ifs
          · exact Apart.given hstray (attributed_markProcessed batch false) fun _ _ =>
              Apart.acknowledge hstray
          · exact apart_attemptCommand hne hop

/-- The result of a malformed command is stored before it is looked for, so nothing is applied. -/
theorem apart_malformedCommand {message : String} (hstray : Stray id event) :
    Apart id n event (malformedCommand n event message) := by
  unfold malformedCommand recoverPreparedBatch
  rw [Prog.bind_assoc']
  refine Apart.skip hstray trivial fun prepared => ?_
  have hstart : ∀ batch : DeviceCommandBatch, Apart id n event (do
      Syncd.send (.putHash (.applyResult event.id) ⟨refused .protocolMalformed message, 0⟩)
      startCommand n event batch) := by
    intro batch s hs hget
    have hput : Attributed (some event.id) (.syncd (.putHash (.applyResult event.id)
      ⟨refused .protocolMalformed message, 0⟩)) := .inr rfl
    have hask : Attributed (some event.id) (.syncd (.getHash (.applyResult event.id))) := trivial
    refine SafeE.send (fun t ht hst => ?_) fun t choice ht hst hkeep => ?_
    · exact ht.stray (Gnmi.getElem?_of_prefix hst.commands hget) hstray hput
    have hget' : t.world.commands[n]? = some event := Gnmi.getElem?_of_prefix hst.commands hget
    refine SafeE.send (fun u hu htu => ?_) fun u choice' hu htu hkeep' => ?_
    · exact hu.stray (Gnmi.getElem?_of_prefix htu.commands hget') hstray hask
    have hstored : ((SyncdOp.getHash (.applyResult event.id)).exec choice' u.world).1 =
        some ⟨refused .protocolMalformed message, 0⟩ :=
      (htu.results event.id).trans (World.markSyncd_hash_self ..)
    rw [hstored]
    exact apart_finishCommand hstray _ hkeep' (Gnmi.getElem?_of_prefix htu.commands hget')
  cases prepared with
  | none => exact hstart _
  | some payload =>
      dsimp only
      cases decodeDeviceCommand payload with
      | ok batch => exact hstart batch
      | error _ => exact hstart _

theorem apart_handleCommand (hstray : Stray id event) : Apart id n event (handleCommand n event) := by
  refine Apart.skip hstray trivial fun processed => ?_
  cases processed with
  | some _ => exact Apart.acknowledge hstray
  | none =>
      dsimp only
      cases hdecode : decodeDeviceCommand event.payload with
      | error message => exact apart_malformedCommand hstray
      | ok batch => exact apart_startCommand (fun heq => hstray heq batch hdecode) rfl

end Strays

/-! ## The handler -/

section Handler

variable {id : CommandId} {n : Nat} {event : CommandEvent} {t : Traced}

theorem safeE_handleCommand (ht : Booked id t) (hget : t.world.commands[n]? = some event) :
    SafeE id (handleCommand n event) t := by
  by_cases hid : event.id = id
  · subst hid
    cases hdecode : decodeDeviceCommand event.payload with
    | ok batch => exact from_handleCommand hdecode t ht hget rfl
    | error message =>
        refine apart_handleCommand (fun _ batch hbatch => ?_) t ht hget
        rw [hdecode] at hbatch
        cases hbatch
  · exact apart_handleCommand (fun heq => absurd heq hid) t ht hget

theorem SafeE.skip {α : Type} {s : Traced} {o : SyncdOp} {k : o.Reply → Service α}
    (ho : Spares id o)
    (hk : ∀ t choice, Booked id (execTraced (.syncd o) choice t).2 →
      SafeE id (k (o.exec choice t.world).1) (execTraced (.syncd o) choice t).2) :
    SafeE id (Syncd.send o >>= k) s :=
  SafeE.send (fun _ ht _ choice => ht.spared ho choice) fun t choice _ _ hkeep => hk t choice hkeep

/-- Whatever is delivered is the entry of the stream. -/
theorem safeE_nextCommand {α : Type} {k : Option (Nat × CommandEvent) → Service α}
    (hnone : ∀ t, SafeE id (k none) t)
    (hk : ∀ t n event, Booked id t → t.world.commands[n]? = some event →
      SafeE id (k (some (n, event))) t) (s : Traced) : SafeE id (nextCommand >>= k) s := by
  have hread : ∀ s, SafeE id (Syncd.send .readGroup >>= k) s := by
    intro s
    refine SafeE.skip trivial fun t choice hkeep => ?_
    cases hreply : (SyncdOp.exec choice t.world .readGroup).1 with
    | none => exact hnone _
    | some message =>
        obtain ⟨n, event⟩ := message
        refine hk _ n event hkeep ?_
        simp only [SyncdOp.exec, Option.bind_eq_some_iff, Option.map_eq_some_iff] at hreply
        obtain ⟨m, -, e, hget, heq⟩ := hreply
        cases heq
        exact hget
  unfold nextCommand
  rw [Prog.bind_assoc']
  refine SafeE.skip trivial fun t choice _ => ?_
  cases (SyncdOp.exec choice t.world .xpending).1 with
  | none => exact hread _
  | some n =>
      dsimp only
      rw [Prog.bind_assoc']
      refine SafeE.skip trivial fun t choice hkeep => ?_
      cases hreply : (SyncdOp.exec choice t.world (.xclaim n)).1 with
      | none => exact hread _
      | some event =>
          refine hk _ n event hkeep ?_
          simp only [SyncdOp.exec] at hreply
          split_ifs at hreply
          exact hreply

theorem safeE_processOne (t : Traced) : SafeE id processOne t := by
  have hidle : ∀ t, SafeE id (.pure false : Service Bool) t := fun _ _ _ _ => trivial
  unfold processOne
  refine safeE_nextCommand hidle (fun t n event ht hget => ?_) t
  exact safeE_handleCommand ht hget

end Handler

/-! ## The system keeps the books -/

section System

variable {id : CommandId} {s t : Traced}

theorem Booked.init {inventory : Gnmi.Inventory} {info : DeviceInfo}
    {hwsim : SimulatedOcsDevice CommandId}
    (hconstruct : SimulatedOcsDevice.construct info = some (.ok hwsim)) :
    Booked id ⟨{ inventory := inventory, hwsim := hwsim }, []⟩ where
  commands := List.nodup_nil
  delivered := Nat.le_refl 0
  sound := SimulatedOcsDevice.Sound.construct hconstruct
  behind := Nat.zero_le _
  attempted hmem := absurd hmem List.not_mem_nil
  fresh _ := rfl
  formed n event hget := by cases hget

/-- A command that was appended meanwhile has an empty account, and was not delivered yet. -/
theorem Booked.beside (h : Booked id s) (hb : Beside id s t) : Booked id t := by
  have hprocessed : t.world.syncd.hash (.processedCommand id) =
      s.world.syncd.hash (.processedCommand id) := congrArg Account.processed hb.account
  refine ⟨hb.nodup, ?_, (hb.device.keeps h.sound).1, ?_, fun hmem => ?_, fun hfresh => ?_,
    fun n event hget hid batch hdecode => ?_⟩
  · rw [hb.group]
    exact h.delivered.trans hb.commands.length_le
  · rw [hb.transitions]
    refine behind_mono h.behind (remembered_mono hb.remembers fun hsome => ?_)
    rw [hprocessed]
    exact hsome
  · rw [hb.account]
    rw [hb.transitions] at hmem
    exact h.attempted hmem
  · rw [hb.account]
    exact h.fresh fun event hmem => hfresh event (hb.commands.subset hmem)
  · rw [hb.account, hb.group]
    obtain ⟨extra, hextra⟩ := hb.commands
    rw [← hextra, List.getElem?_append] at hget
    split_ifs at hget with hlt
    · exact h.formed n event hget hid batch hdecode
    · have hnew : ∀ e ∈ s.world.commands, e.id ≠ id := by
        have hnodup := hb.nodup
        rw [← hextra, List.map_append, List.nodup_append] at hnodup
        intro e he heq
        refine hnodup.2.2 e.id (List.mem_map_of_mem he) event.id ?_ (heq.trans hid.symm)
        exact List.mem_map_of_mem (List.mem_of_getElem? hget)
      rw [h.fresh hnew]
      refine ⟨fun hacked => ?_, fun _ => Account.WellFormed.fresh event batch.commands⟩
      exact absurd (hacked.1.trans_le h.delivered) hlt

theorem Beside.unmoved (hb : Beside id s t) : Unmoved id s t :=
  ⟨hb.commands, hb.account, hb.results⟩

theorem commandHandler_verified (id : CommandId) :
    Verified (commandHandler id) (Booked id) (fun _ => accounting id) fun _ _ _ _ => True where
  inv _ _ ht := ht
  allow _ _ _ _ hremembers := hremembers
  init := by
    rintro t ⟨inventory, info, hwsim, hconstruct, rfl⟩
    exact Booked.init hconstruct
  starts := by
    rintro i t p _ rfl
    exact safeE_processOne t
  call i o choice t _ hguard hremembers :=
    ⟨hguard choice hremembers, fun j hj => absurd (Subsingleton.elim j i) hj⟩
  crash i t ht _ := ⟨ht, fun j hj => absurd (Subsingleton.elim j i) hj⟩
  env s t hs hb := ⟨hs.beside hb, fun _ => hb.unmoved⟩

end System

/-! ## Exactly once -/

/-- A member was marked, published and answered from this result. -/
structure MemberEffects (w : World) (event : CommandEvent) (stored : StoredResult)
    (c : ConnectionCommand) (marker : StatePublication)
    (written : Option (ConnectionOperation × Option ConnectionState)) : Prop where
  marked : w.syncd.hash (.statePublication event.id c.id) = some marker
  publishes : Publishes stored.result c marker written
  skipped : written = none ↔ marker.superseded = true ∨ marker.confirmedUnchanged = true
  states : (w.syncd.stateEvents.filter fun e => e.id = .command event.id c.id) =
    (written.map fun state => memberStateEvent event c state.1 state.2).toList
  results : (w.syncd.results.filter fun result => result.id = ⟨event.id, some c.id⟩) =
    [resultEvent event (some c.id) c.id c.desiredVersion
      (memberResult c stored.result (some marker))]

/-- The command moved the matrix at most once, counted once, and every member was served once;
all of it came from this result. -/
structure EffectsOnce (t : Traced) (event : CommandEvent) (commands : List ConnectionCommand)
    (stored : StoredResult) : Prop where
  transitions : t.transitions.count event.id ≤ 1
  result : t.world.syncd.hash (.applyResult event.id) = some stored
  counters : ∃ delta, recordedDelta t.world.syncd event.id commands = some delta ∧
    (t.world.counters.filter fun update => update.command = some event.id) =
      [applyCounters event stored delta]
  members : ∀ c ∈ commands, ∃ marker written, MemberEffects t.world event stored c marker written

structure NoEffects (t : Traced) (id : CommandId) : Prop where
  transitions : id ∉ t.transitions
  result : t.world.syncd.hash (.applyResult id) = none
  markers : ∀ member, t.world.syncd.hash (.statePublication id member) = none
  states : ∀ e ∈ t.world.syncd.stateEvents, ∀ member, e.id ≠ .command id member
  counters : ∀ update ∈ t.world.counters, update.command ≠ some id
  results : ∀ result ∈ t.world.syncd.results, result.id.command ≠ id

section Effects

variable {t : Traced} {event : CommandEvent} {batch : DeviceCommandBatch} {stored : StoredResult}
  {commands : List ConnectionCommand}

theorem count_transitions (h : Booked event.id t) : t.transitions.count event.id ≤ 1 := by
  have hsame : t.transitions.count event.id =
      t.transitions.countP fun command => decide (command = event.id) :=
    List.countP_congr fun command _ => by simp
  rw [hsame]
  exact h.behind.le_one

theorem delta_account (w : World) (id : CommandId) (commands : List ConnectionCommand) :
    (account w id).delta commands = recordedDelta w.syncd id commands := by
  induction commands with
  | nil => rfl
  | cons c rest ih =>
      have hmarker : (account w id).marker c.id = w.syncd.hash (.statePublication id c.id) := rfl
      unfold Account.delta recordedDelta
      rw [ih, hmarker]
      cases w.syncd.hash (.statePublication id c.id) with
      | none => rfl
      | some marker => cases recordedDelta w.syncd id rest <;> rfl

theorem statesOf_account (w : World) (id : CommandId) (member : String) :
    (account w id).statesOf id member =
      w.syncd.stateEvents.filter fun e => e.id = .command id member := by
  unfold Account.statesOf account
  rw [List.filter_filter]
  refine List.filter_congr fun e _ => ?_
  by_cases he : e.id = .command id member
  · simp [he, isStateOf]
  · simp [he]

theorem resultsOf_account (w : World) (id : CommandId) (member : String) :
    (account w id).resultsOf id member =
      w.syncd.results.filter fun result => result.id = ⟨id, some member⟩ := by
  unfold Account.resultsOf account
  rw [List.filter_filter]
  refine List.filter_congr fun result _ => ?_
  by_cases hr : result.id = ⟨id, some member⟩
  · simp [hr]
  · simp [hr]

theorem effectsOnce_of_account (h : Booked event.id t)
    (honce : Account.Once event commands (account t.world event.id) stored)
    (hresult : t.world.syncd.hash (.applyResult event.id) = some stored) :
    EffectsOnce t event commands stored := by
  refine ⟨count_transitions h, hresult, ?_, fun c hc => ?_⟩
  · obtain ⟨delta, hcount⟩ := honce.count
    have htotal := hcount.total
    rw [delta_account] at htotal
    exact ⟨delta, htotal, hcount.updates⟩
  · obtain ⟨marker, written, hstate, hanswer⟩ := honce.members c hc
    have hstates := hstate.states
    have hresults := hanswer.results
    rw [statesOf_account] at hstates
    rw [resultsOf_account] at hresults
    exact ⟨marker, written, hstate.marked, hstate.publishes, hstate.publishes.skipped, hstates,
      hresults⟩

theorem noEffects_of_account (h : Booked event.id t)
    (hnone : account t.world event.id = { processed := (account t.world event.id).processed }) :
    NoEffects t event.id := by
  have hstates := congrArg Account.states hnone
  have hupdates := congrArg Account.updates hnone
  have hresults := congrArg Account.results hnone
  simp only [account, List.filter_eq_nil_iff, decide_eq_true_eq] at hstates hupdates hresults
  refine ⟨fun hmem => ?_, congrArg Account.stored hnone,
    fun member => congrFun (congrArg Account.marker hnone) member, fun e he member heq => ?_,
    hupdates, hresults⟩
  · have hattempted := h.attempted hmem
    rw [hnone] at hattempted
    cases hattempted
  · refine hstates e he ?_
    unfold isStateOf
    rw [heq]
    exact decide_eq_true rfl

/-- However often the handler is cut and the command delivered again: once the command is
acknowledged, an attempted batch took effect exactly once, all from one stored result, and a
batch that was set aside without an attempt has no effect. -/
theorem effects_exactly_once {c : Config Op Op.Reply Raised Bool Traced Unit}
    (h : Reachable (commandHandler event.id) c) {n : Nat}
    (hget : c.world.world.commands[n]? = some event)
    (hdecode : decodeDeviceCommand event.payload = .ok batch) (hdistinct : Distinct batch.commands)
    (hacked : c.world.world.syncd.group.Acked n) :
    (AttemptMade c.world.world event.id →
        ∃ stored, EffectsOnce c.world event batch.commands stored) ∧
      (¬AttemptMade c.world.world event.id → NoEffects c.world event.id) := by
  have hbooked := (commandHandler_verified event.id).invariant h
  obtain ⟨hprocessed, hformed⟩ := hbooked.formed n event hget rfl batch hdecode
  refine ⟨fun hattempt => ?_, fun hattempt => ?_⟩
  · obtain ⟨stored, honce⟩ := (hformed hdistinct).once (hprocessed hacked) hattempt
    obtain ⟨delta, hcount⟩ := honce.count
    exact ⟨stored, effectsOnce_of_account hbooked honce hcount.source⟩
  · exact noEffects_of_account hbooked
      ((hformed hdistinct).unattempted (Bool.eq_false_iff.mpr hattempt))

end Effects

/-! ## A lost reply and two cuts -/

theorem remembers_iff {id : CommandId} {w w' : World} : Remembers id w w' ↔
    (w.syncd.hash (.processedCommand id) = none → w.hwsim.applyResults.lookup id = none ∨
      w'.hwsim.applyResults.lookup id = w.hwsim.applyResults.lookup id) := by
  refine ⟨fun h hnone => ?_, fun h hnone result hresult => ?_⟩
  · cases hlookup : w.hwsim.applyResults.lookup id with
    | none => exact .inl rfl
    | some result => exact .inr (h hnone result hlookup)
  · rcases h hnone with hlookup | hlookup
    · rw [hlookup] at hresult
      cases hresult
    · exact hlookup.trans hresult

instance (id : CommandId) (w w' : World) : Decidable (Remembers id w w') :=
  decidable_of_iff' _ remembers_iff

def pairTraced : Traced := ⟨pairPublished.now, []⟩

/-- The handler makes so many calls, and loses the reply to its apply request. -/
def cutAfter (calls : Nat) (t : Traced) : Traced :=
  (processOne.run execTraced (processOne.schedule execTraced losesReply calls t) t).2

def atRest (t : Traced) : Config Op Op.Reply Raised Bool Traced Unit := ⟨t, fun _ => none⟩

theorem cutAfter_reachable {id : CommandId} {t : Traced}
    (h : Reachable (commandHandler id) (atRest t)) (calls : Nat)
    (hallow : processOne.along execTraced
      (fun o choice t => Remembers id t.world (exec o choice t.world).2)
      (processOne.schedule execTraced losesReply calls t) t) :
    Reachable (commandHandler id) (atRest (cutAfter calls t)) :=
  h.cut (i := ()) rfl rfl _ hallow trivial

/-- Cut with the matrix moved and no result stored, and again between two members. -/
def cutTwice : Traced := cutAfter 60 (cutAfter 20 (cutAfter 11 pairTraced))

theorem cutTwice_reachable : Reachable (commandHandler pairCommand.id) (atRest cutTwice) := by
  have hinit : Reachable (commandHandler pairCommand.id) (atRest ⟨Orch.smallWorld, []⟩) :=
    .init ⟨_, Orch.smallDevice.info, Orch.smallDevice, rfl, rfl⟩
  have hpublished : Reachable (commandHandler pairCommand.id) (atRest pairTraced) := by
    refine hinit.step (.env pairTraced ⟨List.nil_prefix, List.nodup_singleton _, rfl, .stays,
      fun _ _ hresult => hresult, rfl, fun _ => rfl, rfl⟩)
  have hfirst := cutAfter_reachable hpublished 11 (by decide +kernel)
  have hsecond := cutAfter_reachable hfirst 20 (by decide +kernel)
  exact cutAfter_reachable hsecond 60 (by decide +kernel)

/-- The third attempt finishes what the first two began. -/
theorem effects_exactly_once_cutTwice :
    Reachable (commandHandler pairCommand.id) (atRest cutTwice) ∧
      ∃ stored, EffectsOnce cutTwice pairCommand Orch.pairBatch.commands stored := by
  have hdecode : decodeDeviceCommand pairCommand.payload = .ok Orch.pairBatch := by decide +kernel
  have hdistinct : Distinct Orch.pairBatch.commands := by
    unfold Distinct
    decide +kernel
  have hget : cutTwice.world.commands[0]? = some pairCommand := by decide +kernel
  have hacked : cutTwice.world.syncd.group.Acked 0 := by decide +kernel
  have hattempt : AttemptMade cutTwice.world pairCommand.id := by
    unfold AttemptMade
    decide +kernel
  have honce := effects_exactly_once cutTwice_reachable hget hdecode hdistinct hacked
  exact ⟨cutTwice_reachable, honce.1 hattempt⟩

end MiniOcs.Syncd
