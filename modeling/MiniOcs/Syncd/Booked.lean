import MiniOcs.Syncd.Account
import MiniOcs.Syncd.Contract
import MiniOcs.Syncd.TrueSuccess

/-!
# The books of a command

One command handler that may be cut anywhere, over a link that may lose every request and reply.
The rest of the service and the other processes do what they like between two calls, except to
the records of the command. Beside the world stands the list of matrix transitions that the
device performed. The handler may start on the command wherever its account stands, and every
call that it makes keeps the books.
-/
namespace MiniOcs.Syncd
open Std Concurrent

/-! ## Matrix transitions -/

/-- The request is not answered from the cache, and commits its batch to the matrix. -/
def performs (d : SimulatedOcsDevice CommandId) (commands : List ConnectionCommand)
    (options : ApplyOptions CommandId) : Bool :=
  match d.cachedResult options, d.applyConnections commands options with
  | none, .ok reply => reply.1.isOk
  | _, _ => false

/-- The link did not lose the request on its way to the device. -/
def reached (choice : Nat) : Bool := choice ≠ 1 && choice ≠ 2

/-- The operation ids of the transitions that a call brings about. -/
def transitionsOf (w : World) (choice : Nat) : Op → List CommandId
  | .syncd (.applyConnections commands options) =>
      if reached choice && performs w.hwsim commands options then options.operationId.toList else []
  | _ => []

structure Traced where
  world : World
  transitions : List CommandId := []

def execTraced (o : Op) (choice : Nat) (t : Traced) : o.Reply × Traced :=
  ((exec o choice t.world).1,
    ⟨(exec o choice t.world).2, t.transitions ++ transitionsOf t.world choice o⟩)

section Device

variable {d : SimulatedOcsDevice CommandId} {commands : List ConnectionCommand}
  {options : ApplyOptions CommandId}

/-- What an apply request may do to the device: nothing, or an uncached call. -/
theorem applyOverLink_device (hsound : d.Sound) (choice : Nat) :
    (applyOverLink choice d commands options).2 = d ∧
        (reached choice && performs d commands options) = false ∨
      d.cachedResult options = none ∧ ∃ r, SimulatedOcsDevice.Outcome d commands options r ∧
        (applyOverLink choice d commands options).2 = r.2 ∧
        (reached choice && performs d commands options) = r.1.isOk := by
  cases hcached : d.cachedResult options with
  | some cached =>
      left
      have happly : d.applyConnections commands options = .ok (cached, d) := by
        unfold SimulatedOcsDevice.applyConnections
        rw [hcached]
      refine ⟨?_, by simp [performs, hcached]⟩
      unfold applyOverLink
      rw [happly]
      dsimp only
      split <;> rfl
  | none =>
      obtain ⟨r, happly, hout⟩ := hsound.outcome commands hcached
      have hperforms : performs d commands options = r.1.isOk := by
        simp [performs, hcached, happly]
      unfold applyOverLink
      rw [happly, hperforms]
      rcases choice with _ | _ | _ | _ | _ | n
      · exact .inr ⟨rfl, r, hout, rfl, rfl⟩
      · exact .inl ⟨rfl, rfl⟩
      · exact .inl ⟨rfl, rfl⟩
      · exact .inr ⟨rfl, r, hout, rfl, rfl⟩
      · exact .inr ⟨rfl, r, hout, rfl, rfl⟩
      · refine .inr ⟨rfl, r, hout, rfl, ?_⟩
        have hreached : reached (n + 5) = true := by
          unfold reached
          simp
        rw [hreached, Bool.true_and]

/-- The matrix changes with a transition only. -/
theorem matrix_of_no_transition (hsound : d.Sound) {choice : Nat}
    (hnone : (reached choice && performs d commands options) = false) :
    (applyOverLink choice d commands options).2.connections = d.connections := by
  rcases applyOverLink_device hsound choice with
    ⟨heq, -⟩ | ⟨-, r, hout, heq, hok⟩
  · rw [heq]
  · rw [heq]
    rw [hnone] at hok
    cases hout with
    | refused herror hinvalid => exact (d.finish_same options _).connections
    | injected herror hatomic hvalid harmed =>
        rw [(d.disarm.finish_same options _).connections]
        unfold SimulatedOcsDevice.disarm
        split_ifs <;> rfl
    | applied hatomic hvalid harmed hcopies =>
        rw [SimulatedOcsDevice.finish_fst] at hok
        cases hok

end Device

/-! ## What an operation does to the account -/

/-- The command that a hash belongs to. -/
def ownerOf : SyncdKey → Option CommandId
  | .applyAttempt command | .applyResult command | .statePublication command _
  | .countersPublication command | .resultPublication command _ | .processedCommand command =>
      some command
  | _ => none

/-- The operation leaves the account of the command alone, and does not apply its batch. -/
def Spares (id : CommandId) : SyncdOp → Prop
  | .xack _ => False
  | .putHash k _ => ownerOf k ≠ some id
  | .putHashIfAbsent k _ => ownerOf k ≠ some id
  | .putHashesAtomically entries => ∀ entry ∈ entries, ownerOf entry.1 ≠ some id
  | .replaceHashAndAppendEvent k _ event => ownerOf k ≠ some id ∧ isStateOf id event = false
  | .replaceStateOnce marker _ _ _ event => ownerOf marker ≠ some id ∧ isStateOf id event = false
  | .replaceAlarmOnce marker _ _ _ _ => ownerOf marker ≠ some id
  | .appendResultOnce marker _ event => ownerOf marker ≠ some id ∧ event.id.command ≠ id
  | .appendCommandOnce _ _ _ => False
  | .incrementOnce marker _ update => ownerOf marker ≠ some id ∧ update.command ≠ some id
  | .applyConnections _ options => options.operationId ≠ some id
  | _ => True

/-- The operation writes a hash, an event or counters. -/
def isRecord : SyncdOp → Bool
  | .putHash _ _ | .putHashIfAbsent _ _ | .putHashesAtomically _ | .replaceHashAndAppendEvent _ _ _
  | .replaceStateOnce _ _ _ _ _ | .replaceAlarmOnce _ _ _ _ _ | .appendResultOnce _ _ _
  | .incrementOnce _ _ _ => true
  | _ => false

/-- The same world for the device, the command stream and its group. -/
structure RecordsOnly (w w' : World) : Prop where
  commands : w'.commands = w.commands
  group : w'.syncd.group = w.syncd.group
  hwsim : w'.hwsim = w.hwsim

section Accounts

variable {id : CommandId} {w w' : World}

theorem account_congr (hhash : ∀ k, ownerOf k = some id → w'.syncd.hash k = w.syncd.hash k)
    (hstates : w'.syncd.stateEvents.filter (isStateOf id) = w.syncd.stateEvents.filter (isStateOf id))
    (hupdates : (w'.counters.filter fun update => update.command = some id) =
      w.counters.filter fun update => update.command = some id)
    (hresults : (w'.syncd.results.filter fun result => result.id.command = id) =
      w.syncd.results.filter fun result => result.id.command = id) : account w' id = account w id := by
  have hmarker : (fun member => w'.syncd.hash (.statePublication id member)) =
      fun member => w.syncd.hash (.statePublication id member) := by
    funext member
    exact hhash _ rfl
  have hanswered : (fun member => (w'.syncd.hash (.resultPublication id member)).isSome) =
      fun member => (w.syncd.hash (.resultPublication id member)).isSome := by
    funext member
    rw [hhash _ rfl]
  unfold account
  rw [hhash (.applyAttempt id) rfl, hhash (.applyResult id) rfl, hhash (.countersPublication id) rfl,
    hhash (.processedCommand id) rfl, hstates, hupdates, hresults, hmarker, hanswered]

theorem account_of_syncd (hsyncd : w'.syncd = w.syncd) (hcounters : w'.counters = w.counters) :
    account w' id = account w id := by
  unfold account
  rw [hsyncd, hcounters]

theorem account_mark {k : SyncdKey} {v : SyncdHash k} (hk : ownerOf k ≠ some id) :
    account (w.markSyncd k v) id = account w id := by
  refine account_congr (fun k' hk' => World.markSyncd_hash_of_ne _ _ _ ?_) rfl rfl rfl
  rintro rfl
  exact hk hk'

theorem account_once {marker : SyncdKey} {fields : SyncdHash marker} {write : World → World}
    (hk : ownerOf marker ≠ some id) (hwrite : account (write w) id = account w id) :
    account (w.onceSyncd marker fields write).2 id = account w id := by
  unfold World.onceSyncd
  split_ifs
  · rfl
  · exact (account_mark hk).trans hwrite

theorem account_putEntries {entries : List SyncdEntry}
    (h : ∀ entry ∈ entries, ownerOf entry.1 ≠ some id) :
    account (w.putEntries entries) id = account w id := by
  induction entries generalizing w with
  | nil => rfl
  | cons entry rest ih =>
      rw [putEntries_cons, ih fun e he => h e (List.mem_cons_of_mem _ he)]
      exact account_mark (h entry List.mem_cons_self)

theorem account_spared {o : SyncdOp} (h : Spares id o) (choice : Nat) (w : World) :
    account (o.exec choice w).2 id = account w id := by
  cases o with
  | putHash k v => exact account_mark h
  | putHashIfAbsent k v => exact account_once h rfl
  | putHashesAtomically entries => exact account_putEntries h
  | replaceHashAndAppendEvent k v event =>
      have hevent : account ((SyncdOp.replaceHashAndAppendEvent k v event).exec choice w).2 id =
          account (w.markSyncd k v) id := by
        refine account_congr (fun _ _ => rfl) ?_ rfl rfl
        simp [SyncdOp.exec, World.setSyncd, SyncdState.setHash, h.2]
      exact hevent.trans (account_mark h.1)
  | replaceStateOnce marker fields member state event =>
      refine account_once h.1 (account_congr (fun _ _ => rfl) ?_ rfl rfl)
      simp [World.setSyncd, h.2]
  | replaceAlarmOnce marker fields alarmId alarm event =>
      refine account_once h (account_congr (fun k hk => Function.update_of_ne ?_ _ _) rfl rfl rfl)
      rintro rfl
      cases hk
  | appendResultOnce marker fields event =>
      refine account_once h.1 (account_congr (fun _ _ => rfl) rfl rfl ?_)
      simp [World.setSyncd, h.2]
  | incrementOnce marker fields update =>
      refine account_once h.1 (account_congr (fun _ _ => rfl) rfl ?_ rfl)
      simp [h.2]
  | xack n => exact h.elim
  | appendCommandOnce marker fields event => exact h.elim
  | _ => exact account_congr (fun _ _ => rfl) rfl rfl rfl

theorem RecordsOnly.mark {w w' : World} (h : RecordsOnly w w') (k : SyncdKey) (v : SyncdHash k) :
    RecordsOnly w (w'.markSyncd k v) := ⟨h.commands, h.group, h.hwsim⟩

theorem recordsOnly_once {marker : SyncdKey} {fields : SyncdHash marker} {write : World → World}
    (hwrite : RecordsOnly w (write w)) : RecordsOnly w (w.onceSyncd marker fields write).2 := by
  unfold World.onceSyncd
  split_ifs
  · exact ⟨rfl, rfl, rfl⟩
  · exact hwrite.mark marker fields

theorem recordsOnly_putEntries (entries : List SyncdEntry) : RecordsOnly w (w.putEntries entries) := by
  induction entries generalizing w with
  | nil => exact ⟨rfl, rfl, rfl⟩
  | cons entry rest ih =>
      rw [putEntries_cons]
      exact ⟨ih.commands, ih.group, ih.hwsim⟩

theorem recordsOnly_exec {o : SyncdOp} (h : isRecord o = true) (choice : Nat) (w : World) :
    RecordsOnly w (o.exec choice w).2 := by
  cases o with
  | putHash k v => exact ⟨rfl, rfl, rfl⟩
  | putHashIfAbsent k v => exact recordsOnly_once ⟨rfl, rfl, rfl⟩
  | putHashesAtomically entries => exact recordsOnly_putEntries entries
  | replaceHashAndAppendEvent k v event => exact ⟨rfl, rfl, rfl⟩
  | replaceStateOnce marker fields member state event => exact recordsOnly_once ⟨rfl, rfl, rfl⟩
  | replaceAlarmOnce marker fields id alarm event => exact recordsOnly_once ⟨rfl, rfl, rfl⟩
  | appendResultOnce marker fields event => exact recordsOnly_once ⟨rfl, rfl, rfl⟩
  | incrementOnce marker fields update => exact recordsOnly_once ⟨rfl, rfl, rfl⟩
  | _ => cases h

end Accounts

/-! ### The account's own records -/

section Own

variable {w : World} {event : CommandEvent} {c : ConnectionCommand} {marker : StatePublication}

theorem account_attempted (batch : DeviceCommandBatch) :
    account (w.markSyncd (.applyAttempt event.id) batch) event.id =
      (account w event.id).attempt := by
  simp [account, Account.attempt, World.markSyncd_hash_of_ne]

theorem account_stored (stored : StoredResult) :
    account (w.markSyncd (.applyResult event.id) stored) event.id =
      (account w event.id).store stored := by
  simp [account, Account.store, World.markSyncd_hash_of_ne]

theorem account_finished (applied : Bool) :
    account (w.markSyncd (.processedCommand event.id) applied) event.id =
      (account w event.id).finish applied := by
  simp [account, Account.finish, World.markSyncd_hash_of_ne]

theorem account_published :
    account (w.markSyncd (.statePublication event.id c.id) marker) event.id =
      (account w event.id).publish event c marker none := by
  have hmarker : (fun member => (w.markSyncd (.statePublication event.id c.id) marker).syncd.hash
      (.statePublication event.id member)) =
        Function.update (account w event.id).marker c.id (some marker) := by
    funext member
    by_cases hm : member = c.id
    · subst hm
      rw [World.markSyncd_hash_self, Function.update_self]
    · rw [World.markSyncd_hash_of_ne _ _ _ (by simp [hm]), Function.update_of_ne hm]
      rfl
  unfold account
  rw [hmarker]
  simp [account, Account.publish, Account.stateEvents, World.markSyncd_hash_of_ne]

theorem account_answered {stored : StoredResult} :
    account ((w.setSyncd { w.syncd with
        results := w.syncd.results ++ [Account.answerEvent event stored c marker] }).markSyncd
          (.resultPublication event.id c.id) ()) event.id =
      (account w event.id).answer event stored c marker := by
  have hanswered : ∀ w' : World, (fun member => ((w'.markSyncd (.resultPublication event.id c.id)
      ()).syncd.hash (.resultPublication event.id member)).isSome) =
        Function.update (account w' event.id).answered c.id true := by
    intro w'
    funext member
    by_cases hm : member = c.id
    · subst hm
      rw [World.markSyncd_hash_self, Function.update_self]
      rfl
    · rw [World.markSyncd_hash_of_ne _ _ _ (by simp [hm]), Function.update_of_ne hm]
      rfl
  unfold account
  rw [hanswered]
  simp [account, Account.answer, Account.answerEvent, resultEvent, World.setSyncd,
    World.markSyncd_hash_of_ne]

theorem account_counted {stored : StoredResult} {delta : Int} :
    account ({ w with counters := w.counters ++ [applyCounters event stored delta] }.markSyncd
        (.countersPublication event.id) ()) event.id =
      (account w event.id).count event stored delta := by
  simp [account, Account.count, applyCounters, World.markSyncd_hash_of_ne]

theorem account_written {operation : ConnectionOperation} {state : Option ConnectionState} :
    account (w.publishState (.statePublication event.id c.id) marker c.id state
        (memberStateEvent event c operation state)) event.id =
      (account w event.id).publish event c marker (some (operation, state)) := by
  have hevent : isStateOf event.id (memberStateEvent event c operation state) = true := by
    simp [isStateOf, memberStateEvent]
  unfold World.publishState
  rw [account_published]
  simp [account, Account.publish, Account.stateEvents, World.setSyncd, hevent]

/-! ### Operations on the account's own records -/

section Exec

variable {a : Account} {stored : StoredResult} {delta : Int}

theorem exec_attempt (ha : account w event.id = a) (batch : DeviceCommandBatch) (choice : Nat) :
    account ((SyncdOp.putHashIfAbsent (.applyAttempt event.id) batch).exec choice w).2 event.id =
      a.attempt := by
  subst ha
  simp only [SyncdOp.exec]
  cases hmarker : w.syncd.hash (.applyAttempt event.id) with
  | some attempt =>
      rw [onceSyncd_some (by rw [hmarker]; rfl)]
      simp [account, Account.attempt, hmarker]
  | none =>
      rw [onceSyncd_none hmarker]
      exact account_attempted batch

theorem exec_skip (ha : account w event.id = a) (hnone : a.marker c.id = none) (choice : Nat) :
    account ((SyncdOp.putHashIfAbsent (.statePublication event.id c.id) marker).exec
      choice w).2 event.id = a.publish event c marker none := by
  subst ha
  simp only [SyncdOp.exec]
  rw [onceSyncd_none hnone]
  exact account_published

theorem exec_write (ha : account w event.id = a) (hnone : a.marker c.id = none)
    (operation : ConnectionOperation) (state : Option ConnectionState) (choice : Nat) :
    ((SyncdOp.replaceStateOnce (.statePublication event.id c.id) marker c.id state
        (memberStateEvent event c operation state)).exec choice w).1 = true ∧
      account ((SyncdOp.replaceStateOnce (.statePublication event.id c.id) marker c.id state
        (memberStateEvent event c operation state)).exec choice w).2 event.id =
          a.publish event c marker (some (operation, state)) := by
  subst ha
  rw [exec_replaceStateOnce_none hnone]
  exact ⟨rfl, account_written⟩

theorem exec_count (ha : account w event.id = a) (hnone : a.counted = false) (choice : Nat) :
    account ((SyncdOp.incrementOnce (.countersPublication event.id) ()
      (applyCounters event stored delta)).exec choice w).2 event.id =
        a.count event stored delta := by
  subst ha
  simp only [SyncdOp.exec]
  rw [onceSyncd_none (Option.isSome_eq_false_iff.mp hnone |> Option.isNone_iff_eq_none.mp)]
  exact account_counted

theorem exec_counted (ha : account w event.id = a) (hsome : a.counted = true) (choice : Nat)
    (update : CounterUpdate) :
    account ((SyncdOp.incrementOnce (.countersPublication event.id) () update).exec
      choice w).2 event.id = a := by
  subst ha
  simp only [SyncdOp.exec]
  rw [onceSyncd_some hsome]

theorem exec_answer (ha : account w event.id = a) (hnone : a.answered c.id = false)
    (choice : Nat) :
    account ((SyncdOp.appendResultOnce (.resultPublication event.id c.id) ()
      (Account.answerEvent event stored c marker)).exec choice w).2 event.id =
        a.answer event stored c marker := by
  subst ha
  have hmarker : w.syncd.hash (.resultPublication event.id c.id) = none :=
    Option.isNone_iff_eq_none.mp (Option.isSome_eq_false_iff.mp hnone)
  rw [exec_appendResultOnce_none hmarker]
  exact account_answered

theorem exec_answered (ha : account w event.id = a) (hsome : a.answered c.id = true) (choice : Nat)
    (result : ResultEvent) :
    account ((SyncdOp.appendResultOnce (.resultPublication event.id c.id) () result).exec
      choice w).2 event.id = a := by
  subst ha
  rw [exec_appendResultOnce_some hsome]

theorem exec_finish (ha : account w event.id = a) {applied : Bool} {entries : List SyncdEntry}
    (hentries : ∀ entry ∈ entries, ownerOf entry.1 = none) (choice : Nat) :
    account ((SyncdOp.putHashesAtomically
      (⟨.processedCommand event.id, applied⟩ :: entries)).exec choice w).2 event.id =
        a.finish applied := by
  subst ha
  simp only [SyncdOp.exec, putEntries_cons]
  rw [account_putEntries fun entry he => ?_]
  · exact account_finished applied
  · rw [hentries entry he]
    exact Option.some_ne_none _ |>.symm

end Exec
end Own
/-! ## The invariant -/

/-- The device remembers the result of the command, or the command is processed. -/
def remembered (w : World) (id : CommandId) : Bool :=
  (w.hwsim.applyResults.lookup id).isSome || (w.syncd.hash (.processedCommand id)).isSome

/-- The result of the command is not lost from the cache before the command is processed. -/
def Remembers (id : CommandId) (w w' : World) : Prop :=
  w.syncd.hash (.processedCommand id) = none → ∀ result,
    w.hwsim.applyResults.lookup id = some result → w'.hwsim.applyResults.lookup id = some result

structure Booked (id : CommandId) (t : Traced) : Prop where
  commands : (t.world.commands.map (·.id)).Nodup
  delivered : t.world.syncd.group.delivered ≤ t.world.commands.length
  sound : t.world.hwsim.Sound
  behind : BehindMarker (fun command => decide (command = id)) t.transitions (remembered t.world id)
  attempted : id ∈ t.transitions → (account t.world id).attempted = true
  fresh : (∀ event ∈ t.world.commands, event.id ≠ id) → account t.world id = {}
  formed : ∀ n event, t.world.commands[n]? = some event → event.id = id →
    ∀ batch, decodeDeviceCommand event.payload = .ok batch →
      (t.world.syncd.group.Acked n → (account t.world id).processed.isSome) ∧
        (Distinct batch.commands → Account.WellFormed event batch.commands (account t.world id))

section Moves

variable {id : CommandId} {t t' : Traced}

theorem Account.Step.processed {event : CommandEvent} {commands : List ConnectionCommand}
    {a b : Account} (h : Account.Step event commands a b) (hsome : a.processed.isSome) :
    b.processed.isSome := by
  cases h with
  | finish => rfl
  | discard => rfl
  | _ => exact hsome

/-- What every operation has to show. -/
theorem Booked.next (h : Booked id t)
    (hcommands : t'.world.commands = t.world.commands)
    (hacked : ∀ n event batch, t.world.commands[n]? = some event → event.id = id →
      decodeDeviceCommand event.payload = .ok batch → t'.world.syncd.group.Acked n →
        t.world.syncd.group.Acked n ∨ (account t.world id).processed.isSome)
    (hdelivered : t'.world.syncd.group.delivered ≤ t.world.commands.length)
    (hsound : t'.world.hwsim.Sound)
    (hbehind : BehindMarker (fun command => decide (command = id)) t'.transitions
      (remembered t'.world id))
    (hattempted : id ∈ t'.transitions → (account t'.world id).attempted = true)
    (haccount : account t'.world id = account t.world id ∨
      ∃ event ∈ t.world.commands, event.id = id ∧
        ∀ batch, decodeDeviceCommand event.payload = .ok batch →
          Account.Step event batch.commands (account t.world id) (account t'.world id)) :
    Booked id t' := by
  refine ⟨hcommands ▸ h.commands, hcommands ▸ hdelivered, hsound, hbehind, hattempted,
    fun hfresh => ?_, fun n event hget hid batch hdecode => ?_⟩
  · rw [hcommands] at hfresh
    rcases haccount with hsame | ⟨event, hmem, hid, -⟩
    · rw [hsame]
      exact h.fresh hfresh
    · exact absurd hid (hfresh event hmem)
  · rw [hcommands] at hget
    obtain ⟨hprocessed, hformed⟩ := h.formed n event hget hid batch hdecode
    have hacked' : t'.world.syncd.group.Acked n → (account t.world id).processed.isSome :=
      fun hacked' => (hacked n event batch hget hid hdecode hacked').elim hprocessed fun hsome => hsome
    rcases haccount with hsame | ⟨event', hmem, hid', hstep⟩
    · rw [hsame]
      exact ⟨hacked', hformed⟩
    · have heq : event' = event := List.inj_on_of_nodup_map h.commands hmem
        (List.mem_of_getElem? hget) (hid'.trans hid.symm)
      subst heq
      have hstep' := hstep batch hdecode
      exact ⟨fun ha => hstep'.processed (hacked' ha),
        fun hdistinct => (hformed hdistinct).step hdistinct hstep'⟩

theorem behind_mono {kind : CommandId → Bool} {log : List CommandId} {marker marker' : Bool}
    (h : BehindMarker kind log marker) (hmarker : marker = true → marker' = true) :
    BehindMarker kind log marker' := by
  cases marker' with
  | true => exact h.set
  | false =>
      cases marker with
      | true => exact absurd (hmarker rfl) Bool.false_ne_true
      | false => exact h

theorem remembered_mono {w w' : World} (hremembers : Remembers id w w')
    (hprocessed : (w.syncd.hash (.processedCommand id)).isSome →
      (w'.syncd.hash (.processedCommand id)).isSome) (h : remembered w id = true) :
    remembered w' id = true := by
  unfold remembered at h ⊢
  cases hp : w.syncd.hash (.processedCommand id) with
  | some applied => rw [hprocessed (by rw [hp]; rfl), Bool.or_true]
  | none =>
      rw [hp, Option.isSome_none, Bool.or_false] at h
      obtain ⟨result, hresult⟩ := Option.isSome_iff_exists.mp h
      rw [hremembers hp result hresult, Option.isSome_some, Bool.true_or]

/-- The records of a command change, and nothing that the device or the stream knows. -/
theorem Booked.move (h : Booked id t) (hrecords : RecordsOnly t.world t'.world)
    (htransitions : t'.transitions = t.transitions)
    (hattempted : (account t.world id).attempted = true → (account t'.world id).attempted = true)
    (hprocessed : (account t.world id).processed.isSome → (account t'.world id).processed.isSome)
    (haccount : account t'.world id = account t.world id ∨
      ∃ event ∈ t.world.commands, event.id = id ∧
        ∀ batch, decodeDeviceCommand event.payload = .ok batch →
          Account.Step event batch.commands (account t.world id) (account t'.world id)) :
    Booked id t' := by
  refine h.next hrecords.commands (fun _ _ _ _ _ _ hacked => .inl ?_) ?_ ?_ ?_ (fun hmem => ?_)
    haccount
  · rw [hrecords.group] at hacked
    exact hacked
  · rw [hrecords.group]
    exact h.delivered
  · rw [hrecords.hwsim]
    exact h.sound
  · rw [htransitions]
    refine behind_mono h.behind (remembered_mono (fun _ result hresult => ?_) hprocessed)
    rw [hrecords.hwsim]
    exact hresult
  · rw [htransitions] at hmem
    exact hattempted (h.attempted hmem)

end Moves

/-! ### Operations that spare the command -/

section Spared

variable {id : CommandId} {t : Traced} {o : SyncdOp}

def isApply : SyncdOp → Bool
  | .applyConnections _ _ => true
  | _ => false

theorem execTraced_still (h : isApply o = false) (choice : Nat) (t : Traced) :
    (execTraced (.syncd o) choice t).2 = ⟨(o.exec choice t.world).2, t.transitions⟩ := by
  have hnone : transitionsOf t.world choice (.syncd o) = [] := by
    cases o with
    | applyConnections commands options => cases h
    | _ => rfl
  simp only [execTraced, hnone, List.append_nil]
  rfl

theorem processed_spared (ho : Spares id o) (choice : Nat)
    (h : (t.world.syncd.hash (.processedCommand id)).isSome) :
    ((o.exec choice t.world).2.syncd.hash (.processedCommand id)).isSome := by
  have haccount := congrArg Account.processed (account_spared ho choice t.world)
  dsimp only [account] at haccount
  rw [haccount]
  exact h

theorem attempted_spared (h : Booked id t) (ho : Spares id o) (choice : Nat)
    (hmem : id ∈ t.transitions) : (account (o.exec choice t.world).2 id).attempted = true := by
  rw [account_spared ho choice t.world]
  exact h.attempted hmem

theorem Booked.sparedRead (h : Booked id t) (choice : Nat) :
    Booked id (execTraced (.syncd .readGroup) choice t).2 := by
  have hspares : Spares id .readGroup := trivial
  rw [execTraced_still rfl]
  refine h.next rfl (fun _ _ _ _ _ _ hacked => .inl (Group.acked_read.mp hacked)) ?_ h.sound
    h.behind (attempted_spared h hspares choice) (.inl (account_spared hspares choice t.world))
  change (t.world.syncd.group.read t.world.commands.length).2.delivered ≤ _
  unfold Group.read
  split_ifs with hread
  · exact hread.2
  · exact h.delivered

theorem sound_applyOverLink {d : SimulatedOcsDevice CommandId} (hsound : d.Sound)
    {commands : List ConnectionCommand} {options : ApplyOptions CommandId} (choice : Nat) :
    (applyOverLink choice d commands options).2.Sound := by
  obtain ⟨r, hr, hsound'⟩ := hsound.applyConnections commands options
  rcases (applyOverLink_cases hr choice).1 with heq | heq
  · rw [heq]
    exact hsound
  · rw [heq]
    exact hsound'

/-- A transition for another command. -/
theorem Booked.sparedApply (h : Booked id t) {commands : List ConnectionCommand}
    {options : ApplyOptions CommandId} (hother : options.operationId ≠ some id) (choice : Nat)
    (hremembers : Remembers id t.world
      ((SyncdOp.applyConnections commands options).exec choice t.world).2) :
    Booked id (execTraced (.syncd (.applyConnections commands options)) choice t).2 := by
  have hspares : Spares id (.applyConnections commands options) := hother
  have hextra : ∀ command ∈ transitionsOf t.world choice (.syncd (.applyConnections commands options)),
      decide (command = id) = false := by
    intro command hmem
    simp only [transitionsOf] at hmem
    split_ifs at hmem
    · have hop := Option.mem_toList.mp hmem
      rw [decide_eq_false_iff_not]
      rintro rfl
      exact hother hop
    · cases hmem
  refine h.next rfl (fun _ _ _ _ _ _ hacked => .inl hacked) h.delivered
    (sound_applyOverLink h.sound choice) ?_ (fun hmem => ?_)
    (.inl (account_spared hspares choice t.world))
  · exact behind_mono (h.behind.append hextra)
      (remembered_mono hremembers (processed_spared hspares choice))
  · rcases List.mem_append.mp hmem with hmem | hmem
    · exact attempted_spared h hspares choice hmem
    · exact absurd (hextra id hmem) (by simp)

theorem Booked.spared (h : Booked id t) (ho : Spares id o) (choice : Nat)
    (hremembers : Remembers id t.world (o.exec choice t.world).2) :
    Booked id (execTraced (.syncd o) choice t).2 := by
  have haccount := account_spared ho choice t.world
  have hmove : isApply o = false → RecordsOnly t.world (o.exec choice t.world).2 →
      Booked id (execTraced (.syncd o) choice t).2 := by
    intro happly hrecords
    rw [execTraced_still happly]
    exact h.move hrecords rfl (congrArg Account.attempted haccount).trans
      (processed_spared ho choice) (.inl haccount)
  cases o with
  | readGroup => exact h.sparedRead choice
  | applyConnections commands options => exact h.sparedApply ho choice hremembers
  | xack n => exact ho.elim
  | appendCommandOnce marker fields event => exact ho.elim
  | putHash k v => exact hmove rfl (recordsOnly_exec rfl choice _)
  | putHashIfAbsent k v => exact hmove rfl (recordsOnly_exec rfl choice _)
  | putHashesAtomically entries => exact hmove rfl (recordsOnly_exec rfl choice _)
  | replaceHashAndAppendEvent k v event => exact hmove rfl (recordsOnly_exec rfl choice _)
  | replaceStateOnce marker fields member state event =>
      exact hmove rfl (recordsOnly_exec rfl choice _)
  | replaceAlarmOnce marker fields alarmId alarm event =>
      exact hmove rfl (recordsOnly_exec rfl choice _)
  | appendResultOnce marker fields event => exact hmove rfl (recordsOnly_exec rfl choice _)
  | incrementOnce marker fields update => exact hmove rfl (recordsOnly_exec rfl choice _)
  | _ => exact hmove rfl ⟨rfl, rfl, rfl⟩

end Spared

/-! ### The operations of the command itself -/

section Owned

variable {id : CommandId} {t : Traced}

theorem stored_of_outcome {d : SimulatedOcsDevice CommandId}
    {commands : List ConnectionCommand} {options : ApplyOptions CommandId}
    {r : ApplyResult × SimulatedOcsDevice CommandId}
    (h : SimulatedOcsDevice.Outcome d commands options r)
    (hop : options.operationId = some id) : r.2.applyResults.lookup id = some r.1 := by
  obtain ⟨d₀, -, -, hfinish⟩ := h.cache
  have hstored := (d₀.finish_recorded options r.1).stored id hop
  rw [← hfinish] at hstored
  exact hstored

/-- The request of the command: the device performs it once, and remembers from then on. -/
theorem Booked.apply (h : Booked id t) {commands : List ConnectionCommand}
    {options : ApplyOptions CommandId} (hop : options.operationId = some id)
    (hopen : (account t.world id).processed = none)
    (hattempted : (account t.world id).attempted = true) (choice : Nat) :
    Booked id (execTraced (.syncd (.applyConnections commands options)) choice t).2 := by
  have haccount : account ((SyncdOp.applyConnections commands options).exec choice t.world).2 id =
      account t.world id := account_of_syncd rfl rfl
  refine h.next rfl (fun _ _ _ _ _ _ hacked => .inl hacked) h.delivered
    (sound_applyOverLink h.sound choice) ?_
    (fun _ => (congrArg Account.attempted haccount).trans hattempted) (.inl haccount)
  have htransitions : transitionsOf t.world choice (.syncd (.applyConnections commands options)) =
      if reached choice && performs t.world.hwsim commands options then [id] else [] := by
    simp only [transitionsOf, hop, Option.toList_some]
  simp only [execTraced, htransitions]
  rcases applyOverLink_device h.sound choice with
    ⟨heq, hnone⟩ | ⟨hcached, r, hout, heq, hok⟩
  · rw [hnone, if_neg Bool.false_ne_true, List.append_nil]
    refine behind_mono h.behind (remembered_mono (fun _ result hresult => ?_) fun hsome => hsome)
    change (applyOverLink choice t.world.hwsim commands options).2.applyResults.lookup id = _
    rw [heq]
    exact hresult
  · have hforgotten : remembered t.world id = false := by
      have hlookup : t.world.hwsim.applyResults.lookup id = none := by
        simpa only [SimulatedOcsDevice.cachedResult, hop, Option.bind_some] using hcached
      have hprocessed : t.world.syncd.hash (.processedCommand id) = none := hopen
      unfold remembered
      rw [hlookup, hprocessed]
      rfl
    have hremembered : remembered ((SyncdOp.applyConnections commands options).exec choice
        t.world).2 id = true := by
      have hlookup : (applyOverLink choice t.world.hwsim commands options).2.applyResults.lookup id =
          some r.1 := heq ▸ stored_of_outcome hout hop
      unfold remembered
      change (((applyOverLink choice t.world.hwsim commands options).2.applyResults.lookup
        id).isSome || _) = true
      rw [hlookup, Option.isSome_some, Bool.true_or]
    have hbehind := h.behind
    rw [hforgotten] at hbehind
    change BehindMarker _ _ (remembered ((SyncdOp.applyConnections commands options).exec choice
        t.world).2 id)
    rw [hremembered, hok]
    split_ifs
    · exact hbehind.mark id
    · rw [List.append_nil]
      exact hbehind.set

end Owned

/-! ## The system -/

/-- What the rest of the system does between two calls of the handler. -/
structure Beside (id : CommandId) (s t : Traced) : Prop where
  commands : s.world.commands <+: t.world.commands
  nodup : (t.world.commands.map (·.id)).Nodup
  group : t.world.syncd.group = s.world.syncd.group
  device : DeviceMoves s.world.hwsim t.world.hwsim
  remembers : Remembers id s.world t.world
  account : account t.world id = account s.world id
  results : ∀ command,
    t.world.syncd.hash (.applyResult command) = s.world.syncd.hash (.applyResult command)
  transitions : t.transitions = s.transitions

/-- One command handler that may be cut anywhere. A run does not lose the result of the command
from the cache of the device before the command is processed. -/
def commandHandler (id : CommandId) : System Op Op.Reply Raised Bool Traced Unit where
  exec := execTraced
  init t := ∃ inventory info hwsim, SimulatedOcsDevice.construct info = some (.ok hwsim) ∧
    t = ⟨{ inventory := inventory, hwsim := hwsim }, []⟩
  starts _ _ p := p = processOne
  crash _ t := t
  env := Beside id
  allow _ o choice t := Remembers id t.world (exec o choice t.world).2

/-- What the handler may assume of the others. -/
structure Unmoved (id : CommandId) (s t : Traced) : Prop where
  commands : s.world.commands <+: t.world.commands
  account : account t.world id = account s.world id
  results : ∀ command,
    t.world.syncd.hash (.applyResult command) = s.world.syncd.hash (.applyResult command)

def accounting (id : CommandId) : Contract Op Traced where
  inv := Booked id
  rely := Unmoved id
  guard o t := ∀ choice, Remembers id t.world (exec o choice t.world).2 →
    Booked id (execTraced o choice t).2
  allow o choice t := Remembers id t.world (exec o choice t.world).2
  refl _ := ⟨List.prefix_rfl, rfl, fun _ => rfl⟩
  trans h h' := ⟨h.commands.trans h'.commands, h'.account.trans h.account,
    fun command => (h'.results command).trans (h.results command)⟩

abbrev SafeE (id : CommandId) {α : Type} (p : Service α) (t : Traced) : Prop :=
  Safe execTraced (accounting id) (fun _ _ => True) p t

/-- The program may be started wherever this is the account of the command. -/
def From (n : Nat) (event : CommandEvent) (a : Account) {α : Type} (p : Service α) : Prop :=
  ∀ t, Booked event.id t → t.world.commands[n]? = some event →
    account t.world event.id = a → SafeE event.id p t

/-! ## Rules -/

/-- What the call writes belongs to one command or to none. It neither applies a batch nor moves
the command stream. -/
def Attributed (own : Option CommandId) : Op → Prop
  | .orch _ => False
  | .syncd o => match o with
    | .readGroup | .xack _ | .appendCommandOnce _ _ _ | .applyConnections _ _ => False
    | .putHash k _ => ownerOf k = none ∨ ownerOf k = own
    | .putHashIfAbsent k _ => ownerOf k = none ∨ ownerOf k = own
    | .putHashesAtomically entries =>
        ∀ entry ∈ entries, ownerOf entry.1 = none ∨ ownerOf entry.1 = own
    | .replaceHashAndAppendEvent _ _ _ => False
    | .replaceStateOnce marker _ _ _ event => (ownerOf marker = none ∨ ownerOf marker = own) ∧
        ∀ id, isStateOf id event = true → own = some id
    | .replaceAlarmOnce marker _ _ _ _ => ownerOf marker = none ∨ ownerOf marker = own
    | .appendResultOnce marker _ event => (ownerOf marker = none ∨ ownerOf marker = own) ∧
        own = some event.id.command
    | .incrementOnce marker _ update => (ownerOf marker = none ∨ ownerOf marker = own) ∧
        (update.command = none ∨ update.command = own)
    | _ => True

theorem Attributed.spares {own : Option CommandId} {o : SyncdOp} (h : Attributed own (.syncd o))
    {id : CommandId} (hne : own ≠ some id) : Spares id o := by
  have hother : ∀ owner : Option CommandId, owner = none ∨ owner = own → owner ≠ some id := by
    rintro owner (rfl | rfl)
    · exact (Option.some_ne_none id).symm
    · exact hne
  cases o with
  | putHash k v => exact hother _ h
  | putHashIfAbsent k v => exact hother _ h
  | putHashesAtomically entries => exact fun entry he => hother _ (h entry he)
  | replaceHashAndAppendEvent k v event => exact h.elim
  | replaceStateOnce marker fields member state event =>
      refine ⟨hother _ h.1, ?_⟩
      cases hstate : isStateOf id event with
      | false => rfl
      | true => exact absurd (h.2 id hstate) hne
  | replaceAlarmOnce marker fields alarmId alarm event => exact hother _ h
  | appendResultOnce marker fields event =>
      refine ⟨hother _ h.1, fun heq => hne ?_⟩
      rw [h.2, heq]
  | incrementOnce marker fields update => exact ⟨hother _ h.1, hother _ h.2⟩
  | xack n => exact h.elim
  | appendCommandOnce marker fields event => exact h.elim
  | applyConnections commands options => exact h.elim
  | _ => trivial

abbrev AttributedTo {α : Type} (own : Option CommandId) (Q : α → Prop) (p : Service α) : Prop :=
  p.Given (Attributed own) (fun _ _ => True) Q

section Rules

variable {α β : Type} {n : Nat} {event : CommandEvent} {a b : Account} {o : SyncdOp}

theorem commands_spared {id : CommandId} (ho : Spares id o) (choice : Nat) (w : World) :
    (o.exec choice w).2.commands = w.commands := by
  cases o with
  | appendCommandOnce marker fields event => exact ho.elim
  | putHashIfAbsent k v => exact (recordsOnly_exec rfl choice w).commands
  | putHashesAtomically entries => exact (recordsOnly_exec rfl choice w).commands
  | replaceStateOnce marker fields member state event =>
      exact (recordsOnly_exec rfl choice w).commands
  | replaceAlarmOnce marker fields alarmId alarm event =>
      exact (recordsOnly_exec rfl choice w).commands
  | appendResultOnce marker fields event => exact (recordsOnly_exec rfl choice w).commands
  | incrementOnce marker fields update => exact (recordsOnly_exec rfl choice w).commands
  | _ => rfl

theorem SafeE.send {id : CommandId} {s : Traced} {k : o.Reply → Service α}
    (hguard : ∀ t, Booked id t → Unmoved id s t → ∀ choice,
      Remembers id t.world (o.exec choice t.world).2 →
        Booked id (execTraced (.syncd o) choice t).2)
    (hk : ∀ t choice, Booked id t → Unmoved id s t → Booked id (execTraced (.syncd o) choice t).2 →
      SafeE id (k (o.exec choice t.world).1) (execTraced (.syncd o) choice t).2) :
    SafeE id (Syncd.send o >>= k) s := fun t ht hst =>
  ⟨hguard t ht hst, fun choice hremembers =>
    hk t choice ht hst (hguard t ht hst choice hremembers)⟩

theorem From.send {k : o.Reply → Service α}
    (hcommands : ∀ w choice, (o.exec choice w).2.commands = w.commands)
    (hguard : ∀ t, Booked event.id t → t.world.commands[n]? = some event →
      account t.world event.id = a → ∀ choice,
        Remembers event.id t.world (o.exec choice t.world).2 →
          Booked event.id (execTraced (.syncd o) choice t).2)
    (hk : ∀ w choice, account w event.id = a →
      From n event (account (o.exec choice w).2 event.id) (k (o.exec choice w).1)) :
    From n event a (Syncd.send o >>= k) := by
  intro s hs hget ha
  refine SafeE.send (fun t ht hst => ?_) fun t choice ht hst hkeep => ?_
  · exact hguard t ht (Gnmi.getElem?_of_prefix hst.commands hget) (hst.account.trans ha)
  · refine hk t.world choice (hst.account.trans ha) _ hkeep ?_ rfl
    change (o.exec choice t.world).2.commands[n]? = some event
    rw [hcommands]
    exact Gnmi.getElem?_of_prefix hst.commands hget

/-- A call that spares the command, and whose reply is known as far as the account goes. -/
theorem From.ask {k : o.Reply → Service α} (R : o.Reply → Prop) (ho : Spares event.id o)
    (hreply : ∀ w choice, account w event.id = a → R (o.exec choice w).1)
    (hk : ∀ r, R r → From n event a (k r)) : From n event a (Syncd.send o >>= k) := by
  refine From.send (fun w choice => commands_spared ho choice w)
    (fun t ht _ _ choice hremembers => ht.spared ho choice hremembers) fun w choice ha => ?_
  rw [account_spared ho choice w, ha]
  exact hk _ (hreply w choice ha)

theorem From.skip {k : o.Reply → Service α} (ho : Spares event.id o)
    (hk : ∀ r, From n event a (k r)) : From n event a (Syncd.send o >>= k) :=
  From.ask (fun _ => True) ho (fun _ _ _ => trivial) fun r _ => hk r

/-- A read that the account answers. -/
theorem From.read {k : o.Reply → Service α} (r : o.Reply) (ho : Spares event.id o)
    (hreply : ∀ w choice, account w event.id = a → (o.exec choice w).1 = r)
    (hk : From n event a (k r)) : From n event a (Syncd.send o >>= k) := by
  refine From.ask (· = r) ho hreply fun r' heq => ?_
  rw [heq]
  exact hk

theorem From.given {Q : β → Prop} {p : Service β} {k : β → Service α}
    (hp : AttributedTo none Q p)
    (hk : ∀ b, Q b → From n event a (k b)) : From n event a (p >>= k) := by
  induction p with
  | pure b => exact hk b hp
  | throw e => exact fun _ _ _ _ _ _ _ => trivial
  | call o k' ih =>
      cases o with
      | orch o => exact hp.1.elim
      | syncd o =>
          exact From.skip (hp.1.spares (Option.some_ne_none event.id).symm) fun r =>
            ih r (hp.2 r trivial)

theorem From.raise {e : Raised} : From n event a (Syncd.raise e : Service α) :=
  From.skip (k := fun _ => .throw e) trivial fun _ _ _ _ _ _ _ _ => trivial

theorem From.raise_bind {e : Raised} {k : β → Service α} :
    From n event a ((Syncd.raise e : Service β) >>= k) :=
  From.skip (k := fun _ => .throw e) trivial fun _ _ _ _ _ _ _ _ => trivial

theorem From.done (value : α) : From n event a (.pure value : Service α) :=
  fun _ _ _ _ _ _ _ => trivial

theorem Account.Step.attempted {commands : List ConnectionCommand}
    (h : Account.Step event commands a b) (htrue : a.attempted = true) : b.attempted = true := by
  cases h with
  | attempt => rfl
  | _ => exact htrue

/-- A write to the records of the command. -/
theorem From.record {k : o.Reply → Service α} {decoded : DeviceCommandBatch}
    (hdecode : decodeDeviceCommand event.payload = .ok decoded) (ho : isRecord o = true)
    (haccount : ∀ w choice, account w event.id = a → account (o.exec choice w).2 event.id = b)
    (hstep : b = a ∨ Account.Step event decoded.commands a b)
    (hk : ∀ w choice, account w event.id = a → From n event b (k (o.exec choice w).1)) :
    From n event a (Syncd.send o >>= k) := by
  refine From.send (fun w choice => (recordsOnly_exec ho choice w).commands)
    (fun t ht hget ha choice _ => ?_) fun w choice ha => ?_
  · have hb := haccount t.world choice ha
    have happly : isApply o = false := by
      cases o with
      | applyConnections commands options => cases ho
      | _ => rfl
    rw [execTraced_still happly]
    refine ht.move (recordsOnly_exec ho choice t.world) rfl ?_ ?_ ?_
    · rw [ha, hb]
      rcases hstep with rfl | hstep
      · exact fun htrue => htrue
      · exact hstep.attempted
    · rw [ha, hb]
      rcases hstep with rfl | hstep
      · exact fun hsome => hsome
      · exact hstep.processed
    · rw [ha, hb]
      refine hstep.imp_right fun hstep => ⟨event, List.mem_of_getElem? hget, rfl, ?_⟩
      intro batch hbatch
      rw [hdecode] at hbatch
      cases hbatch
      exact hstep
  · rw [haccount w choice ha]
    exact hk w choice ha

/-- The apply request of the command. -/
theorem From.apply {commands : List ConnectionCommand} {options : ApplyOptions CommandId}
    {k : Except String ApplyResult → Service α} (hop : options.operationId = some event.id)
    (hopen : a.processed = none) (hattempted : a.attempted = true)
    (hk : ∀ reply, From n event a (k reply)) :
    From n event a (Syncd.send (.applyConnections commands options) >>= k) := by
  refine From.send (fun _ _ => rfl) (fun t ht _ ha choice _ => ?_) fun w choice ha => ?_
  · exact ht.apply hop (by rw [ha]; exact hopen) (by rw [ha]; exact hattempted) choice
  · have haccount : account ((SyncdOp.applyConnections commands options).exec choice w).2
        event.id = a := (account_of_syncd rfl rfl).trans ha
    rw [haccount]
    exact hk _

end Rules

/-! ## Acknowledgements -/

section Acknowledging

variable {id : CommandId} {n : Nat} {event : CommandEvent} {a : Account} {t : Traced}

/-- An entry may be acknowledged unless it is the command, decodes and is not processed. -/
theorem Booked.ack (h : Booked id t) (hget : t.world.commands[n]? = some event)
    (hdone : event.id = id → ∀ batch, decodeDeviceCommand event.payload = .ok batch →
      (account t.world id).processed.isSome) (choice : Nat) :
    Booked id (execTraced (.syncd (.xack n)) choice t).2 := by
  rw [execTraced_still rfl]
  refine h.next rfl (fun m event' batch hget' hid hdecode hacked => ?_) h.delivered h.sound h.behind
    h.attempted (.inl rfl)
  rcases Group.acked_ack.mp hacked with hacked | ⟨rfl, -⟩
  · exact .inl hacked
  · rw [hget] at hget'
    cases hget'
    exact .inr (hdone hid batch hdecode)

theorem From.acknowledge (hended : a.processed.isSome) : From n event a (acknowledge n) := by
  refine From.send (fun _ _ => rfl) (fun t ht hget ha choice _ => ?_) fun w choice ha => ?_
  · exact ht.ack hget (fun _ _ _ => by rw [ha]; exact hended) choice
  · split_ifs
    · exact From.done true
    · exact From.raise

end Acknowledging

/-! ## Bookkeeping -/

section Bookkeeping

theorem ReadOp.attributed {own : Option CommandId} {o : Op} (ho : ReadOp o) : Attributed own o := by
  cases o with
  | orch o => exact ho.elim
  | syncd o =>
      cases o with
      | putHash _ _ | putHashIfAbsent _ _ | putHashesAtomically _ | replaceHashAndAppendEvent _ _ _
      | replaceStateOnce _ _ _ _ _ | replaceAlarmOnce _ _ _ _ _ | appendResultOnce _ _ _
      | appendCommandOnce _ _ _ | incrementOnce _ _ _ | applyConnections _ _ | readGroup
      | xack _ => cases ho
      | _ => trivial

theorem attributed_of_reads {α : Type} {own : Option CommandId} {Q : α → Prop} {p : Service α}
    (hp : ReadsTo Q p) : AttributedTo own Q p := hp.permit fun _ => ReadOp.attributed

theorem Tallies.attributed {own : Option CommandId} {command : CommandId} {o : Op}
    (ho : Tallies command o) : Attributed own o := by
  rcases ho with hreads | rfl
  · exact hreads.attributed
  · exact ⟨.inl rfl, .inl rfl⟩

/-- Hashes that belong to no command. -/
abbrev Ownerless (entries : List SyncdEntry) : Prop := ∀ entry ∈ entries, ownerOf entry.1 = none

theorem Ownerless.append {entries entries' : List SyncdEntry} (h : Ownerless entries)
    (h' : Ownerless entries') : Ownerless (entries ++ entries') := by
  intro entry hmem
  rcases List.mem_append.mp hmem with hmem | hmem
  · exact h entry hmem
  · exact h' entry hmem

theorem ownerless_versions {generation : Nat} {commands : List ConnectionCommand}
    {versions : List SyncdEntry} (h : ∀ entry ∈ versions, ∃ c ∈ commands,
      entry = ⟨.connectionVersion c.id, ⟨c.desiredVersion, generation⟩⟩) : Ownerless versions := by
  intro entry hmem
  obtain ⟨c, -, rfl⟩ := h entry hmem
  rfl

theorem ownerless_repairs {repairs : List SyncdEntry} (h : RepairsOnly repairs) :
    Ownerless repairs := by
  intro entry hmem
  have hkey := h entry hmem
  obtain ⟨k, v⟩ := entry
  cases k with
  | reconciliation => rfl
  | portFault direction id => rfl
  | _ => cases hkey

end Bookkeeping

/-! ## Processing the command -/

section Processing

variable {α : Type} {n : Nat} {event : CommandEvent} {decoded : DeviceCommandBatch}
  {a b : Account} {stored : StoredResult} {c : ConnectionCommand}

/-- What stands stays. -/
structure Persists (a b : Account) : Prop where
  stored : b.stored = a.stored
  processed : b.processed = a.processed
  counted : a.counted = true → b.counted = true
  marker : ∀ member marker, a.marker member = some marker → b.marker member = some marker
  answered : ∀ member, a.answered member = true → b.answered member = true

theorem Persists.refl (a : Account) : Persists a a := ⟨rfl, rfl, id, fun _ _ => id, fun _ => id⟩

theorem Persists.trans {x y z : Account} (h : Persists x y) (h' : Persists y z) : Persists x z :=
  ⟨h'.stored.trans h.stored, h'.processed.trans h.processed, h'.counted ∘ h.counted,
    fun member marker => h'.marker member marker ∘ h.marker member marker,
    fun member => h'.answered member ∘ h.answered member⟩

theorem persists_publish {marker : StatePublication} (hnone : a.marker c.id = none)
    (written : Option (ConnectionOperation × Option ConnectionState)) :
    Persists a (a.publish event c marker written) := by
  refine ⟨rfl, rfl, id, fun member marker' hmarker => ?_, fun _ => id⟩
  have hne : member ≠ c.id := by
    rintro rfl
    rw [hnone] at hmarker
    cases hmarker
  exact (Function.update_of_ne hne _ _).trans hmarker

theorem persists_count (delta : Int) : Persists a (a.count event stored delta) :=
  ⟨rfl, rfl, fun _ => rfl, fun _ _ => id, fun _ => id⟩

theorem persists_answer (marker : StatePublication) : Persists a (a.answer event stored c marker) := by
  refine ⟨rfl, rfl, id, fun _ _ => id, fun member hanswered => ?_⟩
  by_cases hm : member = c.id
  · subst hm
    exact Function.update_self ..
  · exact (Function.update_of_ne hm _ _).trans hanswered

/-! ### Members -/

theorem marker_reply {w : World} (ha : account w event.id = a) (member : String) :
    w.syncd.hash (.statePublication event.id member) = a.marker member :=
  congrFun (congrArg Account.marker ha) member

theorem from_skipMemberState {k : Int → Service α} {marker : StatePublication}
    (hdecode : decodeDeviceCommand event.payload = .ok decoded) (hopen : a.processed = none)
    (hstored : a.stored = some stored) (hc : c ∈ decoded.commands) (hnone : a.marker c.id = none)
    (hpublishes : Publishes stored.result c marker none)
    (hk : From n event (a.publish event c marker none) (k marker.activeDelta)) :
    From n event a (skipMemberState event c marker >>= k) := by
  unfold skipMemberState
  rw [Prog.bind_assoc']
  refine From.record hdecode rfl (fun w choice ha => exec_skip ha hnone choice)
    (.inr (.publish hopen hstored hc hnone hpublishes)) fun _ _ _ => ?_
  rw [Prog.bind_assoc']
  refine From.read (some marker) trivial (fun w choice hb => ?_) ?_
  · exact (marker_reply hb c.id).trans (Function.update_self ..)
  · exact hk

theorem from_replaceMemberState {k : Int → Service α} {before after : Bool}
    {operation : ConnectionOperation} {state : Option ConnectionState}
    (hdecode : decodeDeviceCommand event.payload = .ok decoded) (hopen : a.processed = none)
    (hstored : a.stored = some stored) (hc : c ∈ decoded.commands) (hnone : a.marker c.id = none)
    (hpublishes : Publishes stored.result c { activeDelta := activeDelta before after }
      (some (operation, state)))
    (hk : From n event (a.publish event c { activeDelta := activeDelta before after }
      (some (operation, state))) (k (activeDelta before after))) :
    From n event a (replaceMemberState event c before after operation state >>= k) := by
  unfold replaceMemberState
  rw [Prog.bind_assoc']
  refine From.record hdecode rfl
    (fun w choice ha => (exec_write ha hnone operation state choice).2)
    (.inr (.publish hopen hstored hc hnone hpublishes)) fun w choice ha => ?_
  rw [(exec_write ha hnone operation state choice).1]
  exact hk

theorem from_publishMemberState {k : Int → Service α} {previous : Option ConnectionState}
    (hdecode : decodeDeviceCommand event.payload = .ok decoded) (hopen : a.processed = none)
    (hstored : a.stored = some stored) (hc : c ∈ decoded.commands) (hnone : a.marker c.id = none)
    (hk : ∀ marker written, From n event (a.publish event c marker written) (k marker.activeDelta)) :
    From n event a (publishMemberState event stored.result c previous >>= k) := by
  unfold publishMemberState
  dsimp only
  split_ifs with hok
  · cases hop : c.operation with
    | remove =>
        exact from_replaceMemberState hdecode hopen hstored hc hnone (.removed hok hop) (hk _ _)
    | upsert =>
        dsimp only
        cases hfind : stored.result.connections.find? fun item => item.id = c.id with
        | none => exact From.raise_bind
        | some applied =>
            exact from_replaceMemberState hdecode hopen hstored hc hnone
              (.applied hok hop hfind) (hk _ _)
  · rw [Prog.bind_assoc']
    refine From.skip trivial fun state => ?_
    exact from_replaceMemberState hdecode hopen hstored hc hnone
      (.failed (by simpa using hok)) (hk _ _)

/-- What a member comes to is marked, and its delta is the one that the marker records. -/
theorem from_publishMember {k : Int → Service α}
    (hdecode : decodeDeviceCommand event.payload = .ok decoded) (hopen : a.processed = none)
    (hstored : a.stored = some stored) (hc : c ∈ decoded.commands)
    (hk : ∀ b marker, Persists a b → b.marker c.id = some marker →
      From n event b (k marker.activeDelta)) :
    From n event a (publishMember event stored.result c >>= k) := by
  unfold publishMember
  rw [Prog.bind_assoc']
  refine From.read (a.marker c.id) trivial (fun w choice ha => marker_reply ha c.id) ?_
  cases hmarker : a.marker c.id with
  | some marker => exact hk a marker (Persists.refl a) hmarker
  | none =>
      have hpublished : ∀ marker written,
          From n event (a.publish event c marker written) (k marker.activeDelta) :=
        fun marker written => hk _ marker (persists_publish hmarker written)
          (Function.update_self ..)
      dsimp only
      rw [Prog.bind_assoc']
      refine From.skip trivial fun previous => ?_
      split_ifs with hsuperseded
      · exact from_skipMemberState hdecode hopen hstored hc hmarker (.superseded hsuperseded)
          (hpublished _ _)
      · cases hpreserve : preserveConfirmedPortState c stored.result previous with
        | error message => exact From.raise_bind
        | ok unchanged =>
            cases unchanged with
            | true =>
                exact from_skipMemberState hdecode hopen hstored hc hmarker (.confirmed hpreserve)
                  (hpublished _ _)
            | false => exact from_publishMemberState hdecode hopen hstored hc hmarker hpublished

/-- The total is the sum of the deltas that the markers record. -/
theorem from_publishState {k : Int → Service α}
    (hdecode : decodeDeviceCommand event.payload = .ok decoded) (hopen : a.processed = none)
    (hstored : a.stored = some stored) {rest : List ConnectionCommand}
    (hsub : rest ⊆ decoded.commands) (total : Int)
    (hk : ∀ b delta, Persists a b → b.delta rest = some delta → From n event b (k (total + delta))) :
    From n event a (publishState event stored.result total rest >>= k) := by
  induction rest generalizing a total with
  | nil =>
      have hdone := hk a 0 (Persists.refl a) rfl
      rw [Int.add_zero] at hdone
      exact hdone
  | cons c rest ih =>
      unfold publishState
      rw [Prog.bind_assoc']
      refine from_publishMember hdecode hopen hstored (hsub List.mem_cons_self)
        fun b marker hab hmarker => ?_
      refine ih (hab.processed.trans hopen) (hab.stored.trans hstored)
        (fun x hx => hsub (List.mem_cons_of_mem _ hx)) _ fun b' delta hbb' hdelta => ?_
      have hsum : b'.delta (c :: rest) = some (marker.activeDelta + delta) := by
        unfold Account.delta
        rw [hbb'.marker c.id marker hmarker, hdelta]
      rw [Int.add_assoc]
      exact hk b' _ (hab.trans hbb') hsum

/-- Every member gets its answer, with the marker that it has. -/
theorem from_publishMemberResults {k : Unit → Service α}
    (hdecode : decodeDeviceCommand event.payload = .ok decoded) (hopen : a.processed = none)
    (hstored : a.stored = some stored) {rest : List ConnectionCommand}
    (hsub : rest ⊆ decoded.commands) (hmarked : ∀ c ∈ rest, (a.marker c.id).isSome)
    (hk : ∀ b, Persists a b → (∀ c ∈ rest, b.answered c.id = true) → From n event b (k ())) :
    From n event a (publishMemberResults event stored.result rest >>= k) := by
  induction rest generalizing a with
  | nil => exact hk a (Persists.refl a) fun c hc => absurd hc List.not_mem_nil
  | cons c rest ih =>
      have hmem := hsub List.mem_cons_self
      obtain ⟨marker, hmarker⟩ := Option.isSome_iff_exists.mp (hmarked c List.mem_cons_self)
      have hrest : ∀ b, Persists a b → b.answered c.id = true →
          From n event b (publishMemberResults event stored.result rest >>= k) := by
        intro b hab hanswered
        refine ih (hab.processed.trans hopen) (hab.stored.trans hstored)
          (fun x hx => hsub (List.mem_cons_of_mem _ hx)) (fun x hx => ?_) fun b' hbb' hall => ?_
        · obtain ⟨m, hm⟩ := Option.isSome_iff_exists.mp (hmarked x (List.mem_cons_of_mem _ hx))
          rw [hab.marker x.id m hm]
          rfl
        · refine hk b' (hab.trans hbb') fun x hx => ?_
          rcases List.mem_cons.mp hx with rfl | hx
          · exact hbb'.answered _ hanswered
          · exact hall x hx
      unfold publishMemberResults
      rw [Prog.bind_assoc']
      refine From.read (some marker) trivial
        (fun w choice ha => (marker_reply ha c.id).trans hmarker) ?_
      rw [Prog.bind_assoc']
      cases hanswered : a.answered c.id with
      | true =>
          refine From.record (b := a) hdecode rfl
            (fun w choice ha => exec_answered ha hanswered choice _) (.inl rfl) fun _ _ _ => ?_
          exact hrest a (Persists.refl a) hanswered
      | false =>
          refine From.record hdecode rfl (fun w choice ha => exec_answer ha hanswered choice)
            (.inr (.answer hopen hstored hmem hmarker hanswered)) fun _ _ _ => ?_
          exact hrest _ (persists_answer marker) (Function.update_self ..)

/-! ### The whole command -/

theorem from_markProcessed {k : Unit → Service α} {batch : DeviceCommandBatch} {applied : Bool}
    (hdecode : decodeDeviceCommand event.payload = .ok decoded)
    (hstep : Account.Step event decoded.commands a (a.finish applied))
    (hk : From n event (a.finish applied) (k ())) :
    From n event a (markProcessed event batch applied >>= k) := by
  unfold markProcessed
  rw [Prog.bind_assoc']
  refine From.skip trivial fun memory => ?_
  rw [Prog.bind_assoc']
  refine From.given (attributed_of_reads (reads_appliedVersions memory.2 batch.commands applied))
    fun versions hversions => ?_
  rw [Prog.bind_assoc']
  refine From.given ((tallies_markReconciliation event applied).permit fun _ => Tallies.attributed)
    fun repairs hrepairs => ?_
  have hownerless := (ownerless_versions hversions).append (ownerless_repairs hrepairs)
  exact From.record hdecode rfl
    (fun w choice ha => exec_finish ha hownerless choice) (.inr hstep)
    fun _ _ _ => hk

theorem from_countOnce {k : Bool → Service α} {delta : Int}
    (hdecode : decodeDeviceCommand event.payload = .ok decoded) (hopen : a.processed = none)
    (hstored : a.stored = some stored) (hdelta : a.delta decoded.commands = some delta)
    (hk : ∀ r b, Persists a b → b.counted = true → From n event b (k r)) :
    From n event a (Syncd.send (.incrementOnce (.countersPublication event.id) ()
      (applyCounters event stored delta)) >>= k) := by
  cases hcounted : a.counted with
  | true =>
      exact From.record (b := a) hdecode rfl
        (fun w choice ha => exec_counted ha hcounted choice _) (.inl rfl)
        fun _ _ _ => hk _ a (Persists.refl a) hcounted
  | false =>
      exact From.record hdecode rfl (fun w choice ha => exec_count ha hcounted choice)
        (.inr (.count hopen hstored hcounted hdelta))
        fun _ _ _ => hk _ _ (persists_count delta) rfl

/-- The markers of the members are set once their deltas add up. -/
theorem marked_of_delta {commands : List ConnectionCommand} {delta : Int}
    (h : a.delta commands = some delta) : ∀ c ∈ commands, (a.marker c.id).isSome :=
  fun _ hc => Account.marker_of_delta h hc

theorem from_finishCommand {batch : DeviceCommandBatch}
    (hdecode : decodeDeviceCommand event.payload = .ok decoded)
    (hcommands : batch.commands = decoded.commands) (hopen : a.processed = none)
    (hstored : a.stored = some stored) : From n event a (finishCommand n event batch stored) := by
  obtain ⟨-, hne, -⟩ := decodeDeviceCommand_ok hdecode
  have hnonempty : decoded.commands ≠ [] := by
    rw [(decodeDeviceCommand_ok hdecode).1]
    simpa using hne
  unfold finishCommand
  rw [hcommands]
  refine from_publishState hdecode hopen hstored (List.Subset.refl _) 0 fun b delta hab hdelta => ?_
  rw [Int.zero_add]
  refine from_countOnce hdecode (hab.processed.trans hopen) (hab.stored.trans hstored) hdelta
    fun _ b' hbb' hcounted => ?_
  have hab' := hab.trans hbb'
  have hmarked : ∀ c ∈ decoded.commands, (b'.marker c.id).isSome := by
    intro c hc
    obtain ⟨marker, hmarker⟩ := Option.isSome_iff_exists.mp (marked_of_delta hdelta c hc)
    rw [hbb'.marker c.id marker hmarker]
    rfl
  unfold publishResult
  rw [if_neg (by rw [hcommands]; exact hnonempty), hcommands]
  refine from_publishMemberResults hdecode (hab'.processed.trans hopen) (hab'.stored.trans hstored)
    (List.Subset.refl _) hmarked fun x hbx hanswered => ?_
  have hax := hab'.trans hbx
  refine from_markProcessed hdecode ?_ ?_
  · exact .finish (hax.processed.trans hopen) (hax.stored.trans hstored) (hbx.counted hcounted)
      hanswered
  · exact From.acknowledge rfl

theorem from_attemptCommand (hdecode : decodeDeviceCommand event.payload = .ok decoded)
    (hopen : a.processed = none) (hnone : a.stored = none) :
    From n event a (attemptCommand n event (withOperation event decoded)) := by
  have hstore : ∀ result : ApplyResult, From n event a.attempt (do
      let latencyMs ← Syncd.send .now
      Syncd.send (.putHash (.applyResult event.id) ⟨result, latencyMs⟩)
      let stored : Option StoredResult ← Syncd.send (.getHash (.applyResult event.id))
      finishStored n event (withOperation event decoded) stored) := by
    intro result
    refine From.skip trivial fun latencyMs => ?_
    refine From.record hdecode rfl (fun w choice ha => ?_)
      (.inr (.store ⟨result, latencyMs⟩ hopen rfl hnone)) fun _ _ _ => ?_
    · rw [← ha]
      exact account_stored _
    · refine From.read (some ⟨result, latencyMs⟩) trivial
        (fun w choice hb => congrArg Account.stored hb) ?_
      exact from_finishCommand hdecode rfl hopen rfl
  unfold attemptCommand
  refine From.record hdecode rfl (fun w choice ha => exec_attempt ha _ choice)
    (.inr (.attempt hopen)) fun _ _ _ => ?_
  unfold applyCommand
  rw [Prog.bind_assoc']
  refine From.skip trivial fun info => ?_
  cases info with
  | error message => exact hstore _
  | ok info =>
      dsimp only
      rw [Prog.bind_assoc']
      refine From.skip trivial fun _ => ?_
      split_ifs
      · exact hstore _
      · rw [Prog.bind_assoc']
        refine From.apply rfl hopen rfl fun reply => ?_
        exact From.given (attributed_of_reads (reads_confirmAttempt _ _)) fun result _ => hstore result

theorem from_startCommand (hdecode : decodeDeviceCommand event.payload = .ok decoded)
    (hopen : a.processed = none) :
    From n event a (startCommand n event (withOperation event decoded)) := by
  unfold startCommand
  refine From.read a.stored trivial (fun w choice ha => congrArg Account.stored ha) ?_
  cases hstored : a.stored with
  | some stored => exact from_finishCommand hdecode rfl hopen hstored
  | none =>
      refine From.ask (fun attempt => attempt.isSome = a.attempted) trivial
        (fun w choice ha => congrArg Account.attempted ha) fun attempt hattempt => ?_
      cases attempt with
      | some _ => exact from_attemptCommand hdecode hopen hstored
      | none =>
          refine From.given (attributed_of_reads (reads_isStaleVersion event _)) fun stale _ => ?_
          split_ifs
          · refine from_markProcessed hdecode (.discard hopen hattempt.symm) ?_
            exact From.acknowledge rfl
          · exact from_attemptCommand hdecode hopen hstored

theorem from_handleCommand (hdecode : decodeDeviceCommand event.payload = .ok decoded) :
    From n event a (handleCommand n event) := by
  unfold handleCommand
  refine From.read a.processed trivial (fun w choice ha => congrArg Account.processed ha) ?_
  cases hprocessed : a.processed with
  | some applied =>
      refine From.acknowledge ?_
      rw [hprocessed]
      rfl
  | none =>
      dsimp only
      rw [hdecode]
      exact from_startCommand hdecode hprocessed

end Processing

end MiniOcs.Syncd
