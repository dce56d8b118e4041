import MiniOcs.Concurrent.Triple
import MiniOcs.FaultRoute
import MiniOcs.Syncd.OneShots

/-!
# Fault commands and their answers

`RedisFaultRepository.execute` appends a command and waits for its result, any number of syncds
handle the commands, and either may be lost between any two calls. A caller that is told of success
has had its fault set or cleared on the device; a result is never replaced; and no command is
acknowledged without one.
-/
namespace MiniOcs.FaultExchange
open Concurrent Gnmi Redis FaultRoute
open Syncd (FaultWorld FaultOp FaultEvent FaultRecord FaultService History decodeFault delivered
  faultOverLink sendFault nextFault answeredFault requestFault executeFault storeFault
  acknowledgeFault processFaultOne)

/-! ## Calls -/

/-- Beside the state of the services, what the device has carried out, and how much of it when a
command was appended. -/
structure Exchange where
  fault : FaultWorld
  executed : List (String × FaultSpec) := []
  since : String → Nat := fun _ => 0

/-- How a call of Redis fails. -/
inductive Lost where
  | timeout
  | redisError

/-- An entry of the stream is what syncd reads of it. -/
inductive ExchangeOp where
  | syncd (o : FaultOp)
  | xadd (event : FaultEvent)
  | hgetall (eventId : String)

abbrev ExchangeOp.Reply : ExchangeOp → Type
  | .syncd o => o.Reply
  | .xadd _ => Except Lost Unit
  | .hgetall _ => Except Lost (Option FaultRecord)

/-- What the device makes of a request that reaches it. -/
def answersOk (sent : Except Abort (Error × SimulatedOcsDevice CommandId)) : Bool :=
  match sent with
  | .ok (error, _) => error.code = .ok
  | .error _ => false

def carriedOut (o : FaultOp) (choice : Nat) (d : SimulatedOcsDevice CommandId) :
    List (String × FaultSpec) :=
  match o with
  | .injectFault _ fault =>
      if delivered choice && answersOk (d.injectFault fault) then [("INJECT", fault)] else []
  | .clearFault fault =>
      if delivered choice && answersOk (d.clearFault fault) then [("CLEAR", fault)] else []
  | _ => []

/-- The choice 0 answers; else the call or, with the choices 1 and 2, its reply is lost. -/
def ExchangeOp.exec : (o : ExchangeOp) → Nat → Exchange → o.Reply × Exchange
  | .syncd o, choice, s =>
      ((o.exec choice s.fault).1,
        { s with fault := (o.exec choice s.fault).2
                 executed := s.executed ++ carriedOut o choice s.fault.world.hwsim })
  | .xadd event, choice, s =>
      let added :=
        { s with fault := { s.fault with stream := s.fault.stream ++ [event] }
                 since := Function.update s.since event.eventId s.executed.length }
      match choice with
      | 0 => (.ok (), added)
      | 1 => (.error .timeout, added)
      | 2 => (.error .redisError, added)
      | 3 => (.error .timeout, s)
      | _ => (.error .redisError, s)
  | .hgetall eventId, choice, s =>
      (match choice with
        | 0 => .ok (s.fault.results eventId)
        | 1 => .error .timeout
        | _ => .error .redisError, s)

/-! ## The parties -/

inductive FaultFailure where
  | permissionDenied (message : String)
  | deadlineExceeded (message : String)
  | dependencyUnavailable (message : String)
  | invalidArgument (message : String)
  | service (raised : Raised)

/-- What a program returns; the command and its event are those of the caller. -/
inductive ExchangeAnswer where
  | handled (more : Bool)
  | set (command : FaultCommand) (eventId : String) (timestampNs : Nat)

abbrev Caller (α : Type) := Prog ExchangeOp ExchangeOp.Reply FaultFailure α

def callFailure : Lost → FaultFailure
  | .timeout => .deadlineExceeded "simulator fault command"
  | .redisError => .dependencyUnavailable "DEVICE_DB fault command"

/-- The exception for a result that is no success. -/
def refusal (error : Error) : FaultFailure :=
  if error.code = .deviceNotReady then .dependencyUnavailable error.message
  else .invalidArgument (Uds.errorCodeName error.code ++ ": " ++ error.message)

/-- The loop of `execute`; the deadline ends it after some round. -/
def awaitResult (command : FaultCommand) (eventId : String) (timestampNs : Nat) :
    Nat → Caller ExchangeAnswer
  | 0 => .throw (.deadlineExceeded "simulator fault command")
  | rounds + 1 => .call (.hgetall eventId) fun
      | .error lost => .throw (callFailure lost)
      | .ok none => awaitResult command eventId timestampNs rounds
      | .ok (some record) =>
          if record.error.code = .ok then .pure (.set command eventId timestampNs)
          else .throw (refusal record.error)

/-- `RedisFaultRepository.execute` -/
def execute (enabled : Bool) (command : FaultCommand) (eventId : String)
    (timestampNs rounds : Nat) : Caller ExchangeAnswer :=
  if enabled = false then .throw (.permissionDenied "simulator fault API is disabled")
  else .call (.xadd (faultEvent (faultEnvelope command eventId timestampNs))) fun
    | .error lost => .throw (callFailure lost)
    | .ok () => awaitResult command eventId timestampNs rounds

/-- A program of syncd among the callers. -/
def embed {α : Type} : FaultService α → Caller α
  | .pure a => .pure a
  | .throw e => .throw (.service e)
  | .call o k => .call (.syncd o) fun r => embed (k r)

theorem embed_bind {α β : Type} (p : FaultService α) (f : α → FaultService β) :
    embed (p >>= f) = embed p >>= fun a => embed (f a) := by
  induction p with
  | pure a => rfl
  | throw e => rfl
  | call o k ih => exact congrArg (Prog.call (ExchangeOp.syncd o)) (funext ih)

inductive Party where
  | handler (n : Nat)
  | caller (n : Nat)
  deriving DecidableEq

/-- The id of an event is a new uuid. -/
def fresh : ExchangeOp → Exchange → Prop
  | .xadd event, s => ∀ e ∈ s.fault.stream, e.eventId ≠ event.eventId
  | _, _ => True

instance (o : ExchangeOp) (s : Exchange) : Decidable (fresh o s) := by
  unfold fresh
  split <;> infer_instance

section System

variable (parse : String → Except String Json)

/-- Around the parties anything may change but the commands and their results. -/
def exchange : System ExchangeOp ExchangeOp.Reply FaultFailure ExchangeAnswer Exchange Party where
  exec := ExchangeOp.exec
  init s := ∃ world history, s = { fault := { world, history } }
  starts i _ p := match i with
    | .handler _ => p = (embed (processFaultOne parse) >>= fun more => .pure (.handled more))
    | .caller _ => ∃ enabled command eventId timestampNs rounds, Wellformed command ∧
        p = execute enabled command eventId timestampNs rounds
  crash _ s := s
  env s t := ∃ world history, t = { s with fault := { s.fault with world, history } }
  allow _ o _ s := fresh o s

/-! ## What holds -/

/-- The error of a result: that of decoding its command; else it is a success only if the device
has carried out what the command asks for since the command was appended. -/
def Explained (s : Exchange) (event : FaultEvent) (error : Error) : Prop :=
  match decodeFault parse event with
  | .error e => error = e
  | .ok asked => error.code = .ok → asked ∈ s.executed.drop (s.since event.eventId)

/-- A result is about a command of the stream. -/
def Justified (s : Exchange) (eventId : String) (record : FaultRecord) : Prop :=
  ∃ event ∈ s.fault.stream, event.eventId = eventId ∧ record.commandId = eventId ∧
    record.device = event.device ∧ Explained parse s event record.error

structure Answered (s : Exchange) : Prop where
  nodup : (s.fault.stream.map (·.eventId)).Nodup
  delivered : s.fault.group.delivered ≤ s.fault.stream.length
  since : ∀ eventId, s.since eventId ≤ s.executed.length
  justified : ∀ eventId record, s.fault.results eventId = some record →
    Justified parse s eventId record
  acked : ∀ n event, s.fault.group.Acked n → s.fault.stream[n]? = some event →
    (s.fault.results event.eventId).isSome

/-- Results stay, and the stream and what was carried out only grow. -/
structure Later (s t : Exchange) : Prop where
  results : ∀ eventId record, s.fault.results eventId = some record →
    t.fault.results eventId = some record
  stream : s.fault.stream <+: t.fault.stream
  executed : s.executed <+: t.executed
  since : ∀ event ∈ s.fault.stream, t.since event.eventId = s.since event.eventId

theorem Later.refl (s : Exchange) : Later s s :=
  ⟨fun _ _ h => h, List.prefix_rfl, List.prefix_rfl, fun _ _ => rfl⟩

theorem Later.trans {s t u : Exchange} (h : Later s t) (h' : Later t u) : Later s u where
  results id r hr := h'.results id r (h.results id r hr)
  stream := h.stream.trans h'.stream
  executed := h.executed.trans h'.executed
  since event hmem := (h'.since event (h.stream.subset hmem)).trans (h.since event hmem)

def exchangeGuard : ExchangeOp → Exchange → Prop
  | .syncd (.putResultIfAbsent eventId record), s => Justified parse s eventId record
  | .syncd (.xack n), s => ∃ event, s.fault.stream[n]? = some event ∧
      (s.fault.results event.eventId).isSome
  | _, _ => True

def exchangeContract : Contract ExchangeOp Exchange where
  inv := Answered parse
  rely := Later
  guard := exchangeGuard parse
  allow o _ s := fresh o s
  refl := Later.refl
  trans := Later.trans

end System

/-! ## One call -/

section Call

variable {parse : String → Except String Json} {s t : Exchange} {event : FaultEvent}
  {eventId : String} {record : FaultRecord}

theorem drop_subset_of_prefix {α : Type} {l l' : List α} (h : l <+: l') (n : Nat) :
    l.drop n ⊆ l'.drop n := by
  obtain ⟨extra, rfl⟩ := h
  intro x hx
  rw [List.drop_append]
  exact List.mem_append_left _ hx

theorem Explained.mono {error : Error} (h : Explained parse s event error)
    (hmem : event ∈ s.fault.stream) (hst : Later s t) : Explained parse t event error := by
  unfold Explained at h ⊢
  split at h
  · exact h
  · intro hok
    rw [hst.since event hmem]
    exact drop_subset_of_prefix hst.executed _ (h hok)

theorem Justified.mono (h : Justified parse s eventId record) (hst : Later s t) :
    Justified parse t eventId record := by
  obtain ⟨event, hmem, hid, hcommand, hdevice, herror⟩ := h
  exact ⟨event, hst.stream.subset hmem, hid, hcommand, hdevice, herror.mono hmem hst⟩

theorem stream_exec (o : FaultOp) (choice : Nat) (s : FaultWorld) :
    (o.exec choice s).2.stream = s.stream := by
  cases o with
  | putResultIfAbsent eventId record =>
      simp only [FaultOp.exec]
      split_ifs <;> rfl
  | _ => rfl

/-- A result is stored once. -/
theorem results_exec {o : FaultOp} {choice : Nat} {s : FaultWorld}
    (h : s.results eventId = some record) : (o.exec choice s).2.results eventId = some record := by
  cases o with
  | putResultIfAbsent id r =>
      simp only [FaultOp.exec]
      split_ifs with hstored
      · exact h
      · have hne : eventId ≠ id := by
          rintro rfl
          simp [h] at hstored
        simpa [Function.update_of_ne hne] using h
  | _ => exact h

theorem results_eq {o : FaultOp} {choice : Nat} {s : FaultWorld}
    (h : (o.exec choice s).2.results eventId = some record) :
    s.results eventId = some record ∨ o = .putResultIfAbsent eventId record := by
  cases o with
  | putResultIfAbsent id r =>
      simp only [FaultOp.exec] at h
      split_ifs at h with hstored
      · exact .inl h
      · by_cases heq : eventId = id
        · subst heq
          simp only [Function.update_self, Option.some.injEq] at h
          exact .inr (by rw [h])
        · exact .inl (by simpa [Function.update_of_ne heq] using h)
  | _ => exact .inl h

theorem later_exec {o : ExchangeOp} {choice : Nat} (hfresh : fresh o s) :
    Later s (o.exec choice s).2 := by
  cases o with
  | syncd o =>
      refine ⟨fun id r hr => results_exec hr, ?_, List.prefix_append _ _, fun _ _ => rfl⟩
      simp only [ExchangeOp.exec]
      rw [stream_exec]
  | xadd event =>
      have hadded : Later s
          { s with fault := { s.fault with stream := s.fault.stream ++ [event] }
                   since := Function.update s.since event.eventId s.executed.length } := by
        refine ⟨fun _ _ h => h, List.prefix_append _ _, List.prefix_rfl, fun e he => ?_⟩
        exact Function.update_of_ne (hfresh e he) _ _
      simp only [ExchangeOp.exec]
      split
      · exact hadded
      · exact hadded
      · exact hadded
      · exact Later.refl s
      · exact Later.refl s
  | hgetall eventId => exact Later.refl s

theorem delivered_exec (o : FaultOp) (choice : Nat) (w : FaultWorld)
    (h : w.group.delivered ≤ w.stream.length) :
    (o.exec choice w).2.group.delivered ≤ w.stream.length := by
  cases o with
  | readGroup =>
      simp only [FaultOp.exec]
      unfold Group.read
      split_ifs with hread
      · exact hread.2
      · exact h
  | putResultIfAbsent id r =>
      simp only [FaultOp.exec]
      split_ifs <;> exact h
  | _ => exact h

/-- A new acknowledgement is of a handler that acknowledges. -/
theorem acked_exec {o : FaultOp} {choice n : Nat} {w : FaultWorld}
    (h : (o.exec choice w).2.group.Acked n) : w.group.Acked n ∨ o = .xack n := by
  cases o with
  | readGroup => exact .inl (Group.acked_read.mp h)
  | xack m =>
      rcases Group.acked_ack.mp h with hacked | ⟨rfl, -⟩
      · exact .inl hacked
      · exact .inr rfl
  | putResultIfAbsent id r =>
      simp only [FaultOp.exec] at h
      split_ifs at h <;> exact .inl h
  | _ => exact .inl h

/-- A caller adds its command behind what holds. -/
theorem answered_append (h : Answered parse s) (hst : Later s t)
    (hfresh : ∀ e ∈ s.fault.stream, e.eventId ≠ event.eventId)
    (hstream : t.fault.stream = s.fault.stream ++ [event]) (hgroup : t.fault.group = s.fault.group)
    (hresults : t.fault.results = s.fault.results) (hexecuted : t.executed = s.executed)
    (hsince : ∀ id, t.since id ≤ s.executed.length) : Answered parse t := by
  constructor
  · rw [hstream, List.map_append, List.map_singleton]
    apply List.Nodup.append h.nodup (List.nodup_singleton _)
    rw [List.disjoint_singleton]
    intro hmem
    obtain ⟨e, he, heq⟩ := List.mem_map.mp hmem
    exact hfresh e he heq
  · rw [hgroup, hstream, List.length_append]
    exact Nat.le_add_right_of_le h.delivered
  · rw [hexecuted]
    exact hsince
  · rw [hresults]
    intro id r hr
    exact (h.justified id r hr).mono hst
  · rw [hgroup, hstream, hresults]
    intro n e hacked he
    have hlt : n < s.fault.stream.length := Nat.lt_of_lt_of_le hacked.1 h.delivered
    rw [List.getElem?_append_left hlt] at he
    exact h.acked n e hacked he

/-- A call of a handler keeps what holds, if it stores and acknowledges under the guard. -/
theorem answered_call {o : FaultOp} {choice : Nat} (h : Answered parse s)
    (hguard : exchangeGuard parse (.syncd o) s) :
    Answered parse ((ExchangeOp.syncd o).exec choice s).2 := by
  have hlater : Later s ((ExchangeOp.syncd o).exec choice s).2 := later_exec trivial
  have hstream : ((ExchangeOp.syncd o).exec choice s).2.fault.stream = s.fault.stream :=
    stream_exec o choice s.fault
  have hanswered : ∀ id, (s.fault.results id).isSome →
      (((ExchangeOp.syncd o).exec choice s).2.fault.results id).isSome := by
    intro id hid
    obtain ⟨r, hr⟩ := Option.isSome_iff_exists.mp hid
    rw [hlater.results id r hr]
    rfl
  constructor
  · rw [hstream]
    exact h.nodup
  · rw [hstream]
    exact delivered_exec o choice s.fault h.delivered
  · intro id
    exact Nat.le_trans (h.since id) hlater.executed.length_le
  · intro id r hr
    rcases results_eq hr with hr | rfl
    · exact (h.justified id r hr).mono hlater
    · exact Justified.mono hguard hlater
  · rw [hstream]
    intro n e hacked hn
    rcases acked_exec hacked with hacked | rfl
    · exact hanswered _ (h.acked n e hacked hn)
    · obtain ⟨e', he', hsome⟩ := hguard
      rw [hn] at he'
      cases he'
      exact hanswered _ hsome

/-- What is stored or acknowledged under the guard keeps what holds. -/
theorem answered_exec {o : ExchangeOp} {choice : Nat} (h : Answered parse s)
    (hguard : exchangeGuard parse o s) (hfresh : fresh o s) :
    Answered parse (o.exec choice s).2 := by
  have hlater : Later s (o.exec choice s).2 := later_exec hfresh
  cases o with
  | hgetall eventId => exact h
  | xadd event =>
      have hsince : ∀ id, Function.update s.since event.eventId s.executed.length id ≤
          s.executed.length := by
        intro id
        by_cases heq : id = event.eventId
        · rw [heq, Function.update_self]
        · rw [Function.update_of_ne heq]
          exact h.since id
      simp only [ExchangeOp.exec] at hlater ⊢
      split at hlater
      · exact answered_append h hlater hfresh rfl rfl rfl rfl hsince
      · exact answered_append h hlater hfresh rfl rfl rfl rfl hsince
      · exact answered_append h hlater hfresh rfl rfl rfl rfl hsince
      · exact h
      · exact h
  | syncd o => exact answered_call h hguard

end Call

/-! ## The handlers -/

section Handlers

variable {parse : String → Except String Json} {α : Type} {K : Exchange → Prop}
  {Q : α → Exchange → Prop} {event : FaultEvent} {n : Nat}

abbrev Handles (parse : String → Except String Json) (K : Exchange → Prop) (p : FaultService α)
    (Q : α → Exchange → Prop) : Prop :=
  Triple ExchangeOp.exec (exchangeContract parse) K (embed p) Q fun _ _ => True

def Lasting (K : Exchange → Prop) : Prop := ∀ s t, K s → Later s t → K t

theorem Handles.pure {a : α} (hQ : Lasting (Q a)) (h : ∀ s, K s → Q a s) :
    Handles parse K (.pure a) Q := Triple.pure hQ h

theorem Handles.send {o : FaultOp} {k : o.Reply → FaultService α}
    (M : o.Reply → Exchange → Prop) (hK : Lasting K)
    (hguard : ∀ s, K s → exchangeGuard parse (.syncd o) s)
    (hstep : ∀ s ch, Answered parse s → K s → K ((ExchangeOp.syncd o).exec ch s).2 →
      M (o.exec ch s.fault).1 ((ExchangeOp.syncd o).exec ch s).2)
    (hk : ∀ r, Handles parse (M r) (k r) Q) : Handles parse K (sendFault o >>= k) Q :=
  Triple.call M hK (fun s _ => hguard s)
    (fun s ch hinv hs hfresh => hstep s ch hinv hs (hK _ _ hs (later_exec hfresh))) hk

theorem Handles.bind {β : Type} {M : β → Exchange → Prop} {p : FaultService β}
    {f : β → FaultService α} (hp : Handles parse K p M) (hf : ∀ b, Handles parse (M b) (f b) Q) :
    Handles parse K (p >>= f) Q := by
  unfold Handles
  rw [embed_bind]
  exact Triple.bind hp hf

/-- The message that was taken stands at its place in the stream. -/
def Taken (message : Option (Nat × FaultEvent)) (s : Exchange) : Prop :=
  ∀ n event, message = some (n, event) → s.fault.stream[n]? = some event

theorem lasting_true : Lasting fun _ => True := fun _ _ _ _ => trivial

theorem Later.getElem? {s t : Exchange} (h : Later s t) (hn : s.fault.stream[n]? = some event) :
    t.fault.stream[n]? = some event := by
  obtain ⟨extra, hextra⟩ := h.stream
  have hlt : n < s.fault.stream.length := (List.getElem?_eq_some_iff.mp hn).1
  rw [← hextra, List.getElem?_append_left hlt]
  exact hn

theorem lasting_taken (message : Option (Nat × FaultEvent)) : Lasting (Taken message) :=
  fun _ _ hs hst n event hm => hst.getElem? (hs n event hm)

theorem handles_readGroup :
    Handles parse (fun _ => True) (sendFault .readGroup) Taken := by
  have hread : Handles parse (fun _ => True) (sendFault .readGroup >>= .pure) Taken := by
    refine Handles.send (o := .readGroup) Taken lasting_true (fun _ _ => trivial) ?_ ?_
    · intro s ch _ _ _ n event hm
      simp only [FaultOp.exec] at hm
      obtain ⟨m, -, hm⟩ := Option.bind_eq_some_iff.mp hm
      obtain ⟨e, he, heq⟩ := Option.map_eq_some_iff.mp hm
      cases heq
      exact he
    · exact fun message => Handles.pure (lasting_taken message) fun _ hs => hs
  exact hread

theorem handles_nextFault : Handles parse (fun _ => True) nextFault Taken := by
  unfold nextFault
  refine Handles.send (o := .xpending) (fun _ _ => True) lasting_true (fun _ _ => trivial)
    (fun _ _ _ _ _ => trivial) fun candidate => ?_
  cases candidate with
  | none => exact handles_readGroup
  | some m =>
      refine Handles.send (o := .xclaim m)
        (fun claimed => Taken (claimed.map fun event => (m, event))) lasting_true
        (fun _ _ => trivial) ?_ ?_
      · intro s ch _ _ _ n event hm
        simp only [FaultOp.exec] at hm
        split_ifs at hm
        · obtain ⟨e, he, heq⟩ := Option.map_eq_some_iff.mp hm
          cases heq
          exact he
        · cases hm
      · intro claimed
        cases claimed with
        | none => exact handles_readGroup.pre fun _ _ => trivial
        | some event => exact Handles.pure (lasting_taken _) fun _ hs => hs

/-- The command stands at its place, and the error explains what became of it. -/
def Settled (parse : String → Except String Json) (n : Nat) (event : FaultEvent) (error : Error)
    (s : Exchange) : Prop :=
  s.fault.stream[n]? = some event ∧ Explained parse s event error

theorem lasting_settled (error : Error) : Lasting (Settled parse n event error) :=
  fun _ _ hs hst => ⟨hst.getElem? hs.1, hs.2.mono (List.mem_of_getElem? hs.1) hst⟩

def Placed (n : Nat) (event : FaultEvent) (s : Exchange) : Prop :=
  s.fault.stream[n]? = some event

theorem lasting_placed : Lasting (Placed n event) := fun _ _ hs hst => hst.getElem? hs

theorem decodeFault_operation {operation : String} {fault : FaultSpec}
    (h : decodeFault parse event = .ok (operation, fault)) :
    operation = "INJECT" ∨ operation = "CLEAR" := by
  unfold decodeFault at h
  split_ifs at h with henvelope
  simp only [Json.bind_eq_ok] at h
  obtain ⟨payload, -, named, -, h⟩ := h
  split_ifs at h with hnamed
  simp only [Json.bind_eq_ok] at h
  obtain ⟨typeName, -, type, -, port, -, h⟩ := h
  split_ifs at h
  cases h
  rw [not_not] at hnamed
  rw [hnamed]
  tauto

/-- Only a request that the device has carried out is answered with success. -/
theorem answersOk_of_reply {choice : Nat} {d : SimulatedOcsDevice CommandId}
    {sent : Except Abort (Error × SimulatedOcsDevice CommandId)} {error : Error}
    (h : (faultOverLink choice d sent).1 = .ok error) (hok : error.code = .ok) :
    (delivered choice && answersOk sent) = true := by
  unfold faultOverLink at h
  cases sent with
  | error a => cases h
  | ok answered =>
      obtain ⟨e, d'⟩ := answered
      dsimp only at h
      split at h
      · cases h
        simp [delivered, answersOk, hok]
      · cases h; cases hok
      · cases h; cases hok
      · cases h; cases hok
      · cases h; cases hok
      · cases h

theorem handles_failed {operation : String} {fault : FaultSpec}
    (hdecode : decodeFault parse event = .ok (operation, fault)) {error : Error}
    (hne : error.code ≠ .ok) :
    Handles parse (Placed n event) (.pure error) (Settled parse n event) := by
  apply Handles.pure (lasting_settled error)
  intro s hs
  refine ⟨hs, ?_⟩
  unfold Explained
  rw [hdecode]
  intro hok
  exact absurd hok hne

/-- A success that comes over the link stands behind the start of the command. -/
theorem settled_reply {operation : String} {fault : FaultSpec}
    (hdecode : decodeFault parse event = .ok (operation, fault)) {o : FaultOp} {choice : Nat}
    {sent : Except Abort (Error × SimulatedOcsDevice CommandId)} {reply : Except String Error}
    {s : Exchange} (h : Answered parse s)
    (hreply : reply = (faultOverLink choice s.fault.world.hwsim sent).1)
    (hcarried : carriedOut o choice s.fault.world.hwsim =
      if delivered choice && answersOk sent then [(operation, fault)] else [])
    (hplaced : Placed n event ((ExchangeOp.syncd o).exec choice s).2) :
    Settled parse n event (answeredFault reply) ((ExchangeOp.syncd o).exec choice s).2 := by
  refine ⟨hplaced, ?_⟩
  unfold Explained
  rw [hdecode]
  intro hok
  cases hsent : reply with
  | error what =>
      rw [hsent] at hok
      cases hok
  | ok error =>
      rw [hsent] at hok hreply
      have hdelivered := answersOk_of_reply hreply.symm hok
      simp only [ExchangeOp.exec, hcarried, hdelivered, if_true]
      rw [List.drop_append_of_le_length (h.since _)]
      exact List.mem_append_right _ (List.mem_singleton_self _)

theorem handles_executeFault :
    Handles parse (Placed n event) (executeFault parse event) (Settled parse n event) := by
  unfold executeFault
  split
  · rename_i error hdecode
    apply Handles.pure (lasting_settled error)
    intro s hs
    refine ⟨hs, ?_⟩
    unfold Explained
    rw [hdecode]
  · rename_i operation fault hdecode
    unfold requestFault
    refine Handles.send (o := .getDeviceInfo) (fun _ => Placed n event) lasting_placed
      (fun _ _ => trivial) (fun _ _ _ _ hs => hs) fun info => ?_
    cases info with
    | error what => exact handles_failed hdecode (by simp)
    | ok info =>
        dsimp only
        split_ifs with hname hinject
        · exact handles_failed hdecode (by simp)
        · refine Handles.send (o := .injectFault event.eventId fault)
            (fun reply => Settled parse n event (answeredFault reply)) lasting_placed
            (fun _ _ => trivial) (fun s ch hinv _ hplaced => ?_)
            fun reply => Handles.pure (lasting_settled _) fun _ hs => hs
          apply settled_reply hdecode hinv rfl _ hplaced
          rw [hinject]
          rfl
        · refine Handles.send (o := .clearFault fault)
            (fun reply => Settled parse n event (answeredFault reply)) lasting_placed
            (fun _ _ => trivial) (fun s ch hinv _ hplaced => ?_)
            fun reply => Handles.pure (lasting_settled _) fun _ hs => hs
          apply settled_reply hdecode hinv rfl _ hplaced
          rw [(decodeFault_operation hdecode).resolve_left hinject]
          rfl

/-- The command at the place has a result. -/
def Concluded (n : Nat) (s : Exchange) : Prop :=
  ∃ event, s.fault.stream[n]? = some event ∧ (s.fault.results event.eventId).isSome

theorem lasting_concluded : Lasting (Concluded n) := by
  rintro s t ⟨event, hn, hsome⟩ hst
  obtain ⟨record, hrecord⟩ := Option.isSome_iff_exists.mp hsome
  exact ⟨event, hst.getElem? hn, by rw [hst.results _ _ hrecord]; rfl⟩

theorem handles_storeFault (error : Error) :
    Handles parse (Settled parse n event error) (storeFault event error) fun _ => Concluded n := by
  unfold storeFault
  refine Handles.send (o := .now) (fun _ => Settled parse n event error) (lasting_settled error)
    (fun _ _ => trivial) (fun _ _ _ _ hs => hs) fun completedAtNs => ?_
  refine Handles.send (o := .putResultIfAbsent _ _) (fun _ => Concluded n)
    (lasting_settled error) (fun s hs => ?_) (fun s ch _ _ hs => ?_)
    fun _ => Handles.pure lasting_concluded fun _ hs => hs
  · exact ⟨event, List.mem_of_getElem? hs.1, rfl, rfl, rfl, hs.2⟩
  · refine ⟨event, hs.1, ?_⟩
    simp only [ExchangeOp.exec, FaultOp.exec]
    split_ifs with hstored
    · exact hstored
    · simp

theorem handles_acknowledgeFault :
    Handles parse (Concluded n) (acknowledgeFault n) fun _ _ => True := by
  unfold acknowledgeFault
  refine Handles.send (o := .xack n) (fun _ _ => True) lasting_concluded (fun _ hs => hs)
    (fun _ _ _ _ _ => trivial) fun acknowledged => ?_
  split_ifs
  · exact Handles.pure lasting_true fun _ _ => trivial
  · exact Triple.call (fun _ _ => True) lasting_true (fun _ _ _ => trivial)
      (fun _ _ _ _ _ => trivial) fun _ => Triple.throw lasting_true fun _ _ => trivial

/-- A command is acknowledged only behind its result. -/
theorem handles_processFaultOne :
    Handles parse (fun _ => True) (processFaultOne parse) fun _ _ => True := by
  unfold processFaultOne
  apply Handles.bind handles_nextFault
  intro message
  cases message with
  | none => exact Handles.pure lasting_true fun _ _ => trivial
  | some message =>
      obtain ⟨n, event⟩ := message
      refine Handles.send (o := .getResult event.eventId)
        (fun stored s => Placed n event s ∧ (stored.isSome → Concluded n s))
        (lasting_taken _) (fun _ _ => trivial) (fun s ch _ _ hs => ?_) fun stored => ?_
      · exact ⟨hs n event rfl, fun hstored => ⟨event, hs n event rfl, hstored⟩⟩
      · cases stored with
        | some record => exact handles_acknowledgeFault.pre fun s hs => hs.2 rfl
        | none =>
            apply Triple.pre _ fun s hs => hs.1
            apply Handles.bind handles_executeFault
            intro error
            exact (handles_storeFault error).bind fun _ => handles_acknowledgeFault

end Handlers

/-! ## The callers -/

section Callers

variable {parse : String → Except String Json} {command : FaultCommand} {eventId : String}
  {timestampNs : Nat} {s₀ : Exchange}

/-- The command was appended after the call began. -/
def Waiting (s₀ : Exchange) (event : FaultEvent) (s : Exchange) : Prop :=
  event ∈ s.fault.stream ∧ s₀.executed.length ≤ s.since event.eventId

theorem lasting_waiting (event : FaultEvent) : Lasting (Waiting s₀ event) := by
  rintro s t ⟨hmem, hsince⟩ hst
  refine ⟨hst.stream.subset hmem, ?_⟩
  rw [hst.since event hmem]
  exact hsince

/-- The fault of the command was set or cleared since the call began. -/
def Carried (parse : String → Except String Json) (s₀ : Exchange) (event : FaultEvent)
    (s : Exchange) : Prop :=
  ∃ asked, decodeFault parse event = .ok asked ∧ asked ∈ s.executed.drop s₀.executed.length

theorem lasting_carried (event : FaultEvent) : Lasting (Carried parse s₀ event) := by
  rintro s t ⟨asked, hasked, hmem⟩ hst
  exact ⟨asked, hasked, drop_subset_of_prefix hst.executed _ hmem⟩

theorem bind_eq_error {ε α β : Type} {x : Except ε α} {f : α → Except ε β} {e : ε} :
    (x >>= f) = .error e ↔ x = .error e ∨ ∃ a, x = .ok a ∧ f a = .error e := by
  cases x with
  | error e' => simp [bind, Except.bind]
  | ok a => simp [bind, Except.bind]

theorem code_malformed {β : Type} {x : Except String β} {error : Error}
    (h : x.mapError Syncd.malformedFault = .error error) : error.code ≠ .ok := by
  cases x with
  | error what => cases h; simp [Syncd.malformedFault]
  | ok a => cases h

/-- Every error of decoding is a failure. -/
theorem decodeFault_error {event : FaultEvent} {error : Error}
    (h : decodeFault parse event = .error error) : error.code ≠ .ok := by
  have hinvalid : ∀ what, Syncd.invalidFault what = error → error.code ≠ .ok := by
    rintro what rfl
    simp [Syncd.invalidFault]
  unfold decodeFault at h
  split_ifs at h with henvelope
  · exact hinvalid _ (Except.error.inj h)
  rcases bind_eq_error.mp h with h | ⟨payload, -, h⟩
  · exact code_malformed h
  rcases bind_eq_error.mp h with h | ⟨named, -, h⟩
  · exact code_malformed h
  split_ifs at h with hnamed
  · exact hinvalid _ (Except.error.inj h)
  rcases bind_eq_error.mp h with h | ⟨typeName, -, h⟩
  · exact code_malformed h
  rcases bind_eq_error.mp h with h | ⟨type, -, h⟩
  · unfold Syncd.managedFaultType at h
    split_ifs at h
    exact hinvalid _ (Except.error.inj h)
  rcases bind_eq_error.mp h with h | ⟨port, -, h⟩
  · exact code_malformed h
  split_ifs at h
  · exact hinvalid _ (Except.error.inj h)
  · exact hinvalid _ (Except.error.inj h)
  · exact hinvalid _ (Except.error.inj h)
  · cases h

/-- A success that is stored for a waiting caller. -/
theorem Waiting.carried {event : FaultEvent} {record : FaultRecord} {s : Exchange}
    (h : Waiting s₀ event s) (hinv : Answered parse s)
    (hrecord : s.fault.results event.eventId = some record) (hok : record.error.code = .ok) :
    Carried parse s₀ event s := by
  obtain ⟨event', hmem, hid, -, -, hexplained⟩ := hinv.justified _ _ hrecord
  obtain rfl := List.inj_on_of_nodup_map hinv.nodup hmem h.1 hid
  unfold Explained at hexplained
  split at hexplained
  · rename_i error hdecode
    rw [hexplained] at hok
    exact absurd hok (decodeFault_error hdecode)
  · rename_i asked hdecode
    refine ⟨asked, hdecode, ?_⟩
    have hafter := hexplained hok
    rw [← Nat.add_sub_cancel' h.2, ← List.drop_drop] at hafter
    exact List.mem_of_mem_drop hafter

/-- The callers: told of a success, they have had their command carried out. -/
def Told (parse : String → Except String Json) (s₀ : Exchange) (answer : ExchangeAnswer)
    (s : Exchange) : Prop :=
  match answer with
  | .handled _ => True
  | .set command eventId timestampNs =>
      Wellformed command ∧
        Carried parse s₀ (faultEvent (faultEnvelope command eventId timestampNs)) s

theorem lasting_told (answer : ExchangeAnswer) : Lasting (Told parse s₀ answer) := by
  intro s t hs hst
  cases answer with
  | handled more => trivial
  | set command eventId timestampNs => exact ⟨hs.1, lasting_carried _ _ _ hs.2 hst⟩

theorem awaitResult_told (hcommand : Wellformed command) (rounds : Nat) :
    Triple ExchangeOp.exec (exchangeContract parse)
      (Waiting s₀ (faultEvent (faultEnvelope command eventId timestampNs)))
      (awaitResult command eventId timestampNs rounds) (Told parse s₀) fun _ _ => True := by
  induction rounds with
  | zero => exact Triple.throw lasting_true fun _ _ => trivial
  | succ rounds ih =>
      refine Triple.call (fun reply s =>
          Waiting s₀ (faultEvent (faultEnvelope command eventId timestampNs)) s ∧
          ∀ record, reply = .ok (some record) → record.error.code = .ok →
            Carried parse s₀ (faultEvent (faultEnvelope command eventId timestampNs)) s)
        (lasting_waiting _) (fun _ _ _ => trivial) (fun s ch hinv hs _ => ⟨hs, ?_⟩)
        fun reply => ?_
      · intro record hreply
        simp only [ExchangeOp.exec] at hreply
        split at hreply
        · exact hs.carried hinv (Except.ok.inj hreply)
        · cases hreply
        · cases hreply
      · cases reply with
        | error lost => exact Triple.throw lasting_true fun _ _ => trivial
        | ok found =>
            cases found with
            | none => exact ih.pre fun s hs => hs.1
            | some record =>
                dsimp only
                split_ifs with hok
                · exact Triple.pure (lasting_told _) fun s hs => ⟨hcommand, hs.2 record rfl hok⟩
                · exact Triple.throw lasting_true fun _ _ => trivial

theorem execute_told (hcommand : Wellformed command) (enabled : Bool) (rounds : Nat) :
    Triple ExchangeOp.exec (exchangeContract parse) (fun s => s₀.executed <+: s.executed)
      (execute enabled command eventId timestampNs rounds) (Told parse s₀) fun _ _ => True := by
  unfold execute
  split_ifs
  · exact Triple.throw lasting_true fun _ _ => trivial
  · refine Triple.call (fun reply s => reply = .ok () →
        Waiting s₀ (faultEvent (faultEnvelope command eventId timestampNs)) s)
      (fun s t hs hst => hs.trans hst.executed) (fun _ _ _ => trivial)
      (fun s ch _ hs _ hreply => ?_) fun reply => ?_
    · simp only [ExchangeOp.exec] at hreply ⊢
      split at hreply
      · refine ⟨List.mem_append_right _ (List.mem_singleton_self _), ?_⟩
        simpa using hs.length_le
      all_goals cases hreply
    · cases reply with
      | error lost => exact Triple.throw lasting_true fun _ _ => trivial
      | ok appended => exact (awaitResult_told hcommand rounds).pre fun s hs => hs rfl

end Callers

/-! ## Runs -/

section Runs

variable {parse : String → Except String Json}

theorem exchange_verified : Verified (exchange parse) (Answered parse)
    (fun _ => exchangeContract parse) fun _ s r t => Outcome (Told parse s) (fun _ _ => True) r t where
  inv _ _ hs := hs
  allow _ _ _ _ hfresh := hfresh
  init := by
    rintro s ⟨world, history, rfl⟩
    refine ⟨List.nodup_nil, Nat.le_refl _, fun _ => Nat.le_refl _, ?_, ?_⟩
    · rintro _ _ ⟨⟩
    · rintro n event _ hn
      cases hn
  starts := by
    intro i s p _ hp
    cases i with
    | handler n =>
        subst hp
        have htold : ∀ more, Triple ExchangeOp.exec (exchangeContract parse) (fun _ => True)
            (.pure (.handled more) : Caller ExchangeAnswer) (Told parse s) fun _ _ => True :=
          fun more => Triple.pure (lasting_told (.handled more)) fun _ _ => trivial
        exact Triple.bind handles_processFaultOne htold s trivial
    | caller n =>
        obtain ⟨enabled, command, eventId, timestampNs, rounds, hcommand, rfl⟩ := hp
        exact execute_told hcommand enabled rounds s List.prefix_rfl
  call _ _ _ _ hs hguard hfresh := ⟨answered_exec hs hguard hfresh, fun _ _ => later_exec hfresh⟩
  crash _ s hs _ := ⟨hs, fun _ _ => Later.refl s⟩
  env := by
    rintro s t hs ⟨world, history, rfl⟩
    exact ⟨⟨hs.nodup, hs.delivered, hs.since, fun id r hr => hs.justified id r hr, hs.acked⟩,
      fun _ => ⟨fun _ _ h => h, List.prefix_rfl, List.prefix_rfl, fun _ _ => rfl⟩⟩

/-- The device has set or cleared the fault of a caller that is told of success, and not before the
call. -/
theorem success_carriedOut {c : Config ExchangeOp ExchangeOp.Reply FaultFailure ExchangeAnswer
      Exchange Party} (h : Reachable (exchange textParse) c) {n : Nat} {s : Exchange}
    {command : FaultCommand} {eventId : String} {timestampNs : Nat}
    (hreturned : c.procs (.caller n) = some ⟨s, .pure (.set command eventId timestampNs)⟩) :
    ∃ type, Uds.faultName type = command.faultType ∧
      (command.operation, { type, portId := command.portId }) ∈
        c.world.executed.drop s.executed.length := by
  obtain ⟨hcommand, asked, hasked, hmem⟩ := exchange_verified.outcome h hreturned rfl
  obtain ⟨type, hname, hdecode⟩ := decodeFault_faultEnvelope hcommand eventId timestampNs
  refine ⟨type, hname, ?_⟩
  rw [hdecode, decoded] at hasked
  split_ifs at hasked
  cases hasked
  exact hmem

end Runs

/-! ## A command that is carried out -/

def timeoutOnce : FaultCommand :=
  answering "INJECT" .update "ocs1" "next-apply-timeout" "NEXT_APPLY_TIMEOUT" 0 "r1" {}

def exchangeStarted : Exchange := { fault := { world := Syncd.twoStarted.world } }

/-- The caller appends its command. -/
def commandSent : Exchange :=
  ((execute true timeoutOnce "f1" 5 1).run ExchangeOp.exec [0] exchangeStarted).2

def commandHandler : Caller ExchangeAnswer :=
  embed (processFaultOne textParse) >>= fun more => .pure (.handled more)

/-- A handler takes it. -/
def commandHandled : Exchange :=
  (commandHandler.run ExchangeOp.exec (List.replicate 9 0) commandSent).2

/-- A waiting caller reads its success. -/
theorem reachable_told {parse : String → Except String Json} {t s : Exchange} {n : Nat}
    {procs : Party → Option (Running ExchangeOp ExchangeOp.Reply FaultFailure ExchangeAnswer
      Exchange)} {command : FaultCommand} {eventId : String} {timestampNs : Nat}
    (h : Reachable (exchange parse) ⟨t, procs⟩)
    (hwaiting : procs (.caller n) = some ⟨s, awaitResult command eventId timestampNs 1⟩)
    (hresult : (t.fault.results eventId).map (·.error.code) = some .ok) :
    Reachable (exchange parse) ⟨t, Function.update procs (.caller n)
      (some ⟨s, .pure (.set command eventId timestampNs)⟩)⟩ := by
  obtain ⟨record, hrecord, hok⟩ := Option.map_eq_some_iff.mp hresult
  have hfresh : (exchange parse).allow (.caller n) (.hgetall eventId) 0 t := trivial
  have hread := h.step (.call (.caller n) s (.hgetall eventId) _ 0 hwaiting hfresh)
  simpa [exchange, ExchangeOp.exec, hrecord, hok] using hread

abbrev WaitingFor (command : FaultCommand) (eventId : String) (timestampNs : Nat) (s t : Exchange) :
    Config ExchangeOp ExchangeOp.Reply FaultFailure ExchangeAnswer Exchange Party :=
  ⟨t, Function.update (fun _ => none) (.caller 0)
    (some ⟨s, awaitResult command eventId timestampNs 1⟩)⟩

theorem commandSent_reachable :
    Reachable (exchange textParse) (WaitingFor timeoutOnce "f1" 5 exchangeStarted commandSent) := by
  have hinit : Reachable (exchange textParse) ⟨exchangeStarted, fun _ => none⟩ :=
    .init ⟨_, _, rfl⟩
  have hsend : (execute true timeoutOnce "f1" 5 1).along ExchangeOp.exec (fun o _ s => fresh o s)
      [0] exchangeStarted := by decide +kernel
  exact hinit.startRun (i := .caller 0) rfl
    ⟨true, timeoutOnce, "f1", 5, 1, ⟨.inl rfl, .timeout⟩, rfl⟩ [0] hsend

/-- A handler takes the command while the caller waits. -/
theorem commandHandled_leads : ∃ procs,
    Relation.ReflTransGen (Step (exchange textParse))
      (WaitingFor timeoutOnce "f1" 5 exchangeStarted commandSent) ⟨commandHandled, procs⟩ ∧
    procs (.caller 0) = some ⟨exchangeStarted, awaitResult timeoutOnce "f1" 5 1⟩ := by
  have hhandle : commandHandler.along ExchangeOp.exec (fun o _ s => fresh o s)
      (List.replicate 9 0) commandSent := by decide +kernel
  have hrun := leads_startRun (S := exchange textParse)
    (c := WaitingFor timeoutOnce "f1" 5 exchangeStarted commandSent) (i := .handler 0)
    (p := commandHandler) (by simp) rfl (List.replicate 9 0) hhandle
  exact ⟨_, hrun, by simp⟩

theorem success_carriedOut_timeoutOnce :
    ∃ type, Uds.faultName type = timeoutOnce.faultType ∧
      (timeoutOnce.operation, { type, portId := timeoutOnce.portId }) ∈
        commandHandled.executed.drop exchangeStarted.executed.length := by
  obtain ⟨procs, hrun, hwaiting⟩ := commandHandled_leads
  have hhandled := commandSent_reachable.leads hrun
  have hresult : (commandHandled.fault.results "f1").map (·.error.code) = some .ok := by
    decide +kernel
  exact success_carriedOut (reachable_told hhandled hwaiting hresult) (Function.update_self _ _ _)

end MiniOcs.FaultExchange
