import MiniOcs.Syncd.Actions
import MiniOcs.Syncd.Witnesses

/-!
# The account of one command

What the records of syncd say of one command, as a machine of its own: an attempt, one result,
a marker for every member, the counters, the answers, and the end. Whatever the world does, the
effects of the command are the ones that the machine was taken through.
-/
namespace MiniOcs.Syncd
open Std Concurrent

/-! ## Members -/

/-- What a result makes of a member: the marker, and the state that is written, if any. -/
inductive Publishes (result : ApplyResult) (c : ConnectionCommand) :
    StatePublication → Option (ConnectionOperation × Option ConnectionState) → Prop
  | superseded {previous} : isSupersededState c previous = true →
      Publishes result c { activeDelta := 0, superseded := true } none
  | confirmed {previous} : preserveConfirmedPortState c result previous = .ok true →
      Publishes result c { activeDelta := 0, confirmedUnchanged := true } none
  | removed {previous} : result.isOk = true → c.operation = .remove →
      Publishes result c { activeDelta := activeDelta (wasActive previous) false }
        (some (.remove, none))
  | applied {previous applied} : result.isOk = true → c.operation = .upsert →
      (result.connections.find? fun item => item.id = c.id) = some applied →
      Publishes result c { activeDelta := activeDelta (wasActive previous) true }
        (some (.upsert, some (appliedState c result applied)))
  | failed {previous kept} : result.isOk = false →
      Publishes result c { activeDelta := activeDelta (wasActive previous) (wasActive previous) }
        (some (.upsert, some (failedState c result kept)))

/-- Nothing is written exactly for the members that are marked as skipped. -/
theorem Publishes.skipped {result : ApplyResult} {c : ConnectionCommand} {marker : StatePublication}
    {written : Option (ConnectionOperation × Option ConnectionState)}
    (h : Publishes result c marker written) :
    written = none ↔ marker.superseded = true ∨ marker.confirmedUnchanged = true := by
  cases h <;> simp

/-! ## The account -/

/-- `answered` tells for which members a result event was published. -/
structure Account where
  attempted : Bool := false
  stored : Option StoredResult := none
  marker : String → Option StatePublication := fun _ => none
  counted : Bool := false
  answered : String → Bool := fun _ => false
  processed : Option Bool := none
  states : List StateEvent := []
  updates : List CounterUpdate := []
  results : List ResultEvent := []

def isStateOf (id : CommandId) (event : StateEvent) : Bool :=
  match event.id with
  | .command command _ => command = id
  | _ => false

def account (w : World) (id : CommandId) : Account where
  attempted := (w.syncd.hash (.applyAttempt id)).isSome
  stored := w.syncd.hash (.applyResult id)
  marker member := w.syncd.hash (.statePublication id member)
  counted := (w.syncd.hash (.countersPublication id)).isSome
  answered member := (w.syncd.hash (.resultPublication id member)).isSome
  processed := w.syncd.hash (.processedCommand id)
  states := w.syncd.stateEvents.filter (isStateOf id)
  updates := w.counters.filter fun update => update.command = some id
  results := w.syncd.results.filter fun result => result.id.command = id

namespace Account

def delta (a : Account) : List ConnectionCommand → Option Int
  | [] => some 0
  | c :: rest =>
      match a.marker c.id, a.delta rest with
      | some marker, some total => some (marker.activeDelta + total)
      | _, _ => none

def statesOf (a : Account) (id : CommandId) (member : String) : List StateEvent :=
  a.states.filter fun event => event.id = .command id member

def resultsOf (a : Account) (id : CommandId) (member : String) : List ResultEvent :=
  a.results.filter fun result => result.id = ⟨id, some member⟩

/-- The state event of a member, if its state is written. -/
def stateEvents (event : CommandEvent) (c : ConnectionCommand)
    (written : Option (ConnectionOperation × Option ConnectionState)) : List StateEvent :=
  (written.map fun state => memberStateEvent event c state.1 state.2).toList

def answerEvent (event : CommandEvent) (stored : StoredResult) (c : ConnectionCommand)
    (marker : StatePublication) : ResultEvent :=
  resultEvent event (some c.id) c.id c.desiredVersion (memberResult c stored.result (some marker))

def attempt (a : Account) : Account := { a with attempted := true }

def store (a : Account) (stored : StoredResult) : Account := { a with stored := some stored }

def publish (a : Account) (event : CommandEvent) (c : ConnectionCommand)
    (marker : StatePublication)
    (written : Option (ConnectionOperation × Option ConnectionState)) : Account :=
  { a with
    marker := Function.update a.marker c.id (some marker)
    states := a.states ++ stateEvents event c written }

def count (a : Account) (event : CommandEvent) (stored : StoredResult) (delta : Int) : Account :=
  { a with counted := true, updates := a.updates ++ [applyCounters event stored delta] }

def answer (a : Account) (event : CommandEvent) (stored : StoredResult) (c : ConnectionCommand)
    (marker : StatePublication) : Account :=
  { a with
    answered := Function.update a.answered c.id true
    results := a.results ++ [answerEvent event stored c marker] }

def finish (a : Account) (applied : Bool) : Account := { a with processed := some applied }

/-- One step of processing a command with these members. Nothing follows the end. -/
inductive Step (event : CommandEvent) (commands : List ConnectionCommand) (a : Account) :
    Account → Prop
  | attempt : a.processed = none → Step event commands a a.attempt
  | store (stored) : a.processed = none → a.attempted = true → a.stored = none →
      Step event commands a (a.store stored)
  | publish {stored c marker written} : a.processed = none → a.stored = some stored →
      c ∈ commands → a.marker c.id = none → Publishes stored.result c marker written →
      Step event commands a (a.publish event c marker written)
  | count {stored delta} : a.processed = none → a.stored = some stored → a.counted = false →
      a.delta commands = some delta → Step event commands a (a.count event stored delta)
  | answer {stored c marker} : a.processed = none → a.stored = some stored → c ∈ commands →
      a.marker c.id = some marker → a.answered c.id = false →
      Step event commands a (a.answer event stored c marker)
  | finish {stored} : a.processed = none → a.stored = some stored → a.counted = true →
      (∀ c ∈ commands, a.answered c.id = true) →
      Step event commands a (a.finish stored.result.isOk)
  | discard : a.processed = none → a.attempted = false → Step event commands a (a.finish false)

/-! ## Reading back -/

section Reading

variable {a b : Account} {id : CommandId} {member : String} {event : CommandEvent}
  {stored : StoredResult} {c c' : ConnectionCommand} {marker : StatePublication}
  {written : Option (ConnectionOperation × Option ConnectionState)}

theorem filter_stateEvents_self :
    (stateEvents event c written).filter (fun e => e.id = .command event.id c.id) =
      stateEvents event c written := by
  cases written <;> simp [stateEvents, memberStateEvent]

theorem filter_stateEvents_of_ne (h : c.id ≠ member) :
    (stateEvents event c written).filter (fun e => e.id = .command event.id member) = [] := by
  cases written <;> simp [stateEvents, memberStateEvent, h]

theorem statesOf_publish_self : (a.publish event c marker written).statesOf event.id c.id =
    a.statesOf event.id c.id ++ stateEvents event c written := by
  simp only [statesOf, publish, List.filter_append, filter_stateEvents_self]

theorem statesOf_publish_of_ne (h : c.id ≠ member) :
    (a.publish event c marker written).statesOf event.id member = a.statesOf event.id member := by
  simp only [statesOf, publish, List.filter_append, filter_stateEvents_of_ne h, List.append_nil]

theorem resultsOf_answer_self : (a.answer event stored c marker).resultsOf event.id c.id =
    a.resultsOf event.id c.id ++ [answerEvent event stored c marker] := by
  simp [resultsOf, answer, answerEvent, resultEvent, List.filter_append]

theorem resultsOf_answer_of_ne (h : c.id ≠ member) :
    (a.answer event stored c marker).resultsOf event.id member = a.resultsOf event.id member := by
  simp [resultsOf, answer, answerEvent, resultEvent, List.filter_append, h]

theorem delta_congr {commands : List ConnectionCommand}
    (h : ∀ c ∈ commands, b.marker c.id = a.marker c.id) : b.delta commands = a.delta commands := by
  induction commands with
  | nil => rfl
  | cons c rest ih =>
      have hrest := ih fun x hx => h x (List.mem_cons_of_mem _ hx)
      unfold delta
      rw [h c List.mem_cons_self, hrest]

theorem marker_of_delta {commands : List ConnectionCommand} {total : Int}
    (h : a.delta commands = some total) (hc : c ∈ commands) : (a.marker c.id).isSome := by
  induction commands generalizing total with
  | nil => cases hc
  | cons x rest ih =>
      unfold delta at h
      cases hmarker : a.marker x.id with
      | none => simp [hmarker] at h
      | some marker =>
          cases hrest : a.delta rest with
          | none => simp [hmarker, hrest] at h
          | some sum =>
              rcases List.mem_cons.mp hc with rfl | hc
              · rw [hmarker]
                rfl
              · exact ih hrest hc

end Reading

/-! ## What an account may look like -/

/-- The state of a member was published once, by the result that is stored. -/
structure StateOnce (event : CommandEvent) (a : Account) (c : ConnectionCommand)
    (stored : StoredResult) (marker : StatePublication)
    (written : Option (ConnectionOperation × Option ConnectionState)) : Prop where
  source : a.stored = some stored
  marked : a.marker c.id = some marker
  publishes : Publishes stored.result c marker written
  states : a.statesOf event.id c.id = stateEvents event c written

structure AnswerOnce (event : CommandEvent) (a : Account) (c : ConnectionCommand)
    (stored : StoredResult) (marker : StatePublication) : Prop where
  answered : a.answered c.id = true
  source : a.stored = some stored
  marked : a.marker c.id = some marker
  results : a.resultsOf event.id c.id = [answerEvent event stored c marker]

structure CountOnce (event : CommandEvent) (commands : List ConnectionCommand) (a : Account)
    (stored : StoredResult) (delta : Int) : Prop where
  counted : a.counted = true
  source : a.stored = some stored
  total : a.delta commands = some delta
  updates : a.updates = [applyCounters event stored delta]

structure WellFormed (event : CommandEvent) (commands : List ConnectionCommand) (a : Account) :
    Prop where
  attempted : a.stored.isSome → a.attempted = true
  quiet : a.stored = none → a = { attempted := a.attempted, processed := a.processed }
  state : ∀ c ∈ commands, (a.marker c.id = none ∧ a.statesOf event.id c.id = []) ∨
    ∃ stored marker written, StateOnce event a c stored marker written
  count : (a.counted = false ∧ a.updates = []) ∨
    ∃ stored delta, CountOnce event commands a stored delta
  answer : ∀ c ∈ commands, (a.answered c.id = false ∧ a.resultsOf event.id c.id = []) ∨
    ∃ stored marker, AnswerOnce event a c stored marker
  ended : a.processed.isSome → a.attempted = true → ∃ stored, a.stored = some stored ∧
    a.counted = true ∧ ∀ c ∈ commands, a.answered c.id = true

theorem WellFormed.fresh (event : CommandEvent) (commands : List ConnectionCommand) :
    WellFormed event commands {} where
  attempted h := absurd h (by simp)
  quiet _ := rfl
  state _ _ := .inl ⟨rfl, rfl⟩
  count := .inl ⟨rfl, rfl⟩
  answer _ _ := .inl ⟨rfl, rfl⟩
  ended h := absurd h (by simp)

section Steps

variable {event : CommandEvent} {commands : List ConnectionCommand} {a b : Account}
  {stored : StoredResult} {c : ConnectionCommand} {marker : StatePublication} {delta : Int}
  {written : Option (ConnectionOperation × Option ConnectionState)}

theorem StateOnce.congr (h : StateOnce event a c stored marker written)
    (hstored : b.stored = a.stored) (hmarker : b.marker c.id = a.marker c.id)
    (hstates : b.statesOf event.id c.id = a.statesOf event.id c.id) :
    StateOnce event b c stored marker written :=
  ⟨hstored.trans h.source, hmarker.trans h.marked, h.publishes, hstates.trans h.states⟩

theorem AnswerOnce.congr (h : AnswerOnce event a c stored marker)
    (hanswered : b.answered c.id = a.answered c.id) (hstored : b.stored = a.stored)
    (hmarker : b.marker c.id = a.marker c.id)
    (hresults : b.resultsOf event.id c.id = a.resultsOf event.id c.id) :
    AnswerOnce event b c stored marker :=
  ⟨hanswered.trans h.answered, hstored.trans h.source, hmarker.trans h.marked,
    hresults.trans h.results⟩

theorem CountOnce.congr (h : CountOnce event commands a stored delta)
    (hcounted : b.counted = a.counted) (hstored : b.stored = a.stored)
    (hmarker : ∀ c ∈ commands, b.marker c.id = a.marker c.id) (hupdates : b.updates = a.updates) :
    CountOnce event commands b stored delta :=
  ⟨hcounted.trans h.counted, hstored.trans h.source, (delta_congr hmarker).trans h.total,
    hupdates.trans h.updates⟩

theorem WellFormed.attempt (h : WellFormed event commands a) (hopen : a.processed = none) :
    WellFormed event commands a.attempt where
  attempted _ := rfl
  quiet hnone := by
    conv_lhs => rw [h.quiet hnone]
    rfl
  state c hc := (h.state c hc).imp_right fun ⟨s, m, w, ho⟩ => ⟨s, m, w, ho.congr rfl rfl rfl⟩
  count := h.count.imp_right fun ⟨s, d, ho⟩ => ⟨s, d, ho.congr rfl rfl (fun _ _ => rfl) rfl⟩
  answer c hc := (h.answer c hc).imp_right fun ⟨s, m, ho⟩ => ⟨s, m, ho.congr rfl rfl rfl rfl⟩
  ended hended := (Option.isSome_iff_ne_none.mp hended hopen).elim

/-- Nothing is published before a result is stored. -/
theorem WellFormed.store (h : WellFormed event commands a) (hopen : a.processed = none)
    (hattempted : a.attempted = true) (hnone : a.stored = none) :
    WellFormed event commands (a.store stored) := by
  have hquiet := h.quiet hnone
  refine ⟨fun _ => hattempted, fun hsome => ?_, fun c _ => .inl ?_, .inl ?_, fun c _ => .inl ?_,
    fun hended => (Option.isSome_iff_ne_none.mp hended hopen).elim⟩
  · cases hsome
  · rw [hquiet]
    exact ⟨rfl, rfl⟩
  · rw [hquiet]
    exact ⟨rfl, rfl⟩
  · rw [hquiet]
    exact ⟨rfl, rfl⟩

theorem WellFormed.publish (h : WellFormed event commands a) (hdistinct : Distinct commands)
    (hopen : a.processed = none) (hstored : a.stored = some stored) (hc : c ∈ commands)
    (hnone : a.marker c.id = none) (hpublishes : Publishes stored.result c marker written) :
    WellFormed event commands (a.publish event c marker written) := by
  have hmarked : ∀ member, (a.marker member).isSome →
      (a.publish event c marker written).marker member = a.marker member := by
    intro member hsome
    refine Function.update_of_ne (fun hid => ?_) _ _
    rw [hid, hnone] at hsome
    cases hsome
  refine ⟨h.attempted, fun hsome => ?_, fun c' hc' => ?_, ?_, fun c' hc' => ?_,
    fun hended => (Option.isSome_iff_ne_none.mp hended hopen).elim⟩
  · exact absurd (hstored.symm.trans hsome) (Option.some_ne_none stored)
  · by_cases hcc : c'.id = c.id
    · cases hdistinct.eq hc' hc hcc
      refine .inr ⟨stored, marker, written, hstored, Function.update_self .., hpublishes, ?_⟩
      rw [statesOf_publish_self]
      rcases h.state c hc with ⟨-, hempty⟩ | ⟨s, m, w, ho⟩
      · rw [hempty, List.nil_append]
      · exact absurd (hnone.symm.trans ho.marked) (Option.some_ne_none m).symm
    · have hmarker : (a.publish event c marker written).marker c'.id = a.marker c'.id :=
        Function.update_of_ne hcc _ _
      have hstates : (a.publish event c marker written).statesOf event.id c'.id = _ :=
        statesOf_publish_of_ne (Ne.symm hcc)
      rw [hmarker, hstates]
      exact (h.state c' hc').imp_right fun ⟨s, m, w, ho⟩ => ⟨s, m, w, ho.congr rfl hmarker hstates⟩
  · refine h.count.imp_right fun ⟨s, d, ho⟩ => ⟨s, d, ho.congr rfl rfl (fun c' hc' => ?_) rfl⟩
    exact hmarked c'.id (marker_of_delta ho.total hc')
  · refine (h.answer c' hc').imp_right fun ⟨s, m, ho⟩ => ⟨s, m, ho.congr rfl rfl ?_ rfl⟩
    exact hmarked c'.id (Option.isSome_of_eq_some ho.marked)

theorem WellFormed.countOnce (h : WellFormed event commands a) (hopen : a.processed = none)
    (hstored : a.stored = some stored) (hnone : a.counted = false)
    (hdelta : a.delta commands = some delta) :
    WellFormed event commands (a.count event stored delta) := by
  refine ⟨h.attempted, fun hsome => ?_, fun c hc => ?_, .inr ⟨stored, delta, rfl, hstored, ?_, ?_⟩,
    fun c hc => ?_, fun hended => (Option.isSome_iff_ne_none.mp hended hopen).elim⟩
  · exact absurd (hstored.symm.trans hsome) (Option.some_ne_none stored)
  · exact (h.state c hc).imp_right fun ⟨s, m, w, ho⟩ => ⟨s, m, w, ho.congr rfl rfl rfl⟩
  · rw [← hdelta]
    exact delta_congr fun _ _ => rfl
  · rcases h.count with ⟨-, hempty⟩ | ⟨s, d, ho⟩
    · simp only [Account.count, hempty, List.nil_append]
    · exact absurd (hnone.symm.trans ho.counted) Bool.false_ne_true
  · exact (h.answer c hc).imp_right fun ⟨s, m, ho⟩ => ⟨s, m, ho.congr rfl rfl rfl rfl⟩

theorem WellFormed.answerOnce (h : WellFormed event commands a) (hdistinct : Distinct commands)
    (hopen : a.processed = none) (hstored : a.stored = some stored) (hc : c ∈ commands)
    (hmarker : a.marker c.id = some marker) (hnone : a.answered c.id = false) :
    WellFormed event commands (a.answer event stored c marker) := by
  refine ⟨h.attempted, fun hsome => ?_, fun c' hc' => ?_, ?_, fun c' hc' => ?_,
    fun hended => (Option.isSome_iff_ne_none.mp hended hopen).elim⟩
  · exact absurd (hstored.symm.trans hsome) (Option.some_ne_none stored)
  · exact (h.state c' hc').imp_right fun ⟨s, m, w, ho⟩ => ⟨s, m, w, ho.congr rfl rfl rfl⟩
  · exact h.count.imp_right fun ⟨s, d, ho⟩ => ⟨s, d, ho.congr rfl rfl (fun _ _ => rfl) rfl⟩
  · by_cases hcc : c'.id = c.id
    · cases hdistinct.eq hc' hc hcc
      refine .inr ⟨stored, marker, Function.update_self .., hstored, hmarker, ?_⟩
      rw [resultsOf_answer_self]
      rcases h.answer c hc with ⟨-, hempty⟩ | ⟨s, m, ho⟩
      · rw [hempty, List.nil_append]
      · exact absurd (hnone.symm.trans ho.answered) Bool.false_ne_true
    · have hanswered : (a.answer event stored c marker).answered c'.id = a.answered c'.id :=
        Function.update_of_ne hcc _ _
      have hresults : (a.answer event stored c marker).resultsOf event.id c'.id = _ :=
        resultsOf_answer_of_ne (Ne.symm hcc)
      rw [hanswered, hresults]
      exact (h.answer c' hc').imp_right fun ⟨s, m, ho⟩ =>
        ⟨s, m, ho.congr hanswered rfl rfl hresults⟩

theorem WellFormed.finish (h : WellFormed event commands a) {applied : Bool}
    (hended : a.attempted = true → ∃ stored, a.stored = some stored ∧ a.counted = true ∧
      ∀ c ∈ commands, a.answered c.id = true) :
    WellFormed event commands (a.finish applied) where
  attempted := h.attempted
  quiet hnone := by
    have hquiet := h.quiet hnone
    generalize hb : a.attempted = attempted at hquiet
    rw [hquiet]
    rfl
  state c hc := (h.state c hc).imp_right fun ⟨s, m, w, ho⟩ => ⟨s, m, w, ho.congr rfl rfl rfl⟩
  count := h.count.imp_right fun ⟨s, d, ho⟩ => ⟨s, d, ho.congr rfl rfl (fun _ _ => rfl) rfl⟩
  answer c hc := (h.answer c hc).imp_right fun ⟨s, m, ho⟩ => ⟨s, m, ho.congr rfl rfl rfl rfl⟩
  ended _ := hended

/-- A step keeps the account of a command with distinct members well formed. -/
theorem WellFormed.step (h : WellFormed event commands a) (hdistinct : Distinct commands)
    (hstep : Step event commands a b) : WellFormed event commands b := by
  cases hstep with
  | attempt hopen => exact h.attempt hopen
  | store stored hopen hattempted hnone => exact h.store hopen hattempted hnone
  | publish hopen hstored hc hnone hpublishes =>
      exact h.publish hdistinct hopen hstored hc hnone hpublishes
  | count hopen hstored hnone hdelta => exact h.countOnce hopen hstored hnone hdelta
  | answer hopen hstored hc hmarker hnone =>
      exact h.answerOnce hdistinct hopen hstored hc hmarker hnone
  | finish hopen hstored hcounted hanswered =>
      exact h.finish fun _ => ⟨_, hstored, hcounted, hanswered⟩
  | discard hopen hnone =>
      refine h.finish fun hattempted => ?_
      rw [hnone] at hattempted
      cases hattempted

end Steps

/-! ## The end -/

/-- Everything the command did was derived from the one result that is stored. -/
structure Once (event : CommandEvent) (commands : List ConnectionCommand) (a : Account)
    (stored : StoredResult) : Prop where
  count : ∃ delta, CountOnce event commands a stored delta
  members : ∀ c ∈ commands, ∃ marker written, StateOnce event a c stored marker written ∧
    AnswerOnce event a c stored marker

section End

variable {event : CommandEvent} {commands : List ConnectionCommand} {a : Account}

theorem WellFormed.once (h : WellFormed event commands a) (hended : a.processed.isSome)
    (hattempted : a.attempted = true) : ∃ stored, Once event commands a stored := by
  obtain ⟨stored, hstored, hcounted, hanswered⟩ := h.ended hended hattempted
  have hsame : ∀ s, a.stored = some s → s = stored := fun s hs =>
    Option.some.inj (hs.symm.trans hstored)
  refine ⟨stored, ?_, fun c hc => ?_⟩
  · rcases h.count with ⟨hnone, -⟩ | ⟨s, delta, hcount⟩
    · exact absurd (hnone.symm.trans hcounted) Bool.false_ne_true
    · cases hsame s hcount.source
      exact ⟨delta, hcount⟩
  · rcases h.answer c hc with ⟨hnone, -⟩ | ⟨s, marker, hanswer⟩
    · exact absurd (hnone.symm.trans (hanswered c hc)) Bool.false_ne_true
    · cases hsame s hanswer.source
      rcases h.state c hc with ⟨hnone, -⟩ | ⟨s', marker', written, hstate⟩
      · exact absurd (hnone.symm.trans hanswer.marked) (Option.some_ne_none marker).symm
      · cases hsame s' hstate.source
        cases hstate.marked.symm.trans hanswer.marked
        exact ⟨marker, written, hstate, hanswer⟩

/-- A command that was never attempted has no effect. -/
theorem WellFormed.unattempted (h : WellFormed event commands a) (hnone : a.attempted = false) :
    a = { processed := a.processed } := by
  have hstored : a.stored = none := by
    cases hs : a.stored with
    | none => rfl
    | some stored =>
        have hattempted := h.attempted (by rw [hs]; rfl)
        exact absurd (hnone.symm.trans hattempted) Bool.false_ne_true
  have hquiet := h.quiet hstored
  rw [hnone] at hquiet
  exact hquiet

end End

end Account

end MiniOcs.Syncd
