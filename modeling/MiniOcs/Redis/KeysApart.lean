import MiniOcs.Gnmi.Candidate
import MiniOcs.Redis.Keys

/-!
# Different keys have different texts

The ids are read as their fields between colons, and the keys as their fields between bars. No
field has either, since uuids, numbers and what the path parser lets through have none.
-/
namespace MiniOcs.Redis
open Separated Gnmi

/-! ## Ids -/

/-- A field of an id or of a key. -/
structure Field (text : String) : Prop where
  colon : Free ':' text
  bar : Free '|' text

instance (text : String) : Decidable (Field text) :=
  decidable_of_iff (Free ':' text ∧ Free '|' text) ⟨fun h => ⟨h.1, h.2⟩, fun h => ⟨h.1, h.2⟩⟩

theorem field_of_safe {text : String} (h : isSafeId text = true) : Field text := by
  simp only [isSafeId, Bool.and_eq_true, List.all_eq_true] at h
  refine ⟨fun hmem => ?_, fun hmem => ?_⟩
  · exact absurd (h.2 _ hmem) (by decide)
  · exact absurd (h.2 _ hmem) (by decide)

theorem isDigit_repr {n : Nat} {c : Char} (h : c ∈ (Nat.repr n).toList) : c.isDigit = true := by
  have hlist : (Nat.repr n).toList = Nat.toDigits 10 n := by simp [Nat.repr]
  rw [hlist] at h
  exact Nat.isDigit_of_mem_toDigits (by decide) (by decide) h

theorem field_repr (n : Nat) : Field (Nat.repr n) :=
  ⟨fun h => absurd (isDigit_repr h) (by decide), fun h => absurd (isDigit_repr h) (by decide)⟩

theorem repr_ne {n : Nat} {text : String} (h : text.toList.any (fun c => !c.isDigit) = true) :
    Nat.repr n ≠ text := by
  rintro rfl
  obtain ⟨c, hc, hdigit⟩ := List.any_eq_true.mp h
  rw [isDigit_repr hc] at hdigit
  cases hdigit

theorem repr_inj {m n : Nat} (h : Nat.repr m = Nat.repr n) : m = n := by
  have hread := congrArg (fun text : String => Nat.ofDigitChars 10 text.toList 0) h
  simpa [Nat.repr] using hread

section

/-- The words that ids are composed with. -/
def words : List String := ["command", "retry", "result", "timeout-alarm", "hwsim-recovery",
  "reconcile", "port-fault"]

/-- Every event has a uuid of its own, and the path parser let the device through. -/
structure Proper (N : Naming) : Prop where
  injective : ∀ a b, N.event a = N.event b → a = b
  event : ∀ e, Field (N.event e)
  fresh : ∀ e, N.event e ∉ words
  device : isSafeId N.device = true

variable {N : Naming}

theorem Proper.event_ne (hN : Proper N) (e : Nat) {text : String} (h : text ∈ words) :
    N.event e ≠ text := by
  rintro rfl
  exact hN.fresh e h

variable (N)

/-- The fields of the id that a batch is prepared under. -/
def sourceParts : CommandId → List String
  | .config eventId => [N.event eventId]
  | .retry failed attempt => sourceParts failed ++ ["command", "retry", Nat.repr attempt]
  | .recovery generation => ["hwsim-recovery", N.device, Nat.repr generation]
  | .reconcile timestampNs => ["reconcile", N.device, Nat.repr timestampNs]

def resultParts (result : ResultId) : List String :=
  sourceParts N result.command ++ "command" :: "result" :: result.connection.toList

def activationParts : ActivationId → List String
  | .timeout command connection =>
      sourceParts N command ++ ["command", "timeout-alarm", connection]
  | .drift command => sourceParts N command ++ ["command"]
  | .port direction port timestampNs =>
      ["port-fault", N.device, directionText direction, Nat.repr port, Nat.repr timestampNs]

variable {N}

theorem sourceParts_ne_nil (command : CommandId) : sourceParts N command ≠ [] := by
  cases command <;> simp [sourceParts]

theorem join_colon (field : String) (fields : List String) :
    join ':' (field :: fields) = fields.foldl (fun text field => text ++ ":" ++ field) field := by
  have hgeneral : ∀ fields (done : List String), done ≠ [] → join ':' (done ++ fields) =
      fields.foldl (fun text field => text ++ ":" ++ field) (join ':' done) := by
    intro fields
    induction fields with
    | nil => intro done _; simp
    | cons next rest ih =>
        intro done hdone
        have hstep := ih (done ++ [next]) (by simp)
        rw [List.append_assoc, List.singleton_append] at hstep
        rw [hstep, join_append hdone (by simp), join_singleton]
        rfl
  simpa using hgeneral fields [field] (by simp)

theorem sourceText_eq (command : CommandId) :
    sourceText N command = join ':' (sourceParts N command) := by
  induction command with
  | config e => simp [sourceText, sourceParts]
  | retry failed attempt ih =>
      rw [sourceParts, join_append (sourceParts_ne_nil failed) (by simp), ← ih, join_colon]
      simp only [sourceText, List.foldl_cons, List.foldl_nil]
      apply String.toList_inj.mp
      simp
  | recovery generation =>
      rw [sourceParts, join_colon]
      apply String.toList_inj.mp
      simp [sourceText]
  | reconcile timestampNs =>
      rw [sourceParts, join_colon]
      apply String.toList_inj.mp
      simp [sourceText]

theorem resultText_eq (result : ResultId) :
    resultText N result = join ':' (resultParts N result) := by
  rw [resultParts, join_append (sourceParts_ne_nil _) (by simp), ← sourceText_eq, join_colon]
  unfold resultText commandText
  cases result.connection <;> exact String.toList_inj.mp (by simp)

theorem activationText_eq (activation : ActivationId) :
    activationText N activation = join ':' (activationParts N activation) := by
  cases activation with
  | timeout command connection =>
      rw [activationParts, join_append (sourceParts_ne_nil _) (by simp), ← sourceText_eq, join_colon]
      exact String.toList_inj.mp (by simp [activationText, commandText])
  | drift command =>
      rw [activationParts, join_append (sourceParts_ne_nil _) (by simp), ← sourceText_eq]
      exact String.toList_inj.mp (by simp [activationText, commandText])
  | port direction port timestampNs =>
      rw [activationParts, join_colon]
      exact String.toList_inj.mp (by simp [activationText])

/-! ### Fields -/

theorem field_sourceParts (hN : Proper N) (command : CommandId) :
    ∀ part ∈ sourceParts N command, Field part := by
  have hdevice := field_of_safe hN.device
  induction command with
  | config e => simpa [sourceParts] using hN.event e
  | retry failed attempt ih =>
      simp only [sourceParts, List.forall_mem_append, List.forall_mem_cons]
      exact ⟨ih, by decide, by decide, field_repr attempt, by simp⟩
  | recovery generation =>
      simp only [sourceParts, List.forall_mem_cons]
      exact ⟨by decide, hdevice, field_repr generation, by simp⟩
  | reconcile timestampNs =>
      simp only [sourceParts, List.forall_mem_cons]
      exact ⟨by decide, hdevice, field_repr timestampNs, by simp⟩

theorem field_resultParts (hN : Proper N) {result : ResultId}
    (h : ∀ connection ∈ result.connection, Field connection) :
    ∀ part ∈ resultParts N result, Field part := by
  simp only [resultParts, List.forall_mem_append, List.forall_mem_cons]
  exact ⟨field_sourceParts hN _, by decide, by decide, by simpa using h⟩

theorem field_direction (direction : PortDirection) : Field (directionText direction) := by
  cases direction <;> decide

theorem directionText_inj {a b : PortDirection} (h : directionText a = directionText b) : a = b := by
  cases a <;> cases b <;> first | rfl | exact absurd h (by decide)

/-- The connections that an activation names. -/
def activationConnections : ActivationId → List String
  | .timeout _ connection => [connection]
  | _ => []

theorem field_activationParts (hN : Proper N) {activation : ActivationId}
    (h : ∀ connection ∈ activationConnections activation, Field connection) :
    ∀ part ∈ activationParts N activation, Field part := by
  cases activation with
  | timeout command connection =>
      simp only [activationParts, List.forall_mem_append, List.forall_mem_cons]
      exact ⟨field_sourceParts hN command, by decide, by decide,
        h connection (by simp [activationConnections]), by simp⟩
  | drift command =>
      simp only [activationParts, List.forall_mem_append, List.forall_mem_cons]
      exact ⟨field_sourceParts hN command, by decide, by simp⟩
  | port direction port timestampNs =>
      simp only [activationParts, List.forall_mem_cons]
      exact ⟨by decide, field_of_safe hN.device, field_direction direction,
        field_repr port, field_repr timestampNs, by simp⟩

/-! ### The ids from their texts -/

/-- The root of a command stands first; a number or a uuid stands last. -/
theorem sourceParts_head (command : CommandId) : ∃ first rest,
    sourceParts N command = first :: rest ∧
      ((∃ e, first = N.event e) ∨ first = "hwsim-recovery" ∨ first = "reconcile") := by
  induction command with
  | config e => exact ⟨_, _, rfl, .inl ⟨e, rfl⟩⟩
  | retry failed attempt ih =>
      obtain ⟨first, rest, heq, hfirst⟩ := ih
      exact ⟨first, rest ++ _, by rw [sourceParts, heq]; rfl, hfirst⟩
  | recovery generation => exact ⟨_, _, rfl, .inr (.inl rfl)⟩
  | reconcile timestampNs => exact ⟨_, _, rfl, .inr (.inr rfl)⟩

theorem sourceParts_last (command : CommandId) : ∃ before last,
    sourceParts N command = before ++ [last] ∧
      ((∃ e, last = N.event e) ∨ ∃ n, last = Nat.repr n) := by
  cases command with
  | config e => exact ⟨[], _, rfl, .inl ⟨e, rfl⟩⟩
  | retry failed attempt =>
      exact ⟨sourceParts N failed ++ ["command", "retry"], Nat.repr attempt, by simp [sourceParts],
        .inr ⟨attempt, rfl⟩⟩
  | recovery generation => exact ⟨[_, _], _, rfl, .inr ⟨_, rfl⟩⟩
  | reconcile timestampNs => exact ⟨[_, _], _, rfl, .inr ⟨_, rfl⟩⟩

theorem length_retry (failed : CommandId) (attempt : Nat) :
    3 < (sourceParts N (.retry failed attempt)).length := by
  have hpos := List.length_pos_iff.mpr (sourceParts_ne_nil (N := N) failed)
  simp only [sourceParts, List.length_append, List.length_cons, List.length_nil]
  omega

theorem retry_ne {command : CommandId} (hshort : (sourceParts N command).length ≤ 3)
    (failed : CommandId) (attempt : Nat) :
    sourceParts N (.retry failed attempt) ≠ sourceParts N command := by
  intro heq
  have hlong := length_retry (N := N) failed attempt
  rw [heq] at hlong
  omega

theorem sourceParts_inj (hN : Proper N) {a b : CommandId}
    (h : sourceParts N a = sourceParts N b) : a = b := by
  induction a generalizing b with
  | config e =>
      cases b with
      | config e' => rw [hN.injective e e' (by simpa [sourceParts] using h)]
      | retry failed attempt => exact absurd h.symm (retry_ne (by simp [sourceParts]) _ _)
      | _ => simp [sourceParts] at h
  | recovery generation =>
      cases b with
      | recovery generation' =>
          rw [repr_inj (m := generation) (n := generation') (by simpa [sourceParts] using h)]
      | retry failed attempt => exact absurd h.symm (retry_ne (by simp [sourceParts]) _ _)
      | _ => simp [sourceParts] at h
  | reconcile timestampNs =>
      cases b with
      | reconcile timestampNs' =>
          rw [repr_inj (m := timestampNs) (n := timestampNs') (by simpa [sourceParts] using h)]
      | retry failed attempt => exact absurd h.symm (retry_ne (by simp [sourceParts]) _ _)
      | _ => simp [sourceParts] at h
  | retry failed attempt ih =>
      cases b with
      | retry failed' attempt' =>
          obtain ⟨hfailed, htail⟩ := List.append_inj' h rfl
          simp only [List.cons.injEq, and_true, true_and] at htail
          rw [ih hfailed, repr_inj htail]
      | _ => exact absurd h (retry_ne (by simp [sourceParts]) _ _)

theorem sourceText_inj (hN : Proper N) {a b : CommandId} (h : sourceText N a = sourceText N b) :
    a = b := by
  rw [sourceText_eq, sourceText_eq] at h
  exact sourceParts_inj hN (join_inj (sourceParts_ne_nil a) (sourceParts_ne_nil b)
    (fun part hpart => (field_sourceParts hN a part hpart).colon)
    (fun part hpart => (field_sourceParts hN b part hpart).colon) h)

theorem commandText_inj (hN : Proper N) {a b : CommandId}
    (h : commandText N a = commandText N b) : a = b :=
  sourceText_inj hN ((String.append_left_inj _).mp h)

theorem retryText_inj (hN : Proper N) {a b : RetryId} (h : retryText N a = retryText N b) :
    a = b := by
  have hsource : sourceText N a.command = sourceText N b.command := h
  have hcommand := sourceText_inj hN hsource
  cases a
  cases b
  simpa [RetryId.command] using hcommand

theorem resultText_inj (hN : Proper N) {a b : ResultId}
    (ha : ∀ connection ∈ a.connection, Field connection)
    (hb : ∀ connection ∈ b.connection, Field connection)
    (h : resultText N a = resultText N b) : a = b := by
  rw [resultText_eq, resultText_eq] at h
  have hparts := join_inj (by simp [resultParts]) (by simp [resultParts])
    (fun part hpart => (field_resultParts hN ha part hpart).colon)
    (fun part hpart => (field_resultParts hN hb part hpart).colon) h
  obtain ⟨command, connection⟩ := a
  obtain ⟨command', connection'⟩ := b
  -- the ending has one field more where there is a connection
  cases connection with
  | none =>
      cases connection' with
      | none =>
          obtain ⟨hsource, -⟩ := List.append_inj' hparts rfl
          rw [show command = command' from sourceParts_inj hN hsource]
      | some id =>
          have hreverse := congrArg List.reverse hparts
          simp [resultParts] at hreverse
  | some id =>
      cases connection' with
      | none =>
          have hreverse := congrArg List.reverse hparts
          simp [resultParts] at hreverse
      | some id' =>
          obtain ⟨hsource, htail⟩ := List.append_inj' hparts rfl
          simp only [Option.toList_some, List.cons.injEq, and_true, true_and] at htail
          rw [show command = command' from sourceParts_inj hN hsource, htail]

theorem activationText_inj (hN : Proper N) {a b : ActivationId}
    (ha : ∀ connection ∈ activationConnections a, Field connection)
    (hb : ∀ connection ∈ activationConnections b, Field connection)
    (h : activationText N a = activationText N b) : a = b := by
  rw [activationText_eq, activationText_eq] at h
  have hparts := join_inj (by cases a <;> simp [activationParts])
    (by cases b <;> simp [activationParts])
    (fun part hpart => (field_activationParts hN ha part hpart).colon)
    (fun part hpart => (field_activationParts hN hb part hpart).colon) h
  have hport : ∀ command rest direction port time, sourceParts N command ++ rest ≠
      activationParts N (.port direction port time) := by
    intro command rest direction port time heq
    obtain ⟨first, others, hsource, hfirst⟩ := sourceParts_head (N := N) command
    rw [hsource, List.cons_append, activationParts, List.cons.injEq] at heq
    obtain ⟨rfl, -⟩ := heq
    rcases hfirst with ⟨e, he⟩ | hroot | hroot
    · exact hN.event_ne e (by decide) he.symm
    · exact absurd hroot (by decide)
    · exact absurd hroot (by decide)
  have hdrift : ∀ command connection command', activationParts N (.timeout command connection) ≠
      activationParts N (.drift command') := by
    intro command connection command' heq
    obtain ⟨before, last, hsource, hlast⟩ := sourceParts_last (N := N) command'
    have hreverse := congrArg List.reverse heq
    simp only [activationParts, hsource, List.reverse_append, List.reverse_cons, List.reverse_nil,
      List.nil_append, List.cons_append, List.cons.injEq] at hreverse
    obtain ⟨-, rfl, -⟩ := hreverse
    rcases hlast with ⟨e, he⟩ | ⟨n, hn⟩
    · exact hN.event_ne e (by decide) he.symm
    · exact repr_ne (by decide) hn.symm
  cases a with
  | timeout command connection =>
      cases b with
      | timeout command' connection' =>
          obtain ⟨hsource, htail⟩ := List.append_inj' hparts rfl
          simp only [List.cons.injEq, and_true, true_and] at htail
          rw [sourceParts_inj hN hsource, htail]
      | drift command' => exact absurd hparts (hdrift command connection command')
      | port direction port time => exact absurd hparts (hport command _ direction port time)
  | drift command =>
      cases b with
      | timeout command' connection' => exact absurd hparts.symm (hdrift command' connection' command)
      | drift command' =>
          obtain ⟨hsource, -⟩ := List.append_inj' hparts rfl
          rw [sourceParts_inj hN hsource]
      | port direction port time => exact absurd hparts (hport command _ direction port time)
  | port direction port time =>
      cases b with
      | timeout command connection => exact absurd hparts.symm (hport command _ direction port time)
      | drift command => exact absurd hparts.symm (hport command _ direction port time)
      | port direction' port' time' =>
          simp only [activationParts, List.cons.injEq, and_true, true_and] at hparts
          obtain ⟨hdirection, hport, htime⟩ := hparts
          rw [directionText_inj hdirection, repr_inj hport, repr_inj htime]

/-! ## Keys -/

theorem bar_sourceText (hN : Proper N) (command : CommandId) : Free '|' (sourceText N command) := by
  rw [sourceText_eq]
  exact free_join (by decide) fun part hpart => (field_sourceParts hN command part hpart).bar

theorem bar_commandText (hN : Proper N) (command : CommandId) : Free '|' (commandText N command) :=
  free_append.mpr ⟨bar_sourceText hN command, by decide⟩

theorem bar_retryText (hN : Proper N) (retry : RetryId) : Free '|' (retryText N retry) :=
  bar_sourceText hN retry.command

theorem bar_resultText (hN : Proper N) {result : ResultId}
    (h : ∀ connection ∈ result.connection, Field connection) : Free '|' (resultText N result) := by
  rw [resultText_eq]
  exact free_join (by decide) fun part hpart => (field_resultParts hN h part hpart).bar

theorem bar_activationText (hN : Proper N) {activation : ActivationId}
    (h : ∀ connection ∈ activationConnections activation, Field connection) :
    Free '|' (activationText N activation) := by
  rw [activationText_eq]
  exact free_join (by decide) fun part hpart => (field_activationParts hN h part hpart).bar

/-- The connections that an alarm names. -/
def alarmConnections : AlarmId → List String
  | .applyTimeout connection => [connection]
  | _ => []

theorem bar_applyTimeout {connection : String} (h : Field connection) :
    Free '|' (applyTimeoutAlarmId connection) := free_append.mpr ⟨by decide, h.bar⟩

theorem bar_alarmText {alarm : AlarmId}
    (h : ∀ connection ∈ alarmConnections alarm, Field connection) : Free '|' (alarmText alarm) := by
  cases alarm with
  | applyTimeout connection => exact bar_applyTimeout (h connection (by simp [alarmConnections]))
  | desiredActualDrift => decide
  | portDown direction port =>
      simp only [alarmText, portDownAlarmId, free_append]
      exact ⟨⟨⟨by decide, (field_direction direction).bar⟩, by decide⟩, (field_repr port).bar⟩

theorem alarmText_inj {a b : AlarmId} (h : alarmText a = alarmText b) : a = b := by
  have hlists := congrArg String.toList h
  have hhead := congrArg List.head? hlists
  cases a with
  | applyTimeout connection =>
      cases b with
      | applyTimeout connection' =>
          simp only [alarmText, applyTimeoutAlarmId, String.toList_append] at hlists
          rw [String.toList_inj.mp (List.append_cancel_left hlists)]
      | _ => simp [alarmText, applyTimeoutAlarmId, desiredActualDriftAlarmId, portDownAlarmId] at hhead
  | desiredActualDrift =>
      cases b with
      | desiredActualDrift => rfl
      | _ => simp [alarmText, applyTimeoutAlarmId, desiredActualDriftAlarmId, portDownAlarmId] at hhead
  | portDown direction port =>
      cases b with
      | portDown direction' port' =>
          simp only [alarmText, portDownAlarmId, String.toList_append, List.append_assoc] at hlists
          have hrest := List.append_cancel_left hlists
          have hsame : direction = direction' := by
            cases direction <;> cases direction' <;> first | rfl | simp [directionText] at hrest
          subst hsame
          have hport := List.append_cancel_left (List.append_cancel_left hrest)
          rw [repr_inj (String.toList_inj.mp hport)]
      | _ => simp [alarmText, applyTimeoutAlarmId, desiredActualDriftAlarmId, portDownAlarmId] at hhead

variable (N)

def orchFamily : OrchKey → Family
  | .configBatch _ => .orchConfigBatch
  | .applicationPublication _ => .orchApplicationPublication
  | .deviceStatePublication _ => .orchDeviceStatePublication
  | .deviceCommandPublication _ => .orchDeviceCommandPublication
  | .resultApplicationPublication _ => .orchResultApplicationPublication
  | .resultDevicePublication _ => .orchResultDevicePublication
  | .timeoutApplicationPublication _ => .orchTimeoutApplicationPublication
  | .timeoutDevicePublication _ => .orchTimeoutDevicePublication
  | .retryPublication _ => .orchRetryPublication
  | .retryApplicationPublication _ => .orchRetryApplicationPublication
  | .retryDevicePublication _ => .orchRetryDevicePublication
  | .retryCommandPublication _ => .orchRetryCommandPublication
  | .activeAlarm _ => .activeAlarm
  | .alarmPublication _ => .orchAlarmPublication
  | .alarmClearPublication _ => .orchAlarmClearPublication
  | .alarmCounterPublication _ _ clear => .orchAlarmCounterPublication clear

def orchFields : OrchKey → List String
  | .configBatch source => [sourceText N source]
  | .applicationPublication eventId | .deviceStatePublication eventId
  | .deviceCommandPublication eventId => [N.event eventId]
  | .resultApplicationPublication result | .resultDevicePublication result
  | .alarmClearPublication result => [resultText N result]
  | .timeoutApplicationPublication command | .timeoutDevicePublication command
  | .retryPublication command => [commandText N command]
  | .retryApplicationPublication retry | .retryDevicePublication retry
  | .retryCommandPublication retry => [retryText N retry]
  | .activeAlarm connection => [N.device, applyTimeoutAlarmId connection]
  | .alarmPublication activation => [activationText N activation]
  | .alarmCounterPublication connection activation _ =>
      [N.device, applyTimeoutAlarmId connection, activationText N activation]

/-- The connections that a key names. -/
def orchConnections : OrchKey → List String
  | .resultApplicationPublication result | .resultDevicePublication result
  | .alarmClearPublication result => result.connection.toList
  | .activeAlarm connection => [connection]
  | .alarmPublication activation => activationConnections activation
  | .alarmCounterPublication connection activation _ =>
      connection :: activationConnections activation
  | _ => []

def syncdFamily : SyncdKey → Family
  | .configBatch _ => .orchConfigBatch
  | .applyAttempt _ => .deviceApplyAttempt
  | .applyResult _ => .deviceApplyResult
  | .processedCommand _ => .processedDeviceCommand
  | .connectionVersion _ => .syncdConnectionVersion
  | .statePublication _ _ => .syncdStatePublication
  | .countersPublication _ => .syncdCountersPublication
  | .resultPublication _ _ => .syncdResultPublication
  | .generationRecovery _ => .syncdGenerationRecovery
  | .generationStatePublication _ _ => .syncdGenerationStatePublication
  | .generationCountersPublication _ => .syncdGenerationCountersPublication
  | .reconciliation => .syncdReconciliation
  | .reconciliationCommandPublication _ => .syncdReconciliationCommandPublication
  | .reconciliationStatePublication _ _ _ => .syncdReconciliationStatePublication
  | .reconciliationCountersPublication _ => .syncdReconciliationCountersPublication
  | .reconciliationSuccessPublication _ => .syncdReconciliationSuccessCountersPublication
  | .activeAlarm _ => .activeAlarm
  | .driftAlarmPublication _ => .syncdDriftAlarmPublication
  | .driftAlarmClearPublication _ => .syncdDriftAlarmClearPublication
  | .portAlarmPublication _ => .syncdPortAlarmPublication
  | .portAlarmClearPublication _ => .syncdPortAlarmClearPublication
  | .alarmCounterPublication (.drift _) clear => .syncdDriftAlarmCounterPublication clear
  | .alarmCounterPublication _ clear => .syncdPortAlarmCounterPublication clear
  | .portFault _ _ => .syncdPortFault
  | .portState .input _ => .inputPortState
  | .portState .output _ => .outputPortState
  | .deviceState => .deviceState

def syncdFields : SyncdKey → List String
  | .configBatch source => [sourceText N source]
  | .applyAttempt command | .applyResult command | .processedCommand command
  | .countersPublication command | .reconciliationCommandPublication command
  | .reconciliationCountersPublication command | .reconciliationSuccessPublication command
  | .driftAlarmPublication command | .driftAlarmClearPublication command => [commandText N command]
  | .connectionVersion connection => [N.device, connection]
  | .statePublication command connection | .resultPublication command connection =>
      [commandText N command, connection]
  | .generationRecovery generation | .generationCountersPublication generation =>
      [N.device, Nat.repr generation]
  | .generationStatePublication generation connection =>
      [N.device, Nat.repr generation, connection]
  | .reconciliation | .deviceState => [N.device]
  | .reconciliationStatePublication command connection phase =>
      [commandText N command, connection, phaseText phase]
  | .activeAlarm alarm => [N.device, alarmText alarm]
  | .portAlarmPublication activation | .portAlarmClearPublication activation =>
      [activationText N activation]
  | .alarmCounterPublication (.drift command) _ => [N.device, commandText N command]
  | .alarmCounterPublication activation _ => [activationText N activation]
  | .portFault direction port => [N.device, directionText direction, Nat.repr port]
  | .portState _ port => [N.device, Nat.repr port]

def syncdConnections : SyncdKey → List String
  | .connectionVersion connection | .statePublication _ connection
  | .resultPublication _ connection | .generationStatePublication _ connection
  | .reconciliationStatePublication _ connection _ => [connection]
  | .activeAlarm alarm => alarmConnections alarm
  | .portAlarmPublication activation | .portAlarmClearPublication activation
  | .alarmCounterPublication activation _ => activationConnections activation
  | _ => []

variable {N}

theorem orchKeyText_eq (k : OrchKey) : orchKeyText N k = key (orchFamily k) (orchFields N k) := by
  cases k <;> rfl

theorem syncdKeyText_eq (k : SyncdKey) :
    syncdKeyText N k = key (syncdFamily k) (syncdFields N k) := by
  cases k with
  | alarmCounterPublication activation clear => cases activation <;> rfl
  | portState direction port => cases direction <;> rfl
  | _ => rfl

theorem Family.bar_name (family : Family) : Free '|' family.name := by
  cases family with
  | syncdDriftAlarmCounterPublication clear => cases clear <;> decide
  | syncdPortAlarmCounterPublication clear => cases clear <;> decide
  | orchAlarmCounterPublication clear => cases clear <;> decide
  | _ => decide

theorem key_inj {f g : Family} {xs ys : List String} (hx : ∀ field ∈ xs, Free '|' field)
    (hy : ∀ field ∈ ys, Free '|' field) (h : key f xs = key g ys) : f = g ∧ xs = ys := by
  have hfields := join_inj (List.cons_ne_nil f.name xs) (List.cons_ne_nil g.name ys)
    (List.forall_mem_cons.mpr ⟨f.bar_name, hx⟩) (List.forall_mem_cons.mpr ⟨g.bar_name, hy⟩) h
  rw [List.cons.injEq] at hfields
  exact ⟨Family.name_inj hfields.1, hfields.2⟩

theorem bar_orchFields (hN : Proper N) {k : OrchKey} (h : ∀ c ∈ orchConnections k, Field c) :
    ∀ field ∈ orchFields N k, Free '|' field := by
  have hdevice := (field_of_safe hN.device).bar
  have hevent := fun e => (hN.event e).bar
  have hresult : ∀ result : ResultId, (∀ c ∈ result.connection.toList, Field c) →
      Free '|' (resultText N result) :=
    fun result hc => bar_resultText hN fun c hmem => hc c (by simpa using hmem)
  cases k with
  | resultApplicationPublication result => simpa [orchFields] using hresult result h
  | resultDevicePublication result => simpa [orchFields] using hresult result h
  | alarmClearPublication result => simpa [orchFields] using hresult result h
  | activeAlarm connection =>
      simpa [orchFields] using ⟨hdevice, bar_applyTimeout (h connection List.mem_cons_self)⟩
  | alarmPublication activation => simpa [orchFields] using bar_activationText hN h
  | alarmCounterPublication connection activation clear =>
      have hactivation := bar_activationText hN fun c hc => h c (List.mem_cons_of_mem connection hc)
      simpa [orchFields] using ⟨hdevice, bar_applyTimeout (h connection List.mem_cons_self),
        hactivation⟩
  | _ => simp [orchFields, hevent, bar_sourceText hN, bar_commandText hN, bar_retryText hN]

theorem bar_syncdFields (hN : Proper N) {k : SyncdKey} (h : ∀ c ∈ syncdConnections k, Field c) :
    ∀ field ∈ syncdFields N k, Free '|' field := by
  have hdevice := (field_of_safe hN.device).bar
  have hrepr := fun n => (field_repr n).bar
  have hphase : ∀ phase, Free '|' (phaseText phase) := by
    intro phase
    cases phase <;> decide
  cases k with
  | activeAlarm alarm => simpa [syncdFields] using ⟨hdevice, bar_alarmText h⟩
  | portAlarmPublication activation => simpa [syncdFields] using bar_activationText hN h
  | portAlarmClearPublication activation => simpa [syncdFields] using bar_activationText hN h
  | alarmCounterPublication activation clear =>
      have hactivation := bar_activationText hN h
      cases activation with
      | drift command => simpa [syncdFields] using ⟨hdevice, bar_commandText hN command⟩
      | _ => simpa [syncdFields] using hactivation
  | connectionVersion connection =>
      simpa [syncdFields] using ⟨hdevice, (h connection List.mem_cons_self).bar⟩
  | statePublication command connection =>
      simpa [syncdFields] using ⟨bar_commandText hN command, (h connection List.mem_cons_self).bar⟩
  | resultPublication command connection =>
      simpa [syncdFields] using ⟨bar_commandText hN command, (h connection List.mem_cons_self).bar⟩
  | generationStatePublication generation connection =>
      simpa [syncdFields] using ⟨hdevice, hrepr generation, (h connection List.mem_cons_self).bar⟩
  | reconciliationStatePublication command connection phase =>
      simpa [syncdFields] using ⟨bar_commandText hN command, (h connection List.mem_cons_self).bar,
        hphase phase⟩
  | _ =>
      simp [syncdFields, hdevice, hrepr, bar_sourceText hN, bar_commandText hN,
        fun direction => (field_direction direction).bar]

theorem orch_apart (hN : Proper N) {k k' : OrchKey} (h : ∀ c ∈ orchConnections k, Field c)
    (h' : ∀ c ∈ orchConnections k', Field c) (hfamily : orchFamily k = orchFamily k')
    (hfields : orchFields N k = orchFields N k') : k = k' := by
  -- the families agree, so the constructors do
  cases k <;> cases k' <;> first | contradiction | skip
  all_goals simp only [orchFields, List.cons.injEq, and_true, true_and] at hfields
  case configBatch.configBatch => rw [sourceText_inj hN hfields]
  case applicationPublication.applicationPublication => rw [hN.injective _ _ hfields]
  case deviceStatePublication.deviceStatePublication => rw [hN.injective _ _ hfields]
  case deviceCommandPublication.deviceCommandPublication => rw [hN.injective _ _ hfields]
  case timeoutApplicationPublication.timeoutApplicationPublication =>
    rw [commandText_inj hN hfields]
  case timeoutDevicePublication.timeoutDevicePublication => rw [commandText_inj hN hfields]
  case retryPublication.retryPublication => rw [commandText_inj hN hfields]
  case retryApplicationPublication.retryApplicationPublication => rw [retryText_inj hN hfields]
  case retryDevicePublication.retryDevicePublication => rw [retryText_inj hN hfields]
  case retryCommandPublication.retryCommandPublication => rw [retryText_inj hN hfields]
  case activeAlarm.activeAlarm => rw [(String.append_right_inj _).mp hfields]
  case alarmPublication.alarmPublication => rw [activationText_inj hN h h' hfields]
  case alarmCounterPublication.alarmCounterPublication =>
    obtain ⟨hconnection, hactivation⟩ := hfields
    have heq := activationText_inj hN (fun c hc => h c (List.mem_cons_of_mem _ hc))
      (fun c hc => h' c (List.mem_cons_of_mem _ hc)) hactivation
    cases hfamily
    rw [(String.append_right_inj _).mp hconnection, heq]
  all_goals
    have heq := resultText_inj hN (fun c hc => h c (by simpa [orchConnections] using hc))
      (fun c hc => h' c (by simpa [orchConnections] using hc)) hfields
    rw [heq]

/-- The fields of an alarm counter tell its activation. -/
theorem counterFields_inj (hN : Proper N) {a b : ActivationId} {clear clear' : Bool}
    (ha : ∀ connection ∈ activationConnections a, Field connection)
    (hb : ∀ connection ∈ activationConnections b, Field connection)
    (hfamily : syncdFamily (.alarmCounterPublication a clear) =
      syncdFamily (.alarmCounterPublication b clear'))
    (hfields : syncdFields N (.alarmCounterPublication a clear) =
      syncdFields N (.alarmCounterPublication b clear')) : a = b := by
  apply activationText_inj hN ha hb
  cases a <;> cases b <;> first | contradiction | skip
  all_goals simp only [syncdFields, List.cons.injEq, and_true, true_and] at hfields
  all_goals exact hfields

theorem counterFamily_ne (activation : ActivationId) (clear : Bool) (direction : PortDirection)
    (port : Nat) : syncdFamily (.alarmCounterPublication activation clear) ≠
      syncdFamily (.portState direction port) := by
  cases activation <;> cases direction <;> nofun

theorem syncd_apart (hN : Proper N) {k k' : SyncdKey} (h : ∀ c ∈ syncdConnections k, Field c)
    (h' : ∀ c ∈ syncdConnections k', Field c) (hfamily : syncdFamily k = syncdFamily k')
    (hfields : syncdFields N k = syncdFields N k') : k = k' := by
  cases k <;> cases k' <;> first | contradiction | skip
  -- the two keys whose family depends on what they hold
  case alarmCounterPublication.alarmCounterPublication activation clear activation' clear' =>
    have hclear : clear = clear' := by
      cases activation <;> cases activation' <;> cases hfamily <;> rfl
    rw [counterFields_inj hN h h' hfamily hfields, hclear]
  case portState.portState direction port direction' port' =>
    have hsame : direction = direction' := by
      cases direction <;> cases direction' <;> first | rfl | contradiction
    simp only [syncdFields, List.cons.injEq, and_true, true_and] at hfields
    rw [hsame, repr_inj hfields]
  case alarmCounterPublication.portState => exact absurd hfamily (counterFamily_ne _ _ _ _)
  case portState.alarmCounterPublication => exact absurd hfamily.symm (counterFamily_ne _ _ _ _)
  all_goals try (simp only [syncdFamily] at hfamily; split at hfamily <;> contradiction)
  all_goals simp only [syncdFields, List.cons.injEq, and_true, true_and] at hfields
  case configBatch.configBatch => rw [sourceText_inj hN hfields]
  case connectionVersion.connectionVersion => rw [hfields]
  case statePublication.statePublication => rw [commandText_inj hN hfields.1, hfields.2]
  case resultPublication.resultPublication => rw [commandText_inj hN hfields.1, hfields.2]
  case generationRecovery.generationRecovery => rw [repr_inj hfields]
  case generationStatePublication.generationStatePublication => rw [repr_inj hfields.1, hfields.2]
  case generationCountersPublication.generationCountersPublication => rw [repr_inj hfields]
  case reconciliation.reconciliation => rfl
  case reconciliationStatePublication.reconciliationStatePublication command connection phase
      command' connection' phase' =>
    have hphase : phase = phase' := by
      cases phase <;> cases phase' <;> first | rfl | exact absurd hfields.2.2 (by decide)
    rw [commandText_inj hN hfields.1, hfields.2.1, hphase]
  case activeAlarm.activeAlarm => rw [alarmText_inj hfields]
  case portAlarmPublication.portAlarmPublication => rw [activationText_inj hN h h' hfields]
  case portAlarmClearPublication.portAlarmClearPublication => rw [activationText_inj hN h h' hfields]
  case portFault.portFault => rw [directionText_inj hfields.1, repr_inj hfields.2]
  case deviceState.deviceState => rfl
  -- what is left is named by a command alone
  all_goals rw [commandText_inj hN hfields]

/-! ## All keys -/

def Resource.family : Resource → Family
  | .config _ => .connectionConfig
  | .revision => .configRevision
  | .appl _ => .connectionApp
  | .deviceCopy _ => .connectionDevice
  | .state _ => .connectionState
  | .counters => .deviceCounters
  | .faultResult _ => .faultResult
  | .orch k => orchFamily k
  | .syncd k => syncdFamily k

def Resource.fields (N : Naming) : Resource → List String
  | .config connection | .appl connection | .deviceCopy connection | .state connection =>
      [N.device, connection]
  | .revision | .counters => [N.device]
  | .faultResult eventId => [N.event eventId]
  | .orch k => orchFields N k
  | .syncd k => syncdFields N k

/-- The connections that a key names. -/
def Resource.connections : Resource → List String
  | .config connection | .appl connection | .deviceCopy connection | .state connection =>
      [connection]
  | .revision | .counters | .faultResult _ => []
  | .orch k => orchConnections k
  | .syncd k => syncdConnections k

theorem Resource.text_eq (r : Resource) : r.text N = key r.family (r.fields N) := by
  cases r with
  | orch k => exact orchKeyText_eq k
  | syncd k => exact syncdKeyText_eq k
  | _ => rfl

/-- The hashes that both services have a name for: a batch that is prepared for a command, and the
alarm of a time-out. -/
inductive Shared : Resource → Resource → Prop
  | batch (source : CommandId) : Shared (.orch (.configBatch source)) (.syncd (.configBatch source))
  | alarm (connection : String) : Shared (.orch (.activeAlarm connection))
      (.syncd (.activeAlarm (.applyTimeout connection)))

theorem Resource.bar_fields (hN : Proper N) {r : Resource} (h : ∀ c ∈ r.connections, Field c) :
    ∀ field ∈ r.fields N, Free '|' field := by
  have hdevice := (field_of_safe hN.device).bar
  cases r with
  | orch k => exact bar_orchFields hN h
  | syncd k => exact bar_syncdFields hN h
  | faultResult e => simpa [Resource.fields] using (hN.event e).bar
  | revision => simpa [Resource.fields] using hdevice
  | counters => simpa [Resource.fields] using hdevice
  | config connection => simpa [Resource.fields] using ⟨hdevice, (h connection List.mem_cons_self).bar⟩
  | appl connection => simpa [Resource.fields] using ⟨hdevice, (h connection List.mem_cons_self).bar⟩
  | deviceCopy connection =>
      simpa [Resource.fields] using ⟨hdevice, (h connection List.mem_cons_self).bar⟩
  | state connection => simpa [Resource.fields] using ⟨hdevice, (h connection List.mem_cons_self).bar⟩

theorem shared_of_fields (hN : Proper N) {k : OrchKey} {k' : SyncdKey}
    (hfamily : orchFamily k = syncdFamily k') (hfields : orchFields N k = syncdFields N k') :
    Shared (.orch k) (.syncd k') := by
  cases k <;> cases k' <;> first | contradiction | skip
  all_goals try (simp only [syncdFamily] at hfamily; split at hfamily <;> contradiction)
  all_goals simp only [orchFields, syncdFields, List.cons.injEq, and_true, true_and] at hfields
  case configBatch.configBatch =>
    rw [sourceText_inj hN hfields]
    exact .batch _
  case activeAlarm.activeAlarm connection alarm =>
    have halarm : alarm = .applyTimeout connection := alarmText_inj hfields.symm
    rw [halarm]
    exact .alarm connection

/-- The families of the hashes that belong to neither service alone. -/
def commonFamilies : List Family := [.connectionConfig, .configRevision, .connectionApp,
  .connectionDevice, .connectionState, .deviceCounters, .faultResult]

theorem orchFamily_notMem (k : OrchKey) : orchFamily k ∉ commonFamilies := by
  cases k <;> simp [orchFamily, commonFamilies]

theorem syncdFamily_notMem (k : SyncdKey) : syncdFamily k ∉ commonFamilies := by
  cases k with
  | alarmCounterPublication activation clear =>
      cases activation <;> simp [syncdFamily, commonFamilies]
  | portState direction port => cases direction <;> simp [syncdFamily, commonFamilies]
  | _ => simp [syncdFamily, commonFamilies]

theorem common_apart (hN : Proper N) {r r' : Resource} (hr : r.family ∈ commonFamilies)
    (hr' : r'.family ∈ commonFamilies) (hfamily : r.family = r'.family)
    (hfields : r.fields N = r'.fields N) : r = r' := by
  cases r with
  | orch k => exact absurd hr (orchFamily_notMem k)
  | syncd k => exact absurd hr (syncdFamily_notMem k)
  | faultResult e =>
      cases r' with
      | orch k => exact absurd hr' (orchFamily_notMem k)
      | syncd k => exact absurd hr' (syncdFamily_notMem k)
      | faultResult e' => rw [hN.injective e e' (by simpa [Resource.fields] using hfields)]
      | _ => contradiction
  | _ =>
      cases r' with
      | orch k => exact absurd hr' (orchFamily_notMem k)
      | syncd k => exact absurd hr' (syncdFamily_notMem k)
      | _ =>
          first
          | contradiction
          | rfl
          | simp only [Resource.fields, List.cons.injEq, and_true, true_and] at hfields
            rw [hfields]

theorem shared_or_eq (hN : Proper N) {r r' : Resource} (h : ∀ c ∈ r.connections, Field c)
    (h' : ∀ c ∈ r'.connections, Field c) (hfamily : r.family = r'.family)
    (hfields : r.fields N = r'.fields N) : r = r' ∨ Shared r r' ∨ Shared r' r := by
  by_cases hcommon : r.family ∈ commonFamilies
  · exact .inl (common_apart hN hcommon (hfamily ▸ hcommon) hfamily hfields)
  · have hcommon' : r'.family ∉ commonFamilies := hfamily ▸ hcommon
    cases r with
    | orch k =>
        cases r' with
        | orch k' => exact .inl (congrArg Resource.orch (orch_apart hN h h' hfamily hfields))
        | syncd k' => exact .inr (.inl (shared_of_fields hN hfamily hfields))
        | _ => simp [Resource.family, commonFamilies] at hcommon'
    | syncd k =>
        cases r' with
        | orch k' => exact .inr (.inr (shared_of_fields hN hfamily.symm hfields.symm))
        | syncd k' => exact .inl (congrArg Resource.syncd (syncd_apart hN h h' hfamily hfields))
        | _ => simp [Resource.family, commonFamilies] at hcommon'
    | _ => simp [Resource.family, commonFamilies] at hcommon

theorem Shared.text_eq {r r' : Resource} (h : Shared r r') : r.text N = r'.text N := by
  cases h <;> rfl

/-- Two hashes of the model have the same key in Redis just when they are the same hash, or the two
names that the two services have for one. -/
theorem text_eq_iff (hN : Proper N) {r r' : Resource} (h : ∀ c ∈ r.connections, Field c)
    (h' : ∀ c ∈ r'.connections, Field c) :
    r.text N = r'.text N ↔ r = r' ∨ Shared r r' ∨ Shared r' r := by
  constructor
  · intro htext
    rw [r.text_eq, r'.text_eq] at htext
    obtain ⟨hfamily, hfields⟩ :=
      key_inj (Resource.bar_fields hN h) (Resource.bar_fields hN h') htext
    exact shared_or_eq hN h h' hfamily hfields
  · rintro (rfl | hshared | hshared)
    · rfl
    · exact hshared.text_eq
    · exact hshared.text_eq.symm

/-- Events by their numbers. -/
def numbered : Naming := ⟨fun e => "e" ++ Nat.repr e, "ocs0"⟩

theorem numbered_proper : Proper numbered where
  injective a b h := repr_inj ((String.append_right_inj "e").mp h)
  event e := ⟨free_append.mpr ⟨by decide, (field_repr e).colon⟩,
    free_append.mpr ⟨by decide, (field_repr e).bar⟩⟩
  fresh e h := by
    have hhead : ∀ word ∈ words, word.toList.head? ≠ some 'e' := by decide
    exact hhead _ h (by simp [numbered])
  device := by decide

theorem text_eq_iff_numbered :
    (Resource.state "a").text numbered = "OCS_CONNECTION_STATE|ocs0|a" ∧
      ((Resource.state "a").text numbered = (Resource.syncd (.connectionVersion "a")).text numbered ↔
        Resource.state "a" = .syncd (.connectionVersion "a") ∨
          Shared (.state "a") (.syncd (.connectionVersion "a")) ∨
          Shared (.syncd (.connectionVersion "a")) (.state "a")) := by
  refine ⟨by decide, text_eq_iff numbered_proper ?_ ?_⟩
  · rintro c (_ | ⟨_, ⟨⟩⟩)
    decide
  · rintro c (_ | ⟨_, ⟨⟩⟩)
    decide

end

end MiniOcs.Redis
