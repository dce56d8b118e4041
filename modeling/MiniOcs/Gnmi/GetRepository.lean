import MiniOcs.Gnmi.PathParser
import MiniOcs.Gnmi.Log
import MiniOcs.Gnmi.Subscribe

/-!
# Reading a connection back

CONFIG_DB holds the fields of a connection as texts, and a read gives them their JSON types
again: by the name of the field, and where the name says nothing by the text.
-/
namespace MiniOcs.Gnmi
open Std MiniOcs.Redis
open PathParser (PathKind)

/-! ## Connection hashes -/

/-- `redis_fields`. -/
def redisEntries (device : String) (config : ConnectionConfig) : List (String × String) := [
  ("device", device),
  ("id", config.connectionId),
  ("input_port", Nat.repr config.inputPort),
  ("output_port", Nat.repr config.outputPort),
  ("admin_status", config.adminStatus),
  ("desired_version", Nat.repr config.desiredVersion),
  ("created_at_ns", Nat.repr config.createdAtNs),
  ("updated_at_ns", Nat.repr config.updatedAtNs)]

def redisFields (device : String) (config : ConnectionConfig) : Fields :=
  ExtTreeMap.ofList (redisEntries device config)

/-- The hash of a connection, empty when there is none. -/
def ConfigDb.hgetall (db : ConfigDb) (device id : String) : Fields :=
  match db.connections[id]? with
  | some config => redisFields device config
  | none => ∅

/-- What `from_redis` makes of a hash, whose numbers may be any. -/
structure ConnectionSnapshot where
  connectionId : String
  inputPort : Int
  outputPort : Int
  adminStatus : String
  desiredVersion : Int
  createdAtNs : Int
  updatedAtNs : Int

def ConnectionConfig.snapshot (config : ConnectionConfig) : ConnectionSnapshot where
  connectionId := config.connectionId
  inputPort := config.inputPort
  outputPort := config.outputPort
  adminStatus := config.adminStatus
  desiredVersion := config.desiredVersion
  createdAtNs := config.createdAtNs
  updatedAtNs := config.updatedAtNs

def fromRedis (connectionId : String) (fields : Fields) : Option ConnectionSnapshot := do
  let inputPort ← fields["input_port"]?.bind pyInt
  let outputPort ← fields["output_port"]?.bind pyInt
  let desiredVersion ← pyInt (fields["desired_version"]?.getD "0")
  let createdAtNs ← pyInt (fields["created_at_ns"]?.getD "0")
  let updatedAtNs ← pyInt (fields["updated_at_ns"]?.getD "0")
  return {
    connectionId, inputPort, outputPort, desiredVersion, createdAtNs, updatedAtNs
    adminStatus := fields["admin_status"]?.getD adminEnabled }

/-! ## Reading a connection -/

inductive GetError where
  | notFound (text : String)
  | runtime
  deriving DecidableEq, Repr

inductive RequestType where
  | all
  | config
  | state
  | operational
  deriving DecidableEq, Repr

def includeConfig (requestType : RequestType) : Bool :=
  requestType = .all || requestType = .config

def includeState (requestType : RequestType) : Bool :=
  requestType = .all || requestType = .state || requestType = .operational

/-- The object of one hash, or of a connection with the parts that were asked for. -/
inductive ConnectionPayload where
  | hash (fields : Item)
  | parts (id : String) (config state : Option Item)

def nativeHash (fields : Fields) : Except GetError Item :=
  match nativeFields fields with
  | some item => .ok item
  | none => .error .runtime

/-- The part of a connection, when it was asked for and there is one. -/
def nativePart (included : Bool) (fields : Fields) : Except GetError (Option Item) :=
  if included && !fields.isEmpty then (nativeHash fields).map some else .ok none

/-- `_connection` on the two hashes it reads. -/
def getConnection (device connectionId : String) (kind : PathKind) (requestType : RequestType)
    (config state : Fields) : Except GetError ConnectionPayload :=
  let name := quoted device ++ "/" ++ quoted connectionId
  if kind = .connectionConfig then
    if config.isEmpty then .error (.notFound ("connection config " ++ name))
    else (nativeHash config).map .hash
  else if kind = .connectionState then
    if state.isEmpty then .error (.notFound ("connection state " ++ name))
    else (nativeHash state).map .hash
  else if (includeConfig requestType && !config.isEmpty) ||
      (includeState requestType && !state.isEmpty) then
    match nativePart (includeConfig requestType) config,
        nativePart (includeState requestType) state with
    | .ok config, .ok state => .ok (.parts connectionId config state)
    | _, _ => .error .runtime
  else .error (.notFound ("connection " ++ name))

/-! ## Numbers and texts -/

theorem dropWhile_digits {digits : List Char} (h : ∀ c ∈ digits, c.isDigit = true) :
    digits.dropWhile isSpace = digits := by
  cases digits with
  | nil => rfl
  | cons c rest =>
      have hc : isSpace c = false := by
        have hdigit := h c (by simp)
        by_contra hspace
        simp only [isSpace, Bool.not_eq_false, List.mem_cons, List.not_mem_nil, or_false,
          decide_eq_true_eq] at hspace
        rcases hspace with rfl | rfl | rfl | rfl | rfl | rfl <;> revert hdigit <;> decide
      rw [List.dropWhile_cons_of_neg (by simp [hc])]

theorem underscored_digits {digits : List Char} (hne : digits ≠ [])
    (h : ∀ c ∈ digits, c.isDigit = true) :
    underscored digits = some (Nat.ofDigitChars 10 digits 0 : Nat) := by
  have hplain : ∀ c ∈ digits, c ≠ '_' := by
    rintro c hc rfl
    exact absurd (h _ hc) (by decide)
  have hgroups : digits.splitOn '_' = [digits] :=
    List.splitOnP_eq_singleton fun c hc => beq_eq_false_iff_ne.mpr (hplain c hc)
  have hfilter : digits.filter (· ≠ '_') = digits := by simpa [List.filter_eq_self] using hplain
  unfold underscored decimal
  rw [hgroups, hfilter, if_pos (by simpa using hne), if_pos]
  · rfl
  · simp only [Bool.and_eq_true, Bool.not_eq_true', List.isEmpty_eq_false_iff]
    exact ⟨hne, List.all_eq_true.mpr h⟩

@[simp] theorem pyInt_repr (n : Nat) : pyInt (Nat.repr n) = some (n : Int) := by
  have hdigits : ∀ c ∈ Nat.toDigits 10 n, c.isDigit = true :=
    fun _ hc => Nat.isDigit_of_mem_toDigits (by decide) (by decide) hc
  have hlist : (Nat.repr n).toList = Nat.toDigits 10 n := by simp [Nat.repr]
  have hread := underscored_digits (by simp) hdigits
  rw [Nat.ofDigitChars_ten_toDigits] at hread
  unfold pyInt
  rw [hlist, dropWhile_digits hdigits,
    dropWhile_digits fun c hc => hdigits c (List.mem_reverse.mp hc), List.reverse_reverse]
  split
  · rename_i rest heq
    exact absurd (hdigits '-' (by rw [heq]; simp)) (by decide)
  · rename_i rest heq
    exact absurd (hdigits '+' (by rw [heq]; simp)) (by decide)
  · exact hread

theorem nativeValue_nat {name : String} (h : name ∈ integerFields) (n : Nat) :
    nativeValue name (Nat.repr n) = some (.int n) := by
  unfold nativeValue
  rw [if_pos (.inl h), pyInt_repr]
  rfl

/-- The value of a text that no name gives a type. -/
def textValue (text : String) : Value :=
  if text = "true" ∨ text = "false" then .bool (text = "true") else .text text

theorem nativeValue_text {name text : String}
    (h : ¬(name ∈ integerFields ∨ "_total".toList <:+ name.toList)) :
    nativeValue name text = some (textValue text) := by
  unfold nativeValue textValue
  rw [if_neg h]
  split_ifs <;> rfl

/-- A text is read as the string it is, unless it looks like a boolean. -/
theorem textValue_eq_text {text other : String} :
    textValue text = .text other ↔ other = text ∧ text ≠ "true" ∧ text ≠ "false" := by
  unfold textValue
  split_ifs with h
  · simp only [false_iff]
    tauto
  · rw [not_or] at h
    simp [h, eq_comm]

/-! ## The fields of an object -/

theorem foldlM_addField {fields : List (String × String)} {value : String × String → Value}
    (hvalue : ∀ field ∈ fields, nativeValue field.1 field.2 = some (value field))
    (hnames : (fields.map fun field => jsonName field.1).Nodup) (item : Item) :
    ∃ item', fields.foldlM addField item = some item' ∧
      (∀ field ∈ fields, item'[jsonName field.1]? = some (value field)) ∧
      ∀ name, name ∉ fields.map (fun field => jsonName field.1) → item'[name]? = item[name]? := by
  induction fields generalizing item with
  | nil => exact ⟨item, rfl, by simp, fun _ _ => rfl⟩
  | cons field fields ih =>
      rw [List.map_cons, List.nodup_cons] at hnames
      have hadd : addField item field = some (item.insert (jsonName field.1) (value field)) := by
        rw [addField, hvalue field (by simp), Option.map_some]
      obtain ⟨item', hitem', hread, hkeep⟩ := ih (fun other h => hvalue other (by simp [h]))
        hnames.2 (item.insert (jsonName field.1) (value field))
      refine ⟨item', by rw [List.foldlM_cons, hadd]; exact hitem', ?_, ?_⟩
      · intro other hother
        rcases List.mem_cons.mp hother with rfl | hrest
        · rw [hkeep _ hnames.1, ExtTreeMap.getElem?_insert_self]
        · exact hread other hrest
      · intro name hname
        simp only [List.map_cons, List.mem_cons, not_or] at hname
        rw [hkeep name hname.2, ExtTreeMap.getElem?_insert, if_neg]
        rw [Std.compare_eq_iff_eq]
        exact fun heq => hname.1 heq.symm

/-- Fields that all have a value, under names that stay apart, are all found again. -/
theorem nativeFields_lookup (fields : Fields) (value : String × String → Value)
    (hvalue : ∀ field ∈ fields.toList, nativeValue field.1 field.2 = some (value field))
    (hnames : ∀ field ∈ fields.toList, ∀ other ∈ fields.toList,
      jsonName field.1 = jsonName other.1 → field.1 = other.1) :
    ∃ item, nativeFields fields = some item ∧
      ∀ field ∈ fields.toList, item[jsonName field.1]? = some (value field) := by
  have hnodup : (fields.toList.map fun field => jsonName field.1).Nodup := by
    rw [List.Nodup, List.pairwise_map]
    refine ExtTreeMap.distinct_keys_toList.imp_of_mem fun {a b} ha hb hne heq => hne ?_
    rw [Std.compare_eq_iff_eq]
    exact hnames a ha b hb heq
  obtain ⟨item, hitem, hread, -⟩ := foldlM_addField hvalue hnodup ∅
  exact ⟨item, hitem, hread⟩

theorem mem_toList_redisFields {device : String} {config : ConnectionConfig}
    {field : String × String} :
    field ∈ (redisFields device config).toList ↔ field ∈ redisEntries device config := by
  have hdistinct : (redisEntries device config).Pairwise fun a b => ¬compare a.1 b.1 = .eq := by
    simp [redisEntries]
  have hget : ∀ entry ∈ redisEntries device config,
      (redisFields device config)[entry.1]? = some entry.2 := fun entry hentry =>
    ExtTreeMap.getElem?_ofList_of_mem compare_self hdistinct hentry
  rw [ExtTreeMap.mem_toList_iff_getElem?_eq_some]
  constructor
  · intro h
    have hmem : field.1 ∈ redisFields device config := by
      rw [← ExtTreeMap.isSome_getElem?_iff_mem, h]
      rfl
    rw [redisFields, ExtTreeMap.mem_ofList, List.contains_iff_mem, List.mem_map] at hmem
    obtain ⟨entry, hentry, hname⟩ := hmem
    rw [← hname, hget entry hentry, Option.some.injEq] at h
    have hfield : entry = field := Prod.ext hname h
    exact hfield ▸ hentry
  · exact hget field

theorem getElem?_redisFields {device : String} {config : ConnectionConfig}
    {name text : String} (h : (name, text) ∈ redisEntries device config) :
    (redisFields device config)[name]? = some text :=
  ExtTreeMap.mem_toList_iff_getElem?_eq_some.mp (mem_toList_redisFields.mpr h)

/-- A commit reads back every connection that a commit wrote. -/
theorem fromRedis_redisFields (device : String) (config : ConnectionConfig) :
    fromRedis config.connectionId (redisFields device config) = some config.snapshot := by
  have hget : ∀ name text, (name, text) ∈ redisEntries device config →
      (redisFields device config)[name]? = some text := fun _ _ => getElem?_redisFields
  have hinput := hget "input_port" (Nat.repr config.inputPort) (by simp [redisEntries])
  have houtput := hget "output_port" (Nat.repr config.outputPort) (by simp [redisEntries])
  have hadmin := hget "admin_status" config.adminStatus (by simp [redisEntries])
  have hversion := hget "desired_version" (Nat.repr config.desiredVersion) (by simp [redisEntries])
  have hcreated := hget "created_at_ns" (Nat.repr config.createdAtNs) (by simp [redisEntries])
  have hupdated := hget "updated_at_ns" (Nat.repr config.updatedAtNs) (by simp [redisEntries])
  simp [fromRedis, hinput, houtput, hadmin, hversion, hcreated, hupdated,
    ConnectionConfig.snapshot]

/-- The value that a field of a connection is read as. -/
def connectionValue (config : ConnectionConfig) (field : String × String) : Value :=
  if field.1 = "input_port" then .int config.inputPort
  else if field.1 = "output_port" then .int config.outputPort
  else if field.1 = "desired_version" then .int config.desiredVersion
  else if field.1 = "created_at_ns" then .int config.createdAtNs
  else if field.1 = "updated_at_ns" then .int config.updatedAtNs
  else textValue field.2

theorem nativeValue_redisEntries {device : String} {config : ConnectionConfig} :
    ∀ field ∈ redisEntries device config,
      nativeValue field.1 field.2 = some (connectionValue config field) := by
  simp only [redisEntries, List.forall_mem_cons, List.not_mem_nil, false_implies, implies_true,
    and_true]
  exact ⟨nativeValue_text (by decide +kernel), nativeValue_text (by decide +kernel),
    nativeValue_nat (by decide) _, nativeValue_nat (by decide) _,
    nativeValue_text (by decide +kernel), nativeValue_nat (by decide) _,
    nativeValue_nat (by decide) _, nativeValue_nat (by decide) _⟩

/-- The object that the hash of a connection is read as. -/
theorem nativeFields_redisFields (device : String) (config : ConnectionConfig) :
    ∃ item, nativeFields (redisFields device config) = some item ∧
      item["device"]? = some (textValue device) ∧
      item["id"]? = some (textValue config.connectionId) ∧
      item["input-port"]? = some (.int config.inputPort) ∧
      item["output-port"]? = some (.int config.outputPort) ∧
      item["desired-version"]? = some (.int config.desiredVersion) := by
  have hnodup : ((redisEntries device config).map fun field => jsonName field.1).Nodup := by
    simp only [redisEntries, List.map_cons, List.map_nil]
    decide
  have hjson : jsonName "device" = "device" ∧ jsonName "id" = "id" ∧
      jsonName "input_port" = "input-port" ∧ jsonName "output_port" = "output-port" ∧
      jsonName "desired_version" = "desired-version" := by decide
  obtain ⟨item, hitem, hread⟩ := nativeFields_lookup (redisFields device config)
    (connectionValue config)
    (fun field h => nativeValue_redisEntries field (mem_toList_redisFields.mp h))
    (fun field h other h' heq => congrArg Prod.fst (List.inj_on_of_nodup_map hnodup
      (mem_toList_redisFields.mp h) (mem_toList_redisFields.mp h') heq))
  have hfield : ∀ name text, (name, text) ∈ redisEntries device config →
      item[jsonName name]? = some (connectionValue config (name, text)) :=
    fun name text h => hread (name, text) (mem_toList_redisFields.mpr h)
  have hdevice := hfield "device" device (by simp [redisEntries])
  have hid := hfield "id" config.connectionId (by simp [redisEntries])
  have hinput := hfield "input_port" (Nat.repr config.inputPort) (by simp [redisEntries])
  have houtput := hfield "output_port" (Nat.repr config.outputPort) (by simp [redisEntries])
  have hversion := hfield "desired_version" (Nat.repr config.desiredVersion)
    (by simp [redisEntries])
  simp only [hjson, connectionValue] at hdevice hid hinput houtput hversion
  exact ⟨item, hitem, hdevice, hid, hinput, houtput, hversion⟩

end MiniOcs.Gnmi
