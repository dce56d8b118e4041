import MiniOcs.Gnmi.Linearizable
import MiniOcs.Gnmi.PathGrammar
import MiniOcs.Gnmi.CandidateSemantics

/-!
# Set requests

`parse_set_request`: the deletes, then the replaces, then the updates of a request as the
operations of a plan on one device. The JSON reader of the standard library is a parameter; its
objects keep their members as the text has them.
-/
namespace MiniOcs.Gnmi
open KeyedFold
open PathParser (Path parsePath parsePath_eq_ok)

/-! ## Values -/

inductive TypedValue where
  | jsonIetf (payload : List UInt8)
  | other

structure Update where
  path : Path
  val : TypedValue

structure SetRequest where
  pre : Path := {}
  delete : List Path := []
  replace : List Update := []
  update : List Update := []
  unionReplace : List Update := []

def maxJsonIetfBytes : Nat := 65536

/-- `_unique_object`: the first key of a list that an earlier member has. -/
def repeated : List (String × Json) → List String → Option String
  | [], _ => none
  | (key, _) :: rest, seen => if key ∈ seen then some key else repeated rest (key :: seen)

mutual

/-- The hook at every object of a document, inner objects first. -/
def uniqueObjects : Json → Except SetError Unit
  | .arr items => uniqueItems items
  | .obj members =>
      match uniqueMembers members with
      | .error e => .error e
      | .ok () =>
          match repeated members [] with
          | some key =>
              .error (.invalidArgument ("JSON_IETF payload repeats field " ++ quoted key))
          | none => .ok ()
  | _ => .ok ()

def uniqueItems : List Json → Except SetError Unit
  | [] => .ok ()
  | item :: rest =>
      match uniqueObjects item with
      | .error e => .error e
      | .ok () => uniqueItems rest

def uniqueMembers : List (String × Json) → Except SetError Unit
  | [] => .ok ()
  | (_, value) :: rest =>
      match uniqueObjects value with
      | .error e => .error e
      | .ok () => uniqueMembers rest

end

/-- One port of a connection payload. -/
def decodePort (jsonName : String) (decoded : List (String × Json)) : Except SetError (Option Nat) :=
  match decoded.lookup jsonName with
  | none => .ok none
  | some (.int port) =>
      if port ≤ 0 ∨ 2147483647 < port then
        .error (.invalidArgument (jsonName ++ " is outside the supported range"))
      else .ok (some port.toNat)
  | some _ => .error (.invalidArgument (jsonName ++ " must be an integer"))

def decodeAdminStatus (decoded : List (String × Json)) : Except SetError (Option String) :=
  match decoded.lookup "admin-status" with
  | none => .ok none
  | some (.str status) =>
      if status ≠ adminEnabled then
        .error (.invalidArgument
          "admin-status must be ENABLED; delete the connection to disable it")
      else .ok (some status)
  | some _ => .error (.invalidArgument "admin-status must be a string")

def allowedFields : List String := ["input-port", "output-port", "admin-status"]

def decodeFields (decoded : List (String × Json)) : Except SetError OperationValues :=
  let unexpected := (decoded.map Prod.fst).filter (· ∉ allowedFields)
  if unexpected ≠ [] then
    .error (.invalidArgument ("unsupported connection fields: " ++
      ",".intercalate (unexpected.mergeSort fun a b => decide (a ≤ b))))
  else if decoded = [] then
    .error (.invalidArgument "connection config update must not be empty")
  else do
    let inputPort ← decodePort "input-port" decoded
    let outputPort ← decodePort "output-port" decoded
    let adminStatus ← decodeAdminStatus decoded
    return { inputPort, outputPort, adminStatus }

/-! ## Requests -/

section
-- `json.loads` without a hook, where `none` is a `UnicodeDecodeError` or a `JSONDecodeError`
variable (loads : List UInt8 → Option Json)

def decodeJsonIetf : TypedValue → Except SetError OperationValues
  | .other => .error (.invalidArgument "Set values must use TypedValue.json_ietf_val")
  | .jsonIetf payload =>
      if maxJsonIetfBytes < payload.length then
        .error (.invalidArgument "JSON_IETF payload exceeds 65536 bytes")
      else match loads payload with
        | none => .error (.invalidArgument "Set value is not valid JSON_IETF")
        | some document => do
            uniqueObjects document
            match document with
            | .obj decoded => decodeFields decoded
            | _ => .error (.invalidArgument "connection config must be a JSON object")

/-- The device and the connection of an operation. -/
structure ConnectionTarget where
  device : String
  connectionId : SafeId

/-- `_connection_path`. A path of these kinds has a device and a connection id. -/
def connectionPath (pre path : Path) (allowConnectionContainer : Bool) :
    Except SetError ConnectionTarget :=
  match parsePath (some pre) path with
  | .error e => .error (.invalidArgument ("invalid path: " ++ e))
  | .ok native =>
      if native.kind = .connectionConfig ∨
          (allowConnectionContainer = true ∧ native.kind = .connection) then
        match native.device, native.connectionId with
        | some device, some id =>
            if hsafe : isSafeId id = true then .ok ⟨device, ⟨id, hsafe⟩⟩
            else .error (.unexpected "unsafe connection id")
        | _, _ => .error (.unexpected "connection path without a connection")
      else .error (.invalidArgument "Set only supports keyed connection config paths")

/-- An operation and its device. -/
abbrev Targeted := String × SetOperation

def parseDelete (pre : Path) (path : Path) : Except SetError Targeted := do
  let target ← connectionPath pre path true
  return (target.device, { kind := .delete, connectionId := target.connectionId })

def parseReplace (pre : Path) (update : Update) : Except SetError Targeted := do
  let target ← connectionPath pre update.path false
  let values ← decodeJsonIetf loads update.val
  if values.inputPort = none ∨ values.outputPort = none then
    .error (.invalidArgument "replace requires input-port and output-port")
  else return (target.device, { kind := .replace, connectionId := target.connectionId, values })

def parseUpdate (pre : Path) (update : Update) : Except SetError Targeted := do
  let target ← connectionPath pre update.path false
  let values ← decodeJsonIetf loads update.val
  return (target.device, { kind := .update, connectionId := target.connectionId, values })

def parseSetRequest (request : SetRequest) (requestId : Nat) : Except SetError SetPlan :=
  if request.unionReplace ≠ [] then .error (.invalidArgument "union_replace is not supported")
  else if request.delete = [] ∧ request.replace = [] ∧ request.update = [] then
    .error (.invalidArgument "SetRequest requires at least one operation")
  else do
    let deletes ← request.delete.mapM (parseDelete request.pre)
    let replaces ← request.replace.mapM (parseReplace loads request.pre)
    let updates ← request.update.mapM (parseUpdate loads request.pre)
    let operations := deletes ++ replaces ++ updates
    match (operations.map Prod.fst).dedup with
    | [device] => return { device, requestId, operations := operations.map Prod.snd }
    | _ => .error (.invalidArgument "one SetRequest must target exactly one device")

end

/-! ## What a plan contains -/

open Json (bind_eq_ok forall₂_of_mapM)

variable {loads : List UInt8 → Option Json}

theorem parseDelete_kind {pre path : Path} {targeted : Targeted}
    (h : parseDelete pre path = .ok targeted) : targeted.2.kind = .delete := by
  obtain ⟨target, -, hrest⟩ := bind_eq_ok.mp h
  cases hrest
  rfl

theorem parseReplace_kind {pre : Path} {update : Update} {targeted : Targeted}
    (h : parseReplace loads pre update = .ok targeted) : targeted.2.kind = .replace ∧
      targeted.2.values.inputPort.isSome ∧ targeted.2.values.outputPort.isSome := by
  obtain ⟨target, -, hrest⟩ := bind_eq_ok.mp h
  obtain ⟨values, -, hvalues⟩ := bind_eq_ok.mp hrest
  split_ifs at hvalues with hports
  cases hvalues
  rw [not_or] at hports
  exact ⟨rfl, Option.isSome_iff_ne_none.mpr hports.1, Option.isSome_iff_ne_none.mpr hports.2⟩

theorem parseUpdate_kind {pre : Path} {update : Update} {targeted : Targeted}
    (h : parseUpdate loads pre update = .ok targeted) : targeted.2.kind = .update := by
  obtain ⟨target, -, hrest⟩ := bind_eq_ok.mp h
  obtain ⟨values, -, hvalues⟩ := bind_eq_ok.mp hrest
  cases hvalues
  rfl

/-- Every element that `mapM` read was read from some element of its list. -/
theorem mem_of_mapM {ε α β : Type} {read : α → Except ε β} {xs : List α} {ys : List β}
    (h : xs.mapM read = .ok ys) {y : β} (hy : y ∈ ys) : ∃ x ∈ xs, read x = .ok y := by
  have hall := forall₂_of_mapM h
  clear h
  induction hall with
  | nil => cases hy
  | @cons x z xs zs hread _ ih =>
      rcases List.mem_cons.mp hy with rfl | hrest
      · exact ⟨x, List.mem_cons_self, hread⟩
      · obtain ⟨x', hx', hread'⟩ := ih hrest
        exact ⟨x', List.mem_cons_of_mem _ hx', hread'⟩

/-- Deletes, then replaces that name both ports, then updates. -/
def Ordered (operations : List SetOperation) : Prop :=
  ∃ deletes replaces updates, operations = deletes ++ replaces ++ updates ∧
    (∀ operation ∈ deletes, operation.kind = .delete) ∧
    (∀ operation ∈ replaces, operation.kind = .replace ∧
      operation.values.inputPort.isSome ∧ operation.values.outputPort.isSome) ∧
    ∀ operation ∈ updates, operation.kind = .update

theorem parseSetRequest_ordered {request : SetRequest} {requestId : Nat} {plan : SetPlan}
    (h : parseSetRequest loads request requestId = .ok plan) : Ordered plan.operations := by
  unfold parseSetRequest at h
  split_ifs at h
  obtain ⟨deletes, hdeletes, hrest⟩ := bind_eq_ok.mp h
  obtain ⟨replaces, hreplaces, hrest⟩ := bind_eq_ok.mp hrest
  obtain ⟨updates, hupdates, hrest⟩ := bind_eq_ok.mp hrest
  have hplan : plan.operations = (deletes ++ replaces ++ updates).map Prod.snd := by
    dsimp only at hrest
    split at hrest
    · cases hrest
      rfl
    · cases hrest
  refine ⟨deletes.map Prod.snd, replaces.map Prod.snd, updates.map Prod.snd,
    by rw [hplan, List.map_append, List.map_append], ?_, ?_, ?_⟩
  · intro operation hmem
    obtain ⟨targeted, htargeted, rfl⟩ := List.mem_map.mp hmem
    obtain ⟨path, -, hread⟩ := mem_of_mapM hdeletes htargeted
    exact parseDelete_kind hread
  · intro operation hmem
    obtain ⟨targeted, htargeted, rfl⟩ := List.mem_map.mp hmem
    obtain ⟨update, -, hread⟩ := mem_of_mapM hreplaces htargeted
    exact parseReplace_kind hread
  · intro operation hmem
    obtain ⟨targeted, htargeted, rfl⟩ := List.mem_map.mp hmem
    obtain ⟨update, -, hread⟩ := mem_of_mapM hupdates htargeted
    exact parseUpdate_kind hread

theorem Ordered.complete {operations : List SetOperation} (h : Ordered operations) :
    CompleteReplacements operations := by
  obtain ⟨deletes, replaces, updates, rfl, hdeletes, hreplaces, hupdates⟩ := h
  intro operation hmem hkind
  rcases List.mem_append.mp hmem with hmem | hmem
  · rcases List.mem_append.mp hmem with hmem | hmem
    · exact nomatch hkind.symm.trans (hdeletes operation hmem)
    · exact (hreplaces operation hmem).2
  · exact nomatch hkind.symm.trans (hupdates operation hmem)

/-! ## Reordered requests -/

def SameKind (a b : SetOperation) : Prop := a.kind = b.kind

section

variable {input : CandidateInput} {plan : SetPlan} {operations : List SetOperation}
  (h : Reordered operationId SameKind plan.operations operations)

include h

theorem Reordered.drafts_eq : drafts input { plan with operations } = drafts input plan :=
  (h.run_eq _ _).symm

theorem Reordered.touched_iff (id : String) :
    Touched { plan with operations } id ↔ Touched plan id := by
  simp only [Touched, h.perm.mem_iff]

theorem Reordered.complete (hcomplete : CompleteReplacements plan.operations) :
    CompleteReplacements operations :=
  fun operation hmem => hcomplete operation (h.perm.mem_iff.mpr hmem)

end

/-- A plan is accepted exactly when its final map is valid; the changes are then the differences
to the current map; and neither depends on the order of operations of one kind on different ids. -/
theorem buildCandidate_semantics {request : SetRequest} {requestId : Nat} {plan : SetPlan}
    {input : CandidateInput} (hparse : parseSetRequest loads request requestId = .ok plan)
    (hrevision : 0 < input.revision)
    (hnamed : ∀ id, (input.current.get? id).isSome → id ≠ "") :
    Ordered plan.operations ∧
    ((∃ candidate, buildCandidate input plan = .ok candidate) ↔
      ValidDrafts input.inputPortCount input.outputPortCount (drafts input plan)) ∧
    (∀ candidate, buildCandidate input plan = .ok candidate → Describes input plan candidate) ∧
    ∀ operations, Reordered operationId SameKind plan.operations operations →
      ((∃ candidate, buildCandidate input { plan with operations } = .ok candidate) ↔
        ∃ candidate, buildCandidate input plan = .ok candidate) ∧
      ∀ candidate candidate', buildCandidate input plan = .ok candidate →
        buildCandidate input { plan with operations } = .ok candidate' →
        candidate.changes.Perm candidate'.changes := by
  have hordered := parseSetRequest_ordered hparse
  have hcomplete := hordered.complete
  have hne := Nat.pos_iff_ne_zero.mp hrevision
  refine ⟨hordered, buildCandidate_accepts hne hnamed hcomplete,
    fun candidate h => buildCandidate_describes hne hnamed h, fun operations hreordered => ⟨?_, ?_⟩⟩
  · rw [buildCandidate_accepts hne hnamed hcomplete,
      buildCandidate_accepts hne hnamed (Reordered.complete hreordered hcomplete),
      Reordered.drafts_eq hreordered]
  · intro candidate candidate' h h'
    have hdescribes := buildCandidate_describes hne hnamed h
    have hdescribes' := buildCandidate_describes hne hnamed h'
    rw [List.perm_ext_iff_of_nodup hdescribes.nodup.of_map hdescribes'.nodup.of_map]
    intro change
    rw [hdescribes.changes, hdescribes'.changes]
    simp only [Reordered.touched_iff hreordered, Differs, changeFor,
      Reordered.drafts_eq hreordered]

/-! ## A request -/

/-- The bytes of one payload. -/
def smallPayload : List UInt8 :=
  "\x7b\x22input-port\x22:3,\x22output-port\x22:4\x7d".toUTF8.toList

/-- What the JSON reader makes of it. -/
def smallLoads (payload : List UInt8) : Option Json :=
  if payload = smallPayload then some (.obj [("input-port", .int 3), ("output-port", .int 4)])
  else none

def configPath (id : String) : Path where
  elem := [PathParser.plain "ocs", PathParser.plain "devices",
    PathParser.keyed "device" "name" "ocs1", PathParser.plain "connections",
    PathParser.keyed "connection" "id" id, PathParser.plain "config"]

/-- Deletes one connection and gives its ports to another. -/
def moveRequest : SetRequest where
  delete := [configPath "a"]
  replace := [⟨configPath "b", .jsonIetf smallPayload⟩]

def movePlan : SetPlan where
  device := "ocs1"
  requestId := 0
  operations := [
    { kind := .delete, connectionId := idA },
    { kind := .replace, connectionId := idB, values := { inputPort := some 3, outputPort := some 4 } }]

def moveInput : CandidateInput where
  current := Dict.empty.set "a" ⟨"a", 3, 4, "ENABLED", 1, 7, 7⟩
  revision := 2
  timestampNs := 9
  inputPortCount := 4
  outputPortCount := 4

theorem buildCandidate_semantics_move : Ordered movePlan.operations ∧
    ((∃ candidate, buildCandidate moveInput movePlan = .ok candidate) ↔
      ValidDrafts 4 4 (drafts moveInput movePlan)) := by
  have hparse : parseSetRequest smallLoads moveRequest 0 = .ok movePlan := by decide +kernel
  have hnamed : ∀ id, (moveInput.current.get? id).isSome → id ≠ "" := by
    intro id h
    simp only [moveInput, Dict.get?_set] at h
    rintro rfl
    simp at h
  have hsemantics := buildCandidate_semantics hparse (by decide) hnamed
  exact ⟨hsemantics.1, hsemantics.2.1⟩

end MiniOcs.Gnmi
