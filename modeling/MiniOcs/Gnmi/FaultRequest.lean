import MiniOcs.Gnmi.PathText
import MiniOcs.Gnmi.SetRequest

/-!
# Fault requests

`fault_transaction.py` and the dispatch of `Set`: a request with a path into the fault subtree is a
fault command and nothing else, any other request is a plan for the connections of one device.
-/
namespace MiniOcs.Gnmi
open Json (bind_eq_ok)
open PathParser (PathKind Side portNumber)

/-! ## The id of a fault -/

/-- What follows a prefix. -/
def after (pre text : String) : Option String :=
  (text.toList.dropPrefix? pre.toList).map String.ofList

theorem after_eq_some {pre text rest : String} :
    after pre text = some rest ↔ text = pre ++ rest := by
  unfold after
  rw [Option.map_eq_some_iff]
  constructor
  · rintro ⟨chars, hdrop, rfl⟩
    obtain ⟨pre', hsplit, hpre⟩ := List.dropPrefix?_eq_some_iff.mp hdrop
    apply String.toList_inj.mp
    rw [hsplit, eq_of_beq hpre]
    simp
  · rintro rfl
    refine ⟨rest.toList, ?_, String.ofList_toList⟩
    exact List.dropPrefix?_eq_some_iff.mpr ⟨pre.toList, by simp, by simp⟩

def faultPrefix : Side → String
  | .input => "input-port-down-"
  | .output => "output-port-down-"

def portFaultType : Side → String
  | .input => "INPUT_PORT_DOWN"
  | .output => "OUTPUT_PORT_DOWN"

def unsupportedFault (faultId : String) : SetError :=
  .invalidArgument ("unsupported simulator fault " ++ quoted faultId)

/-- One round of the loop over the prefixes, when the id begins with the prefix. -/
def portFault (side : Side) (faultId rawPort : String) : Except SetError (String × Nat) :=
  if rawPort ≠ "" ∧ rawPort.toList.all Char.isDigit = true ∧ 0 < portNumber rawPort ∧
      portNumber rawPort ≤ 2147483647 then
    .ok (portFaultType side, portNumber rawPort)
  else .error (unsupportedFault faultId)

/-- `_fault_parts` -/
def faultParts (faultId : String) (allowAll : Bool) : Except SetError (String × Nat) :=
  if faultId = "all" ∧ allowAll = true then .ok ("ALL", 0)
  else if faultId = "next-apply-timeout" then .ok ("NEXT_APPLY_TIMEOUT", 0)
  else if faultId = "next-apply-error" then .ok ("NEXT_APPLY_ERROR", 0)
  else
    match after (faultPrefix .input) faultId with
    | some rawPort => portFault .input faultId rawPort
    | none =>
        match after (faultPrefix .output) faultId with
        | some rawPort => portFault .output faultId rawPort
        | none => .error (unsupportedFault faultId)

/-! ## Requests -/

structure FaultCommand where
  device : String
  faultId : String
  faultType : String
  portId : Nat
  operation : String
  requestId : String
  responsePath : PathParser.Path
  responseKind : SetOperationKind

def maxFaultBytes : Nat := 4096

/-- Whether a decoded payload is the one of an injection. A repeated member counts as its last. -/
def isInject : Json → Bool
  | .obj members =>
      match members.getLast? with
      | some (_, .str operation) =>
          members.all (fun entry => entry.1 == "operation") && operation == "INJECT"
      | _ => false
  | _ => false

def requestPath (pre path : PathParser.Path) : Except SetError PathParser.NativePath :=
  (PathParser.parsePath (some pre) path).mapError fun e => .invalidArgument ("invalid path: " ++ e)

def allPaths (request : SetRequest) : List PathParser.Path :=
  request.delete ++ request.replace.map (·.path) ++ request.update.map (·.path) ++
    request.unionReplace.map (·.path)

def isFaultKind (kind : PathKind) : Bool :=
  kind == .faults || kind == .fault || kind == .faultConfig

/-- `is_fault_request`: a path that cannot be parsed does not count. -/
def isFaultRequest (request : SetRequest) : Bool :=
  (allPaths request).any fun path =>
    match PathParser.parsePath (some request.pre) path with
    | .ok native => isFaultKind native.kind
    | .error _ => false

section
variable (loads : List UInt8 → Option Json)

def decodeInjectPayload : TypedValue → Except SetError Unit
  | .other => .error (.invalidArgument "fault Set values must use TypedValue.json_ietf_val")
  | .jsonIetf payload =>
      if maxFaultBytes < payload.length then
        .error (.invalidArgument "fault JSON_IETF payload exceeds 4096 bytes")
      else match loads payload with
        | none => .error (.invalidArgument "fault Set value is not valid JSON_IETF")
        | some document =>
            if isInject document then .ok ()
            else .error (.invalidArgument
              "fault inject payload must be \x7b\x22operation\x22:\x22INJECT\x22\x7d")

def parseInject (pre : PathParser.Path) (update : Update) (requestId : String) :
    Except SetError FaultCommand := do
  let native ← requestPath pre update.path
  match native.kind, native.faultId with
  | .faultConfig, some faultId =>
      decodeInjectPayload loads update.val
      let (faultType, portId) ← faultParts faultId false
      return { device := native.device.getD "None", faultId, faultType, portId, operation := "INJECT",
               requestId, responsePath := update.path, responseKind := .update }
  | _, _ => .error (.invalidArgument "fault inject requires a keyed fault config path")

/-- The id that a clear names. -/
def clearedFault (native : PathParser.NativePath) : Except SetError String :=
  if native.kind = .faults then .ok "all"
  else if (native.kind = .fault ∨ native.kind = .faultConfig) ∧ native.faultId.getD "" ≠ "" then
    .ok (native.faultId.getD "")
  else .error (.invalidArgument "fault clear requires the fault container or keyed fault path")

def parseClear (pre path : PathParser.Path) (requestId : String) : Except SetError FaultCommand := do
  let native ← requestPath pre path
  let faultId ← clearedFault native
  let (faultType, portId) ← faultParts faultId true
  return { device := native.device.getD "None", faultId, faultType, portId, operation := "CLEAR",
           requestId, responsePath := path, responseKind := .delete }

def parseFaultRequest (request : SetRequest) (requestId : String) : Except SetError FaultCommand :=
  if request.unionReplace ≠ [] ∨ request.replace ≠ [] then
    .error (.invalidArgument "fault Set does not support replace or union_replace")
  else if request.delete.length + request.update.length ≠ 1 then
    .error (.invalidArgument "fault Set requires exactly one operation")
  else
    match request.update, request.delete with
    | update :: _, _ => parseInject loads request.pre update requestId
    | [], path :: _ => parseClear request.pre path requestId
    | [], [] => .error (.unexpected "no operation")

/-! ## The dispatch -/

/-- What a request asks for once it is parsed. -/
inductive SetEffect where
  | fault (command : FaultCommand)
  | config (plan : SetPlan)

/-- `Set` of the service, up to the repositories. Both transactions make a request id. -/
def dispatchSet (request : SetRequest) (requestId : String) (planId : Nat) :
    Except SetError SetEffect :=
  if isFaultRequest request then (parseFaultRequest loads request requestId).map .fault
  else (parseSetRequest loads request planId).map .config

end

/-! ## The ids that are faults -/

/-- The decimal text of a port, leading zeros allowed. -/
structure PortDigits (text : String) : Prop where
  ne : text ≠ ""
  digits : text.toList.all Char.isDigit = true
  positive : 0 < portNumber text
  bounded : portNumber text ≤ 2147483647

inductive FaultName (allowAll : Bool) : String → String → Nat → Prop
  | all : allowAll = true → FaultName allowAll "all" "ALL" 0
  | timeout : FaultName allowAll "next-apply-timeout" "NEXT_APPLY_TIMEOUT" 0
  | error : FaultName allowAll "next-apply-error" "NEXT_APPLY_ERROR" 0
  | port (side : Side) {text : String} : PortDigits text →
      FaultName allowAll (faultPrefix side ++ text) (portFaultType side) (portNumber text)

theorem portFault_eq_ok {side : Side} {faultId rawPort faultType : String} {portId : Nat} :
    portFault side faultId rawPort = .ok (faultType, portId) ↔
      PortDigits rawPort ∧ faultType = portFaultType side ∧ portId = portNumber rawPort := by
  unfold portFault
  split_ifs with h
  · obtain ⟨hne, hdigits, hpositive, hbounded⟩ := h
    have hport : PortDigits rawPort := ⟨hne, hdigits, hpositive, hbounded⟩
    simp [hport, eq_comm]
  · simp only [false_iff]
    rintro ⟨hport, -⟩
    exact h ⟨hport.ne, hport.digits, hport.positive, hport.bounded⟩

theorem after_ne {pre text : String} (h : PathParser.Clash pre text) (rest : String) :
    after pre (text ++ rest) = none := by
  rw [Option.eq_none_iff_forall_ne_some]
  intro found hfound
  exact h.append_ne _ _ (after_eq_some.mp hfound).symm

theorem faultParts_sound {faultId : String} {allowAll : Bool} {faultType : String} {portId : Nat}
    (h : faultParts faultId allowAll = .ok (faultType, portId)) :
    FaultName allowAll faultId faultType portId := by
  unfold faultParts at h
  split_ifs at h with hall htimeout herror
  · obtain ⟨rfl, hallow⟩ := hall
    cases h
    exact .all hallow
  · cases h
    exact htimeout ▸ .timeout
  · cases h
    exact herror ▸ .error
  · split at h
    · rename_i rawPort hafter
      obtain ⟨hport, rfl, rfl⟩ := portFault_eq_ok.mp h
      rw [after_eq_some.mp hafter]
      exact .port .input hport
    · split at h
      · rename_i rawPort hafter
        obtain ⟨hport, rfl, rfl⟩ := portFault_eq_ok.mp h
        rw [after_eq_some.mp hafter]
        exact .port .output hport
      · cases h

theorem faultParts_complete {faultId : String} {allowAll : Bool} {faultType : String} {portId : Nat}
    (h : FaultName allowAll faultId faultType portId) :
    faultParts faultId allowAll = .ok (faultType, portId) := by
  cases h with
  | all hallow => simp [faultParts, hallow]
  | timeout => simp [faultParts]
  | error => simp [faultParts]
  | @port side text hport =>
      have hown : ∀ side, after (faultPrefix side) (faultPrefix side ++ text) = some text :=
        fun side => after_eq_some.mpr rfl
      have hne : ∀ {word : String}, PathParser.Clash (faultPrefix side) word →
          faultPrefix side ++ text ≠ word := by
        intro word hclash heq
        exact hclash.append_ne text "" (by rw [heq, String.append_empty])
      unfold faultParts
      rw [if_neg fun h => hne (by cases side <;> decide) h.1, if_neg (hne (by cases side <;> decide)),
        if_neg (hne (by cases side <;> decide))]
      cases side with
      | input =>
          rw [hown .input]
          exact portFault_eq_ok.mpr ⟨hport, rfl, rfl⟩
      | output =>
          rw [after_ne (by decide), hown .output]
          exact portFault_eq_ok.mpr ⟨hport, rfl, rfl⟩

/-- The ids of faults are the names and the ports behind the prefixes, and no others. -/
theorem faultParts_eq_ok {faultId : String} {allowAll : Bool} {faultType : String} {portId : Nat} :
    faultParts faultId allowAll = .ok (faultType, portId) ↔
      FaultName allowAll faultId faultType portId :=
  ⟨faultParts_sound, faultParts_complete⟩

/-! ## A request has one kind of effect -/

variable {loads : List UInt8 → Option Json} {request : SetRequest}

theorem requestPath_eq_ok {pre path : PathParser.Path} {native : PathParser.NativePath} :
    requestPath pre path = .ok native ↔ PathParser.parsePath (some pre) path = .ok native := by
  unfold requestPath
  cases PathParser.parsePath (some pre) path <;> simp [Except.mapError]

/-- A path below a device has a safe device. -/
theorem device_of_parsePath {pre : Option PathParser.Path} {path : PathParser.Path}
    {native : PathParser.NativePath} (h : PathParser.parsePath pre path = .ok native)
    (hkind : native.kind ≠ .root ∧ native.kind ≠ .devices) :
    ∃ device, native.device = some device ∧ isSafeId device = true := by
  have hshape := (PathParser.parsePath_eq_ok.mp h).2
  generalize PathParser.joined pre path = elements at hshape
  cases hshape with
  | root => exact absurd rfl hkind.1
  | devices => exact absurd rfl hkind.2
  | below hdevice _ hbranch => exact ⟨_, hbranch.spelling.2.2.1, hdevice⟩

theorem ne_of_isFaultKind {kind : PathKind} (h : isFaultKind kind = true) :
    kind ≠ .root ∧ kind ≠ .devices := by
  constructor <;> rintro rfl <;> cases h

/-- A fault command comes from the only path of its request, which leads to its fault. -/
structure FaultAsked (request : SetRequest) (command : FaultCommand) : Prop where
  only : allPaths request = [command.responsePath]
  target : ∃ native, PathParser.parsePath (some request.pre) command.responsePath = .ok native ∧
    isFaultKind native.kind = true ∧ native.device = some command.device ∧
    (native.kind = .faults ∧ command.faultId = "all" ∨ native.faultId = some command.faultId)
  safe : isSafeId command.device = true
  name : FaultName (command.operation == "CLEAR") command.faultId command.faultType command.portId
  inject : command.operation = "INJECT" ∧ request.delete = [] ∧ command.responseKind = .update ∨
    command.operation = "CLEAR" ∧ request.update = [] ∧ command.responseKind = .delete

/-- A plan comes from paths to connections of its device. -/
def ConnectionsAsked (request : SetRequest) (plan : SetPlan) : Prop :=
  ∀ path ∈ allPaths request, ∃ native,
    PathParser.parsePath (some request.pre) path = .ok native ∧
      (native.kind = .connection ∨ native.kind = .connectionConfig) ∧
      native.device = some plan.device

def Asked (request : SetRequest) : SetEffect → Prop
  | .fault command => FaultAsked request command
  | .config plan => ConnectionsAsked request plan

theorem parseInject_asked {update : Update} {requestId : String} {command : FaultCommand}
    (h : parseInject loads request.pre update requestId = .ok command)
    (honly : allPaths request = [update.path]) (hdelete : request.delete = []) :
    FaultAsked request command := by
  obtain ⟨native, hnative, hrest⟩ := bind_eq_ok.mp h
  rw [requestPath_eq_ok] at hnative
  split at hrest
  · rename_i faultId hkind hid
    obtain ⟨_, -, hparts⟩ := bind_eq_ok.mp hrest
    obtain ⟨⟨faultType, portId⟩, hname, hcommand⟩ := bind_eq_ok.mp hparts
    cases hcommand
    have hfault : isFaultKind native.kind = true := by rw [hkind]; rfl
    obtain ⟨device, hdevice, hsafe⟩ := device_of_parsePath hnative (ne_of_isFaultKind hfault)
    exact {
      only := honly
      target := ⟨native, hnative, hfault, by simp [hdevice], .inr hid⟩
      safe := by simpa [hdevice] using hsafe
      name := faultParts_sound hname
      inject := .inl ⟨rfl, hdelete, rfl⟩ }
  · cases hrest

theorem clearedFault_eq_ok {native : PathParser.NativePath} {faultId : String}
    (h : clearedFault native = .ok faultId) : isFaultKind native.kind = true ∧
      (native.kind = .faults ∧ faultId = "all" ∨ native.faultId = some faultId) := by
  unfold clearedFault at h
  split_ifs at h with hfaults hkeyed
  · cases h
    exact ⟨by rw [hfaults]; rfl, .inl ⟨hfaults, rfl⟩⟩
  · obtain ⟨hkind, hid⟩ := hkeyed
    cases h
    refine ⟨by rcases hkind with hkind | hkind <;> rw [hkind] <;> rfl, .inr ?_⟩
    cases hfault : native.faultId with
    | none => simp [hfault] at hid
    | some id => rfl

theorem parseClear_asked {path : PathParser.Path} {requestId : String} {command : FaultCommand}
    (h : parseClear request.pre path requestId = .ok command)
    (honly : allPaths request = [path]) (hupdate : request.update = []) :
    FaultAsked request command := by
  obtain ⟨native, hnative, hrest⟩ := bind_eq_ok.mp h
  obtain ⟨faultId, hcleared, hrest⟩ := bind_eq_ok.mp hrest
  obtain ⟨⟨faultType, portId⟩, hname, hcommand⟩ := bind_eq_ok.mp hrest
  cases hcommand
  rw [requestPath_eq_ok] at hnative
  obtain ⟨hfault, hid⟩ := clearedFault_eq_ok hcleared
  obtain ⟨device, hdevice, hsafe⟩ := device_of_parsePath hnative (ne_of_isFaultKind hfault)
  exact {
    only := honly
    target := ⟨native, hnative, hfault, by simp [hdevice], hid⟩
    safe := by simpa [hdevice] using hsafe
    name := faultParts_sound hname
    inject := .inr ⟨rfl, hupdate, rfl⟩ }

theorem parseFaultRequest_asked {requestId : String} {command : FaultCommand}
    (h : parseFaultRequest loads request requestId = .ok command) : FaultAsked request command := by
  unfold parseFaultRequest at h
  split_ifs at h with hreplaces hcount
  rw [not_or, not_not, not_not] at hreplaces
  rw [not_not] at hcount
  have hpaths : allPaths request = request.delete ++ request.update.map (·.path) := by
    simp [allPaths, hreplaces.1, hreplaces.2]
  split at h
  · rename_i update rest hupdate
    rw [hupdate, List.length_cons] at hcount
    have hdelete : request.delete = [] := List.length_eq_zero_iff.mp (by omega)
    have hrest : rest = [] := List.length_eq_zero_iff.mp (by omega)
    exact parseInject_asked h (by rw [hpaths, hdelete, hupdate, hrest]; rfl) hdelete
  · rename_i path rest hupdate hdelete
    rw [hupdate, hdelete, List.length_cons, List.length_nil] at hcount
    have hrest : rest = [] := List.length_eq_zero_iff.mp (by omega)
    exact parseClear_asked h (by rw [hpaths, hdelete, hupdate, hrest]; rfl) hupdate
  · cases h

/-- The path of an operation of a plan. -/
def LeadsTo (pre path : PathParser.Path) (device : String) : Prop :=
  ∃ native, PathParser.parsePath (some pre) path = .ok native ∧
    (native.kind = .connection ∨ native.kind = .connectionConfig) ∧ native.device = some device

theorem leadsTo_connectionPath {pre path : PathParser.Path} {container : Bool}
    {target : ConnectionTarget} (h : connectionPath pre path container = .ok target) :
    LeadsTo pre path target.device := by
  unfold connectionPath at h
  split at h
  · cases h
  · rename_i native hnative
    split_ifs at h with hkind
    split at h
    · rename_i device id hdevice hid
      split_ifs at h
      cases h
      exact ⟨native, hnative, hkind.symm.imp And.right fun h => h, hdevice⟩
    · cases h

theorem leadsTo_parseDelete {pre path : PathParser.Path} {targeted : Targeted}
    (h : parseDelete pre path = .ok targeted) : LeadsTo pre path targeted.1 := by
  obtain ⟨target, htarget, hrest⟩ := bind_eq_ok.mp h
  cases hrest
  exact leadsTo_connectionPath htarget

theorem leadsTo_parseReplace {pre : PathParser.Path} {update : Update} {targeted : Targeted}
    (h : parseReplace loads pre update = .ok targeted) : LeadsTo pre update.path targeted.1 := by
  obtain ⟨target, htarget, hrest⟩ := bind_eq_ok.mp h
  obtain ⟨values, -, hvalues⟩ := bind_eq_ok.mp hrest
  split_ifs at hvalues
  cases hvalues
  exact leadsTo_connectionPath htarget

theorem leadsTo_parseUpdate {pre : PathParser.Path} {update : Update} {targeted : Targeted}
    (h : parseUpdate loads pre update = .ok targeted) : LeadsTo pre update.path targeted.1 := by
  obtain ⟨target, htarget, hrest⟩ := bind_eq_ok.mp h
  obtain ⟨values, -, hvalues⟩ := bind_eq_ok.mp hrest
  cases hvalues
  exact leadsTo_connectionPath htarget

/-- Every input of a list that was read has an output. -/
theorem read_of_mapM {ε α β : Type} {read : α → Except ε β} {xs : List α} {ys : List β}
    (h : xs.mapM read = .ok ys) {x : α} (hx : x ∈ xs) : ∃ y ∈ ys, read x = .ok y := by
  have hall := Json.forall₂_of_mapM h
  clear h
  induction hall with
  | nil => cases hx
  | @cons a y xs ys hread _ ih =>
      rcases List.mem_cons.mp hx with rfl | hrest
      · exact ⟨y, List.mem_cons_self, hread⟩
      · obtain ⟨y', hy', hread'⟩ := ih hrest
        exact ⟨y', List.mem_cons_of_mem _ hy', hread'⟩

theorem parseSetRequest_asked {planId : Nat} {plan : SetPlan}
    (h : parseSetRequest loads request planId = .ok plan) : ConnectionsAsked request plan := by
  unfold parseSetRequest at h
  split_ifs at h with hunion hempty
  obtain ⟨deletes, hdeletes, hrest⟩ := bind_eq_ok.mp h
  obtain ⟨replaces, hreplaces, hrest⟩ := bind_eq_ok.mp hrest
  obtain ⟨updates, hupdates, hrest⟩ := bind_eq_ok.mp hrest
  rw [not_not] at hunion
  have hdevice : ∀ targeted ∈ deletes ++ replaces ++ updates, targeted.1 = plan.device := by
    dsimp only at hrest
    split at hrest
    · rename_i device hdedup
      cases hrest
      intro targeted hmem
      have hfst := List.mem_dedup.mpr (List.mem_map_of_mem (f := Prod.fst) hmem)
      rw [hdedup] at hfst
      exact List.mem_singleton.mp hfst
    · cases hrest
  have hleads : ∀ {path : PathParser.Path} {targeted : Targeted},
      targeted ∈ deletes ++ replaces ++ updates → LeadsTo request.pre path targeted.1 →
      LeadsTo request.pre path plan.device := fun hmem hpath => hdevice _ hmem ▸ hpath
  intro path hpath
  simp only [allPaths, hunion, List.map_nil, List.append_nil, List.mem_append, List.mem_map] at hpath
  rcases hpath with (hpath | ⟨update, hupdate, rfl⟩) | ⟨update, hupdate, rfl⟩
  · obtain ⟨targeted, hmem, hread⟩ := read_of_mapM hdeletes hpath
    exact hleads (by simp [hmem]) (leadsTo_parseDelete hread)
  · obtain ⟨targeted, hmem, hread⟩ := read_of_mapM hreplaces hupdate
    exact hleads (by simp [hmem]) (leadsTo_parseReplace hread)
  · obtain ⟨targeted, hmem, hread⟩ := read_of_mapM hupdates hupdate
    exact hleads (by simp [hmem]) (leadsTo_parseUpdate hread)

/-- A Set has one kind of effect, and every path of its request is one that it was asked on: a fault
command has the only path, a plan has paths to the connections of its device. -/
theorem dispatchSet_asked {requestId : String} {planId : Nat} {effect : SetEffect}
    (h : dispatchSet loads request requestId planId = .ok effect) : Asked request effect := by
  unfold dispatchSet at h
  split_ifs at h with hfault
  · cases hparse : parseFaultRequest loads request requestId with
    | error e =>
        rw [hparse] at h
        cases h
    | ok command =>
        rw [hparse] at h
        cases h
        exact parseFaultRequest_asked hparse
  · cases hparse : parseSetRequest loads request planId with
    | error e =>
        rw [hparse] at h
        cases h
    | ok plan =>
        rw [hparse] at h
        cases h
        exact parseSetRequest_asked hparse

def faultsPath : PathParser.Path :=
  { elem := [PathParser.plain "ocs", PathParser.plain "devices",
      PathParser.keyed "device" "name" "ocs0", PathParser.plain "faults"] }

theorem dispatchSet_asked_faults : ∃ command,
    dispatchSet (fun _ => none) { delete := [faultsPath] } "r1" 0 = .ok (.fault command) ∧
      Asked { delete := [faultsPath] } (.fault command) := by
  have hset : ∃ command,
      dispatchSet (fun _ => none) { delete := [faultsPath] } "r1" 0 = .ok (.fault command) :=
    ⟨_, rfl⟩
  obtain ⟨command, hcommand⟩ := hset
  exact ⟨command, hcommand, dispatchSet_asked hcommand⟩

end MiniOcs.Gnmi
