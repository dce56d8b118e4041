import Mathlib.Data.List.Sort
import MiniOcs.Gnmi.Candidate
import MiniOcs.Json.Access

/-!
# Native paths

`path_parser.py`: a prefix and a path are joined, and the elements are read as one of the native
resources. An exception is its text, and the `repr` of a text in it stands between quotes.
-/
namespace MiniOcs.Gnmi.PathParser

/-! ## Protobuf paths -/

structure PathElem where
  name : String
  key : Dict String String := Dict.empty

/-- `element` is the deprecated field. -/
structure Path where
  element : List String := []
  origin : String := ""
  elem : List PathElem := []
  target : String := ""

def nativeOrigin : String := "mini-ocs-native"

inductive PathKind where
  | root
  | devices
  | device
  | deviceState
  | ports
  | inputPort
  | inputPortState
  | outputPort
  | outputPortState
  | connections
  | connection
  | connectionConfig
  | connectionState
  | alarms
  | alarm
  | counters
  | diagnostics
  | faults
  | fault
  | faultConfig
  deriving DecidableEq, Repr

structure NativePath where
  kind : PathKind
  device : Option String := none
  connectionId : Option String := none
  portId : Option Nat := none
  alarmId : Option String := none
  faultId : Option String := none
  origin : String := ""
  target : String := ""
  deriving DecidableEq, Repr

/-! ## The parser -/

def pathElements (path : Path) (label : String) : Except String (List PathElem) :=
  if path.element ≠ [] then .error (label ++ " uses the deprecated element field")
  else .ok path.elem

/-- Python's `a or b` of two texts. -/
def orText (a b : String) : String := if a = "" then b else a

/-- The elements, the origin and the target of a request. An absent prefix is an empty one. -/
def combinePaths (pre : Option Path) (path : Path) :
    Except String (List PathElem × String × String) := do
  let prefixPath := pre.getD {}
  let prefixElements ← pathElements prefixPath "prefix"
  let elements ← pathElements path "path"
  if prefixPath.origin ≠ "" ∧ path.origin ≠ "" ∧ prefixPath.origin ≠ path.origin then
    .error "prefix and path origins differ"
  else if prefixPath.target ≠ "" ∧ path.target ≠ "" ∧ prefixPath.target ≠ path.target then
    .error "prefix and path targets differ"
  else
    let origin := orText path.origin prefixPath.origin
    let target := orText path.target prefixPath.target
    if origin ≠ "" ∧ origin ≠ nativeOrigin then .error ("unsupported origin " ++ quoted origin)
    else if target ≠ "" ∧ isSafeId target = false then .error "target contains unsafe characters"
    else return (prefixElements ++ elements, origin, target)

/-- The names of the keys of an element, for an error text. -/
def keyNames (element : PathElem) : String :=
  if element.key.keys = [] then "none"
  else ",".intercalate (element.key.keys.mergeSort fun a b => decide (a ≤ b))

/-- `_expect_element` of an element without keys. -/
def expectElement (element : PathElem) (name : String) : Except String Unit :=
  if element.name ≠ name then
    .error ("expected element " ++ quoted name ++ ", got " ++ quoted element.name)
  else if element.key.keys ≠ [] then
    .error ("element " ++ quoted name ++ " requires key 'none', got " ++ quoted (keyNames element))
  else .ok ()

/-- `_expect_element` of an element with one key. -/
def expectKeyed (element : PathElem) (name keyName : String) : Except String String :=
  if element.name ≠ name then
    .error ("expected element " ++ quoted name ++ ", got " ++ quoted element.name)
  else if element.key.keys ≠ [keyName] then
    .error ("element " ++ quoted name ++ " requires key " ++ quoted keyName ++ ", got " ++
      quoted (keyNames element))
  else
    let value := (element.key.get? keyName).getD ""
    if isSafeId value = false then
      .error ("key " ++ quoted keyName ++ " contains unsafe characters")
    else .ok value

/-- `int` of a text of decimal digits. -/
def portNumber (text : String) : Nat := Nat.ofDigitChars 10 text.toList 0

def parsePortId (value : String) : Except String Nat :=
  if value = "" ∨ value.toList.all Char.isDigit = false then
    .error "port id must be a positive decimal integer"
  else
    let portId := portNumber value
    if portId = 0 ∨ 2147483647 < portId then .error "port id is outside the supported range"
    else .ok portId

/-- The fields that every path below a device has. -/
def devicePath (kind : PathKind) (device origin target : String) : NativePath :=
  { kind, device := some device, origin, target }

/-- Below `ports`. -/
def portBranch (device origin target : String) : List PathElem → Except String NativePath
  | [] => .ok (devicePath .ports device origin target)
  | port :: rest => do
      if port.name ≠ "input-port" ∧ port.name ≠ "output-port" then
        .error ("unsupported ports element " ++ quoted port.name)
      else
        let portId ← parsePortId (← expectKeyed port port.name "id")
        match rest with
        | [] =>
            let kind := if port.name = "input-port" then .inputPort else .outputPort
            return { devicePath kind device origin target with portId := some portId }
        | [leaf] =>
            expectElement leaf "state"
            let kind := if port.name = "input-port" then .inputPortState else .outputPortState
            return { devicePath kind device origin target with portId := some portId }
        | _ => .error "port paths may only end at the port or its state"

/-- Below `connections`. -/
def connectionBranch (device origin target : String) : List PathElem → Except String NativePath
  | [] => .ok (devicePath .connections device origin target)
  | connection :: rest => do
      let connectionId ← expectKeyed connection "connection" "id"
      match rest with
      | [] => return { devicePath .connection device origin target with
                       connectionId := some connectionId }
      | [leaf] =>
          if leaf.name = "config" ∨ leaf.name = "state" then
            expectElement leaf leaf.name
            let kind := if leaf.name = "config" then .connectionConfig else .connectionState
            return { devicePath kind device origin target with connectionId := some connectionId }
          else .error "connection paths may only end at connection, config, or state"
      | _ => .error "connection paths may only end at connection, config, or state"

/-- Below `alarms`. -/
def alarmBranch (device origin target : String) : List PathElem → Except String NativePath
  | [] => .ok (devicePath .alarms device origin target)
  | [alarm] => do
      let alarmId ← expectKeyed alarm "alarm" "id"
      return { devicePath .alarm device origin target with alarmId := some alarmId }
  | _ => .error "alarm paths may only end at alarms or a keyed alarm"

/-- Below `faults`. -/
def faultBranch (device origin target : String) : List PathElem → Except String NativePath
  | [] => .ok (devicePath .faults device origin target)
  | fault :: rest => do
      let faultId ← expectKeyed fault "fault" "id"
      match rest with
      | [] => return { devicePath .fault device origin target with faultId := some faultId }
      | [leaf] =>
          expectElement leaf "config"
          return { devicePath .faultConfig device origin target with faultId := some faultId }
      | _ => .error "fault paths may only end at fault or config"

/-- Below one device. -/
def deviceBranch (device origin target : String) : List PathElem → Except String NativePath
  | [] => .ok (devicePath .device device origin target)
  | branch :: rest => do
      if branch.name = "state" ∧ rest.isEmpty then
        expectElement branch "state"
        return devicePath .deviceState device origin target
      else if branch.name = "counters" ∧ rest.isEmpty then
        expectElement branch "counters"
        return devicePath .counters device origin target
      else if branch.name = "diagnostics" ∧ rest.isEmpty then
        expectElement branch "diagnostics"
        return devicePath .diagnostics device origin target
      else if branch.name = "ports" then
        expectElement branch "ports"
        portBranch device origin target rest
      else if branch.name = "connections" then
        expectElement branch "connections"
        connectionBranch device origin target rest
      else if branch.name = "alarms" then
        expectElement branch "alarms"
        alarmBranch device origin target rest
      else if branch.name = "faults" then
        expectElement branch "faults"
        faultBranch device origin target rest
      else .error ("unsupported device branch " ++ quoted branch.name)

def canonicalPath (elements : List PathElem) (origin target : String) :
    Except String NativePath :=
  match elements with
  | [] => .error "empty path"
  | ocs :: rest => do
      expectElement ocs "ocs"
      match rest with
      | [] => return { kind := .root, origin, target }
      | devices :: rest =>
          expectElement devices "devices"
          match rest with
          | [] => return { kind := .devices, origin, target }
          | element :: rest =>
              let device ← expectKeyed element "device" "name"
              if target ≠ "" ∧ target ≠ device then
                .error "target does not match the device path key"
              else deviceBranch device origin target rest

def parsePath (pre : Option Path) (path : Path) : Except String NativePath := do
  let (elements, origin, target) ← combinePaths pre path
  canonicalPath elements origin target

end MiniOcs.Gnmi.PathParser
