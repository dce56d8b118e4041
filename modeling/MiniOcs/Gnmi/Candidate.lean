import Mathlib.Data.List.Sort
import MiniOcs.Types
import MiniOcs.Dict

/-!
# The final candidate of a Set request

`build_candidate` of `set_transaction.py`: all operations of a plan are applied to a copy
of the loaded connections, and only the complete candidate is validated.
-/
namespace MiniOcs.Gnmi

def adminEnabled : String := "ENABLED"

/-- The characters that `_SAFE_ID` accepts. -/
def isSafeChar (c : Char) : Bool :=
  c.isAlphanum || c == '_' || c == '.' || c == '-'

def isSafeId (text : String) : Bool :=
  let chars := text.toList
  decide (1 ≤ chars.length) && decide (chars.length ≤ 128) && chars.all isSafeChar

/-- A list key of a parsed path. The path parser refuses every other text. -/
structure SafeId where
  text : String
  safe : isSafeId text = true
  deriving DecidableEq

theorem SafeId.ne_empty (id : SafeId) : id.text ≠ "" := by
  intro h
  have hsafe := id.safe
  rw [h] at hsafe
  exact absurd hsafe (by decide)

inductive SetOperationKind where
  | delete
  | replace
  | update
  deriving DecidableEq, Repr

structure ConnectionConfig where
  connectionId : String
  inputPort : Nat
  outputPort : Nat
  adminStatus : String := adminEnabled
  desiredVersion : Nat := 0
  createdAtNs : Nat := 0
  updatedAtNs : Nat := 0
  deriving DecidableEq, Repr

/-- The decoded fields of one value; `decode_json_ietf` only lets positive ports through. -/
structure OperationValues where
  inputPort : Option Nat := none
  outputPort : Option Nat := none
  adminStatus : Option String := none
  deriving DecidableEq, Repr

structure SetOperation where
  kind : SetOperationKind
  connectionId : SafeId
  values : OperationValues := {}
  deriving DecidableEq

structure SetPlan where
  device : String
  requestId : Nat
  operations : List SetOperation
  deriving DecidableEq

structure CandidateChange where
  connectionId : String
  operation : ConnectionOperation
  config : Option ConnectionConfig
  deriving DecidableEq, Repr

structure CandidateMutation where
  revision : Nat
  timestampNs : Nat
  changes : List CandidateChange
  connections : List ConnectionConfig
  deriving DecidableEq, Repr

/-- The exceptions that leave a commit. `unexpected` is what maps to an internal error. -/
inductive SetError where
  | invalidArgument (message : String)
  | conflict (message : String)
  | notFound (message : String)
  | deadlineExceeded (message : String)
  | dependencyUnavailable (message : String)
  | unexpected (message : String)
  deriving DecidableEq, Repr

structure MutableConnection where
  inputPort : Option Nat := none
  outputPort : Option Nat := none
  adminStatus : String := adminEnabled
  createdAtNs : Nat := 0
  deriving DecidableEq, Repr

def ConnectionConfig.toMutable (config : ConnectionConfig) : MutableConnection where
  inputPort := some config.inputPort
  outputPort := some config.outputPort
  adminStatus := config.adminStatus
  createdAtNs := config.createdAtNs

/-- Python's `!r` of a key; safe keys need no escapes. -/
def quoted (text : String) : String := "'" ++ text ++ "'"

def MutableConnection.update (m : MutableConnection) (values : OperationValues) :
    MutableConnection where
  inputPort := values.inputPort.or m.inputPort
  outputPort := values.outputPort.or m.outputPort
  adminStatus := values.adminStatus.getD m.adminStatus
  createdAtNs := m.createdAtNs

/-- One operation on the working copy. -/
def applyOperation (current : Dict String ConnectionConfig) (timestampNs : Nat)
    (working : Dict String MutableConnection) (operation : SetOperation) :
    Except SetError (Dict String MutableConnection) :=
  let id := operation.connectionId.text
  match operation.kind with
  | .delete => .ok (working.pop id)
  | .replace =>
      match operation.values.inputPort with
      | none => .error (.unexpected "'input_port'")
      | some inputPort =>
          match operation.values.outputPort with
          | none => .error (.unexpected "'output_port'")
          | some outputPort => .ok (working.set id {
              inputPort := some inputPort
              outputPort := some outputPort
              adminStatus := operation.values.adminStatus.getD adminEnabled
              createdAtNs := match current.get? id with
                | some existing => existing.createdAtNs
                | none => timestampNs })
  | .update =>
      let candidate := (working.get? id).getD { createdAtNs := timestampNs }
      .ok (working.set id (candidate.update operation.values))

def applyOperations (current : Dict String ConnectionConfig) (timestampNs : Nat) :
    List SetOperation → Dict String MutableConnection →
      Except SetError (Dict String MutableConnection)
  | [], working => .ok working
  | operation :: rest, working =>
      match applyOperation current timestampNs working operation with
      | .error e => .error e
      | .ok working' => applyOperations current timestampNs rest working'

def touchedIds (operations : List SetOperation) : Dict String Unit :=
  operations.foldl (fun touched operation => touched.setDefault operation.connectionId.text ())
    Dict.empty

/-- The fixed arguments of the validation loop. -/
structure CandidateInput where
  current : Dict String ConnectionConfig
  revision : Nat
  timestampNs : Nat
  inputPortCount : Nat
  outputPortCount : Nat

structure Finalized where
  configs : Dict String ConnectionConfig := Dict.empty
  occupiedInputs : Dict Nat String := Dict.empty
  occupiedOutputs : Dict Nat String := Dict.empty

/-- `occupied.get(port)` in a condition: an absent key and an empty id are both false. -/
def occupiedBy (occupied : Dict Nat String) (port : Nat) : Option String :=
  match occupied.get? port with
  | some previous => if previous = "" then none else some previous
  | none => none

/-- One round of the validation loop over the working copy. -/
def finalizeOne (input : CandidateInput) (touched : Dict String Unit) (acc : Finalized)
    (id : String) (candidate : MutableConnection) : Except SetError Finalized :=
  match candidate.inputPort, candidate.outputPort with
  | some inputPort, some outputPort =>
      if ¬(1 ≤ inputPort ∧ inputPort ≤ input.inputPortCount) then
        .error (.invalidArgument ("connection " ++ quoted id ++ " input-port is outside 1.." ++
          toString input.inputPortCount))
      else if ¬(1 ≤ outputPort ∧ outputPort ≤ input.outputPortCount) then
        .error (.invalidArgument ("connection " ++ quoted id ++ " output-port is outside 1.." ++
          toString input.outputPortCount))
      else match occupiedBy acc.occupiedInputs inputPort with
        | some previous =>
            .error (.conflict ("input port " ++ toString inputPort ++ " is used by " ++
              quoted previous ++ " and " ++ quoted id))
        | none => match occupiedBy acc.occupiedOutputs outputPort with
          | some previous =>
              .error (.conflict ("output port " ++ toString outputPort ++ " is used by " ++
                quoted previous ++ " and " ++ quoted id))
          | none =>
              let store (desiredVersion updatedAtNs : Nat) : Finalized := {
                configs := acc.configs.set id {
                  connectionId := id
                  inputPort := inputPort
                  outputPort := outputPort
                  adminStatus := candidate.adminStatus
                  desiredVersion := desiredVersion
                  createdAtNs :=
                    if candidate.createdAtNs = 0 then input.timestampNs else candidate.createdAtNs
                  updatedAtNs := updatedAtNs }
                occupiedInputs := acc.occupiedInputs.set inputPort id
                occupiedOutputs := acc.occupiedOutputs.set outputPort id }
              if (touched.get? id).isSome then .ok (store input.revision input.timestampNs)
              else match input.current.get? id with
                | none => .error (.unexpected "untouched candidate has no current snapshot")
                | some existing => .ok (store existing.desiredVersion existing.updatedAtNs)
  | _, _ => .error (.invalidArgument
      ("connection " ++ quoted id ++ " requires input-port and output-port"))

def finalizeAll (input : CandidateInput) (touched : Dict String Unit) :
    List (String × MutableConnection) → Finalized → Except SetError Finalized
  | [], acc => .ok acc
  | (id, candidate) :: rest, acc =>
      match finalizeOne input touched acc id candidate with
      | .error e => .error e
      | .ok acc' => finalizeAll input touched rest acc'

def unchanged (existing finalized : ConnectionConfig) : Bool :=
  decide (existing.inputPort = finalized.inputPort) &&
    decide (existing.outputPort = finalized.outputPort) &&
    decide (existing.adminStatus = finalized.adminStatus)

/-- The change of one touched id, if there is one. -/
def changeOf (current finalized : Dict String ConnectionConfig) (id : String) :
    Option CandidateChange :=
  match current.get? id, finalized.get? id with
  | none, none => none
  | some existing, some config =>
      if unchanged existing config then none else some ⟨id, .upsert, some config⟩
  | none, some config => some ⟨id, .upsert, some config⟩
  | some _, none => some ⟨id, .remove, none⟩

def sortedConfigs (configs : Dict String ConnectionConfig) : List ConnectionConfig :=
  (configs.entries.insertionSort fun a b => a.1 ≤ b.1).map Prod.snd

def buildCandidate (input : CandidateInput) (plan : SetPlan) :
    Except SetError CandidateMutation :=
  if input.revision = 0 then .error (.unexpected "configuration revision must be positive")
  else match applyOperations input.current input.timestampNs plan.operations
      (input.current.mapValues ConnectionConfig.toMutable) with
    | .error e => .error e
    | .ok working =>
        let touched := touchedIds plan.operations
        match finalizeAll input touched working.entries {} with
        | .error e => .error e
        | .ok finalized => .ok {
            revision := input.revision
            timestampNs := input.timestampNs
            changes := touched.keys.filterMap (changeOf input.current finalized.configs)
            connections := sortedConfigs finalized.configs }

end MiniOcs.Gnmi
