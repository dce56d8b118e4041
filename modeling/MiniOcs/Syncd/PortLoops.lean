import MiniOcs.Device.Matrix
import MiniOcs.Syncd.Poll
import MiniOcs.WordLoop

/-!
# The loops over the ports of a direction

`makePorts` and `poll_direction` count a 16-bit `PortId` up to the number of ports. The variable
has the type of its bound, so the loops end for every count but the largest one.
-/
namespace MiniOcs.Syncd
open Concurrent

/-- The body of the loop of `poll_direction`. -/
def pollPort (direction : PortDirection) (actual : List AppliedConnection)
    (unavailable : List Nat) (id : Nat) : Service (List Nat) := do
  let reply ← send (.getPortState direction id)
  let port ← readOrRaise reply
  publishPortState port
    (actual.countP fun connection => connectionPort port.direction connection = port.id)
  .pure (if portUnavailable port then unavailable ++ [id] else unavailable)

/-- The loop of `poll_direction` with its 16-bit variable. -/
def pollDirectionLoop (direction : PortDirection) (actual : List AppliedConnection) (count : Nat) :
    Nat → Nat → List Nat → Service (Option (List Nat)) :=
  WordLoop.upTo 65536 count (pollPort direction actual)

/-- What the body of the loop of `makePorts` appends. -/
def newPort (direction : PortDirection) (id : Nat) : PortState :=
  { id := id, direction := direction, operStatus := .up }

/-- The ids `1..count`. -/
def portRange (count : Nat) : List Nat := List.range' 1 count

/-- Both loops end, and visit every port of the direction once and in order. -/
structure VisitsPorts (direction : PortDirection) (count : Nat) : Prop where
  make : ∃ rounds, makePortsLoop direction count rounds 1 [] =
    some ((portRange count).map (newPort direction))
  poll : ∀ actual, ∃ rounds, pollDirectionLoop direction actual count rounds 1 [] =
    some <$> (portRange count).foldlM (pollPort direction actual) []

/-! ## The loops as folds -/

theorem makePortsLoop_eq_upTo (direction : PortDirection) (count rounds id : Nat)
    (ports : List PortState) : makePortsLoop direction count rounds id ports =
      WordLoop.upTo (m := Id) 65536 count (fun ports id => ports ++ [newPort direction id])
        rounds id ports := by
  induction rounds generalizing id ports with
  | zero => rfl
  | succ rounds ih =>
      unfold makePortsLoop WordLoop.upTo
      split_ifs
      · exact ih _ _
      · rfl

theorem foldl_newPort (direction : PortDirection) (ids : List Nat) (ports : List PortState) :
    ids.foldl (fun ports id => ports ++ [newPort direction id]) ports =
      ports ++ ids.map (newPort direction) := by
  induction ids generalizing ports with
  | nil => simp
  | cons id rest ih => simp [ih]

/-- The poll of a list of ports is the fold of the loop body. -/
theorem pollDirection_eq_foldlM (direction : PortDirection) (actual : List AppliedConnection)
    (unavailable ids : List Nat) : pollDirection direction actual unavailable ids =
      ids.foldlM (pollPort direction actual) unavailable := by
  induction ids generalizing unavailable with
  | nil => rfl
  | cons id rest ih =>
      have hbody : pollPort direction actual unavailable id >>=
          (rest.foldlM (pollPort direction actual)) = pollDirection direction actual unavailable
            (id :: rest) := by
        unfold pollPort pollDirection
        simp only [bind_assoc, ih]
        rfl
      exact hbody.symm

theorem portIds_eq_portRange (count : Nat) : portIds count = portRange count := by
  unfold portIds portRange
  rw [List.range_eq_range', funext fun id => Nat.add_comm id 1, List.map_add_range']

/-! ## Counts below the largest -/

section

variable {direction : PortDirection} {actual : List AppliedConnection} {count : Nat}

theorem makePortsLoop_ends (h : count < 65535) {rounds : Nat} (hrounds : count < rounds) :
    makePortsLoop direction count rounds 1 [] = some ((portRange count).map (newPort direction)) := by
  rw [makePortsLoop_eq_upTo, WordLoop.upTo_eq_foldlM (by omega) (by omega) (by omega)]
  have hfold := foldl_newPort direction (portRange count) []
  rw [List.nil_append] at hfold
  rw [← hfold, List.foldl_eq_foldlM]
  rfl

/-- What the poll of a service goes through is what its loop visits. -/
theorem pollDirectionLoop_ends (h : count < 65535) {rounds : Nat} (hrounds : count < rounds) :
    pollDirectionLoop direction actual count rounds 1 [] =
      some <$> pollDirection direction actual [] (portIds count) := by
  rw [pollDirection_eq_foldlM, portIds_eq_portRange]
  exact WordLoop.upTo_eq_foldlM (by omega) (by omega) (by omega) []

theorem visitsPorts_of_lt (h : count < 65535) : VisitsPorts direction count := by
  refine ⟨⟨count + 1, makePortsLoop_ends h (Nat.lt_succ_self count)⟩, fun actual => ⟨count + 1, ?_⟩⟩
  rw [pollDirectionLoop_ends h (Nat.lt_succ_self count), pollDirection_eq_foldlM,
    portIds_eq_portRange]

/-! ## The largest count -/

theorem makePortsLoop_never_ends (h : 65535 ≤ count) (rounds : Nat) :
    makePortsLoop direction count rounds 1 [] = none := by
  rw [makePortsLoop_eq_upTo]
  exact WordLoop.upTo_eq_none (by omega) (by decide) rounds []

/-- A port that is up and was not seen to change is passed over. -/
theorem pollPort_may_return (unavailable : List Nat) (id : Nat) :
    ¬(pollPort direction actual unavailable id).Returns fun _ => False := by
  intro h
  have hsame := h (.ok (newPort direction id)) (some (newPort direction id))
  simp only [Prog.bind, publishPortChange, if_true] at hsame
  exact hsame none

theorem pollDirectionLoop_never_ends (h : 65535 ≤ count) (rounds : Nat) (p : Service (List Nat)) :
    pollDirectionLoop direction actual count rounds 1 [] ≠ some <$> p := by
  intro heq
  have hsome : (some <$> p).Returns fun r => r.isSome = true := WordLoop.returns_map_some p
  rw [← heq] at hsome
  exact WordLoop.not_returns_upTo (by omega) pollPort_may_return (by decide) rounds [] hsome

end

/-! ## Devices -/

def countOf (info : DeviceInfo) : PortDirection → Nat
  | .input => info.inputPortCount
  | .output => info.outputPortCount

/-- The counts are 16-bit values that the constructor lets pass. -/
def AcceptedCounts (info : DeviceInfo) : Prop :=
  ∀ direction, 0 < countOf info direction ∧ countOf info direction < 65536

/-- The device is constructed, and both loops over its ports do what they are for. -/
structure PortLoopsEnd (info : DeviceInfo) : Prop where
  constructed : ∃ d : SimulatedOcsDevice CommandId,
    SimulatedOcsDevice.construct info = some (.ok d)
  visits : ∀ direction, VisitsPorts direction (countOf info direction)

/-- The loops end below the largest count, and nowhere else. -/
theorem port_loops_end_iff {info : DeviceInfo} (h : AcceptedCounts info) :
    PortLoopsEnd info ↔ ∀ direction, countOf info direction < 65535 := by
  constructor
  · intro hends direction
    obtain ⟨rounds, hmake⟩ := (hends.visits direction).make
    by_contra hlargest
    rw [makePortsLoop_never_ends (by omega)] at hmake
    cases hmake
  · intro hlt
    refine ⟨?_, fun direction => visitsPorts_of_lt (hlt direction)⟩
    have hmake : ∀ direction, makePorts direction (countOf info direction) =
        some ((portRange (countOf info direction)).map (newPort direction)) := by
      intro direction
      have hbound := hlt direction
      exact makePortsLoop_ends hbound (by omega)
    have hinput := hmake .input
    have houtput := hmake .output
    simp only [countOf] at hinput houtput
    have hpositive : ¬(info.inputPortCount = 0 ∨ info.outputPortCount = 0) := by
      have hin : 0 < info.inputPortCount := (h .input).1
      have hout : 0 < info.outputPortCount := (h .output).1
      omega
    unfold SimulatedOcsDevice.construct
    rw [hinput, houtput]
    dsimp only
    rw [if_neg hpositive]
    exact ⟨_, rfl⟩

def fourByFour : DeviceInfo where
  name := "hwsim-1"
  inputPortCount := 4
  outputPortCount := 4
  generation := 1

theorem port_loops_end_iff_fourByFour :
    PortLoopsEnd fourByFour ↔ ∀ direction, countOf fourByFour direction < 65535 :=
  port_loops_end_iff fun direction => by cases direction <;> decide

/-- All the ports that a `PortId` can name on the input side. -/
def largestInputs : DeviceInfo := { fourByFour with inputPortCount := 65535 }

/-- The counts pass the checks, and neither loop ends. -/
theorem largestInputs_never_end : AcceptedCounts largestInputs ∧
    (∀ rounds, makePortsLoop .input largestInputs.inputPortCount rounds 1 [] = none) ∧
    (∀ actual rounds p, pollDirectionLoop .input actual largestInputs.inputPortCount rounds 1 [] ≠
      some <$> p) ∧ ¬PortLoopsEnd largestInputs := by
  have haccepted : AcceptedCounts largestInputs := by
    intro direction
    cases direction <;> decide
  refine ⟨haccepted, makePortsLoop_never_ends (Nat.le_refl _),
    fun actual rounds p => pollDirectionLoop_never_ends (Nat.le_refl _) rounds p, fun hends => ?_⟩
  obtain ⟨rounds, hmake⟩ := (hends.visits .input).make
  change makePortsLoop .input 65535 rounds 1 [] = _ at hmake
  rw [makePortsLoop_never_ends (Nat.le_refl _)] at hmake
  cases hmake

end MiniOcs.Syncd
