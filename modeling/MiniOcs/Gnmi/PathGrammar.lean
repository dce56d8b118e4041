import Mathlib.Data.List.Forall2
import Mathlib.Data.List.Induction
import MiniOcs.Gnmi.PathParser

/-!
# The native grammar

The parser accepts the shapes of `Shape` and no others, and its result names the shape.
-/
namespace MiniOcs.Gnmi.PathParser
open Json (bind_eq_ok)

/-! ## Elements -/

def plain (name : String) : PathElem := { name }

def keyed (name keyName value : String) : PathElem := ⟨name, ⟨[(keyName, value)], by simp⟩⟩

@[simp] theorem plain_name (name : String) : (plain name).name = name := rfl

@[simp] theorem keyed_name (name keyName value : String) :
    (keyed name keyName value).name = name := rfl

theorem keys_eq_nil {element : PathElem} :
    element.key.keys = [] ↔ element = plain element.name := by
  obtain ⟨name, ⟨entries, hnodup⟩⟩ := element
  simp [plain, Dict.keys, Dict.empty]

theorem expectElement_eq_ok {element : PathElem} {name : String} {u : Unit} :
    expectElement element name = .ok u ↔ element = plain name := by
  unfold expectElement
  split_ifs with hname hkeys
  · simp only [false_iff]
    rintro rfl
    exact hname rfl
  · simp only [false_iff]
    rintro rfl
    exact hkeys rfl
  · have helement := keys_eq_nil.mp (not_not.mp hkeys)
    rw [not_not] at hname
    rw [hname] at helement
    simp only [true_iff]
    exact helement

@[simp] theorem expectElement_plain (name : String) : expectElement (plain name) name = .ok () :=
  expectElement_eq_ok.mpr rfl

theorem keys_eq_singleton {element : PathElem} {keyName : String}
    (h : element.key.keys = [keyName]) :
    element = keyed element.name keyName ((element.key.get? keyName).getD "") := by
  obtain ⟨name, ⟨entries, hnodup⟩⟩ := element
  cases entries with
  | nil => cases h
  | cons entry rest =>
      obtain ⟨key, value⟩ := entry
      simp only [Dict.keys, List.map_cons, List.cons.injEq, List.map_eq_nil_iff] at h
      obtain ⟨rfl, rfl⟩ := h
      simp [keyed, Dict.get?]

theorem expectKeyed_eq_ok {element : PathElem} {name keyName value : String} :
    expectKeyed element name keyName = .ok value ↔
      element = keyed name keyName value ∧ isSafeId value = true := by
  constructor
  · intro h
    unfold expectKeyed at h
    dsimp only at h
    split_ifs at h with hname hkeys hsafe
    rw [not_not] at hname hkeys
    have helement := keys_eq_singleton hkeys
    rw [Except.ok.inj h, hname] at helement
    rw [Except.ok.inj h] at hsafe
    exact ⟨helement, by simpa using hsafe⟩
  · rintro ⟨rfl, hsafe⟩
    simp [expectKeyed, keyed, Dict.keys, Dict.get?, hsafe]

@[simp] theorem expectKeyed_keyed {name keyName value : String} (h : isSafeId value = true) :
    expectKeyed (keyed name keyName value) name keyName = .ok value :=
  expectKeyed_eq_ok.mpr ⟨rfl, h⟩

/-! ## Port ids -/

/-- A decimal text, leading zeros allowed, of a number from 1 to 2^31 - 1. -/
structure PortText (text : String) : Prop where
  safe : isSafeId text = true
  digits : text.toList.all Char.isDigit = true
  positive : 1 ≤ portNumber text
  bounded : portNumber text ≤ 2147483647

theorem parsePortId_eq_ok {text : String} (hsafe : isSafeId text = true) {portId : Nat} :
    parsePortId text = .ok portId ↔ PortText text ∧ portId = portNumber text := by
  have hne : text ≠ "" := SafeId.ne_empty ⟨text, hsafe⟩
  unfold parsePortId
  simp only [hne, false_or]
  split_ifs with hdigits hrange
  · simp only [false_iff]
    rintro ⟨h, -⟩
    rw [h.digits] at hdigits
    cases hdigits
  · simp only [false_iff]
    rintro ⟨h, -⟩
    have := h.positive
    have := h.bounded
    omega
  · have htext : PortText text := ⟨hsafe, by simpa using hdigits, by omega, by omega⟩
    simp [htext, eq_comm]

/-! ## Shapes -/

inductive Side where
  | input
  | output

def Side.name : Side → String
  | .input => "input-port"
  | .output => "output-port"

def Side.kind : Side → PathKind
  | .input => .inputPort
  | .output => .outputPort

def Side.stateKind : Side → PathKind
  | .input => .inputPortState
  | .output => .outputPortState

/-- What may follow the device element. -/
inductive BranchShape (base : NativePath) : List PathElem → NativePath → Prop
  | device : BranchShape base [] { base with kind := .device }
  | deviceState : BranchShape base [plain "state"] { base with kind := .deviceState }
  | counters : BranchShape base [plain "counters"] { base with kind := .counters }
  | diagnostics : BranchShape base [plain "diagnostics"] { base with kind := .diagnostics }
  | ports : BranchShape base [plain "ports"] { base with kind := .ports }
  | port (side : Side) {id : String} : PortText id →
      BranchShape base [plain "ports", keyed side.name "id" id]
        { base with kind := side.kind, portId := some (portNumber id) }
  | portState (side : Side) {id : String} : PortText id →
      BranchShape base [plain "ports", keyed side.name "id" id, plain "state"]
        { base with kind := side.stateKind, portId := some (portNumber id) }
  | connections : BranchShape base [plain "connections"] { base with kind := .connections }
  | connection {id : String} : isSafeId id = true →
      BranchShape base [plain "connections", keyed "connection" "id" id]
        { base with kind := .connection, connectionId := some id }
  | connectionConfig {id : String} : isSafeId id = true →
      BranchShape base [plain "connections", keyed "connection" "id" id, plain "config"]
        { base with kind := .connectionConfig, connectionId := some id }
  | connectionState {id : String} : isSafeId id = true →
      BranchShape base [plain "connections", keyed "connection" "id" id, plain "state"]
        { base with kind := .connectionState, connectionId := some id }
  | alarms : BranchShape base [plain "alarms"] { base with kind := .alarms }
  | alarm {id : String} : isSafeId id = true →
      BranchShape base [plain "alarms", keyed "alarm" "id" id]
        { base with kind := .alarm, alarmId := some id }
  | faults : BranchShape base [plain "faults"] { base with kind := .faults }
  | fault {id : String} : isSafeId id = true →
      BranchShape base [plain "faults", keyed "fault" "id" id]
        { base with kind := .fault, faultId := some id }
  | faultConfig {id : String} : isSafeId id = true →
      BranchShape base [plain "faults", keyed "fault" "id" id, plain "config"]
        { base with kind := .faultConfig, faultId := some id }

/-- The shapes of the native schema with the path each of them is. -/
inductive Shape (origin target : String) : List PathElem → NativePath → Prop
  | root : Shape origin target [plain "ocs"] { kind := .root, origin, target }
  | devices :
      Shape origin target [plain "ocs", plain "devices"] { kind := .devices, origin, target }
  | below {device : String} {rest : List PathElem} {native : NativePath} :
      isSafeId device = true → (target = "" ∨ target = device) →
      BranchShape (devicePath .device device origin target) rest native →
      Shape origin target (plain "ocs" :: plain "devices" :: keyed "device" "name" device :: rest)
        native

/-! ## Soundness -/

theorem portBranch_sound {device origin target : String} {elements : List PathElem}
    {native : NativePath} (h : portBranch device origin target elements = .ok native) :
    BranchShape (devicePath .device device origin target) (plain "ports" :: elements) native := by
  cases elements with
  | nil => cases h; exact .ports
  | cons port rest =>
      unfold portBranch at h
      dsimp only at h
      by_cases hname : port.name ≠ "input-port" ∧ port.name ≠ "output-port"
      · rw [if_pos hname] at h
        cases h
      rw [if_neg hname] at h
      obtain ⟨value, hvalue, hparse⟩ := bind_eq_ok.mp h
      obtain ⟨portId, hportId, hrest⟩ := bind_eq_ok.mp hparse
      clear h hparse
      obtain ⟨hport, hsafe⟩ := expectKeyed_eq_ok.mp hvalue
      obtain ⟨htext, rfl⟩ := (parsePortId_eq_ok hsafe).mp hportId
      have hside : ∃ side : Side, port.name = side.name := by
        by_cases hinput : port.name = "input-port"
        · exact ⟨.input, hinput⟩
        · exact ⟨.output, by_contra fun houtput => hname ⟨hinput, houtput⟩⟩
      obtain ⟨side, hside⟩ := hside
      rw [hside] at hport hrest
      subst hport
      cases rest with
      | nil =>
          cases hrest
          cases side
          · exact .port .input htext
          · exact .port .output htext
      | cons leaf rest =>
          cases rest with
          | nil =>
              obtain ⟨u, hleaf, hleafOk⟩ := bind_eq_ok.mp hrest
              rw [expectElement_eq_ok.mp hleaf]
              cases hleafOk
              cases side
              · exact .portState .input htext
              · exact .portState .output htext
          | cons _ _ => cases hrest

theorem connectionBranch_sound {device origin target : String} {elements : List PathElem}
    {native : NativePath} (h : connectionBranch device origin target elements = .ok native) :
    BranchShape (devicePath .device device origin target) (plain "connections" :: elements)
      native := by
  cases elements with
  | nil => cases h; exact .connections
  | cons connection rest =>
      obtain ⟨id, hid, hrest⟩ := bind_eq_ok.mp h
      clear h
      obtain ⟨rfl, hsafe⟩ := expectKeyed_eq_ok.mp hid
      cases rest with
      | nil => cases hrest; exact .connection hsafe
      | cons leaf rest =>
          cases rest with
          | nil =>
              dsimp only at hrest
              split_ifs at hrest with hname hconfig
              · obtain ⟨u, hleaf, hleafOk⟩ := bind_eq_ok.mp hrest
                rw [expectElement_eq_ok.mp hleaf, hconfig]
                cases hleafOk
                exact .connectionConfig hsafe
              · obtain ⟨u, hleaf, hleafOk⟩ := bind_eq_ok.mp hrest
                rw [expectElement_eq_ok.mp hleaf, hname.resolve_left hconfig]
                cases hleafOk
                exact .connectionState hsafe
          | cons _ _ => cases hrest

theorem alarmBranch_sound {device origin target : String} {elements : List PathElem}
    {native : NativePath} (h : alarmBranch device origin target elements = .ok native) :
    BranchShape (devicePath .device device origin target) (plain "alarms" :: elements) native := by
  cases elements with
  | nil => cases h; exact .alarms
  | cons alarm rest =>
      cases rest with
      | nil =>
          obtain ⟨id, hid, hrest⟩ := bind_eq_ok.mp h
          obtain ⟨rfl, hsafe⟩ := expectKeyed_eq_ok.mp hid
          cases hrest
          exact .alarm hsafe
      | cons _ _ => cases h

theorem faultBranch_sound {device origin target : String} {elements : List PathElem}
    {native : NativePath} (h : faultBranch device origin target elements = .ok native) :
    BranchShape (devicePath .device device origin target) (plain "faults" :: elements) native := by
  cases elements with
  | nil => cases h; exact .faults
  | cons fault rest =>
      obtain ⟨id, hid, hrest⟩ := bind_eq_ok.mp h
      clear h
      obtain ⟨rfl, hsafe⟩ := expectKeyed_eq_ok.mp hid
      cases rest with
      | nil => cases hrest; exact .fault hsafe
      | cons leaf rest =>
          cases rest with
          | nil =>
              obtain ⟨u, hleaf, hleafOk⟩ := bind_eq_ok.mp hrest
              rw [expectElement_eq_ok.mp hleaf]
              cases hleafOk
              exact .faultConfig hsafe
          | cons _ _ => cases hrest

theorem deviceBranch_sound {device origin target : String} {elements : List PathElem}
    {native : NativePath} (h : deviceBranch device origin target elements = .ok native) :
    BranchShape (devicePath .device device origin target) elements native := by
  cases elements with
  | nil => cases h; exact .device
  | cons branch rest =>
      unfold deviceBranch at h
      dsimp only at h
      split_ifs at h with hstate hcounters hdiagnostics
      all_goals
        obtain ⟨u, hbranch, hrest⟩ := bind_eq_ok.mp h
        rw [expectElement_eq_ok.mp hbranch]
      · cases hrest
        rw [List.isEmpty_iff.mp hstate.2]
        exact .deviceState
      · cases hrest
        rw [List.isEmpty_iff.mp hcounters.2]
        exact .counters
      · cases hrest
        rw [List.isEmpty_iff.mp hdiagnostics.2]
        exact .diagnostics
      · exact portBranch_sound hrest
      · exact connectionBranch_sound hrest
      · exact alarmBranch_sound hrest
      · exact faultBranch_sound hrest

theorem canonicalPath_sound {elements : List PathElem} {origin target : String}
    {native : NativePath} (h : canonicalPath elements origin target = .ok native) :
    Shape origin target elements native := by
  cases elements with
  | nil => cases h
  | cons ocs rest =>
      obtain ⟨u, hocs, h⟩ := bind_eq_ok.mp h
      rw [expectElement_eq_ok.mp hocs]
      cases rest with
      | nil => cases h; exact .root
      | cons devices rest =>
          obtain ⟨u, hdevices, h⟩ := bind_eq_ok.mp h
          rw [expectElement_eq_ok.mp hdevices]
          cases rest with
          | nil => cases h; exact .devices
          | cons element rest =>
              obtain ⟨device, hdevice, hrest⟩ := bind_eq_ok.mp h
              obtain ⟨rfl, hsafe⟩ := expectKeyed_eq_ok.mp hdevice
              split_ifs at hrest with htarget
              exact .below hsafe (by tauto) (deviceBranch_sound hrest)

/-! ## Completeness -/

theorem portBranch_complete {device origin target id : String} (side : Side) (htext : PortText id) :
    portBranch device origin target [keyed side.name "id" id] =
        .ok { devicePath side.kind device origin target with portId := some (portNumber id) } ∧
      portBranch device origin target [keyed side.name "id" id, plain "state"] =
        .ok { devicePath side.stateKind device origin target with
              portId := some (portNumber id) } := by
  have hkeyed : expectKeyed (keyed side.name "id" id) side.name "id" = .ok id :=
    expectKeyed_keyed htext.safe
  have hport := (parsePortId_eq_ok htext.safe).mpr ⟨htext, rfl⟩
  cases side <;>
    simp_all [portBranch, Side.name, Side.kind, Side.stateKind, bind, Except.bind, pure,
      Except.pure]

/-- A keyed element that ends the path, or is followed by a plain one. -/
theorem connectionBranch_complete {device origin target id : String}
    (hsafe : isSafeId id = true) :
    connectionBranch device origin target [keyed "connection" "id" id] =
        .ok { devicePath .connection device origin target with connectionId := some id } ∧
      connectionBranch device origin target [keyed "connection" "id" id, plain "config"] =
        .ok { devicePath .connectionConfig device origin target with connectionId := some id } ∧
      connectionBranch device origin target [keyed "connection" "id" id, plain "state"] =
        .ok { devicePath .connectionState device origin target with connectionId := some id } := by
  simp [connectionBranch, hsafe, bind, Except.bind, pure, Except.pure]

theorem alarmBranch_complete {device origin target id : String} (hsafe : isSafeId id = true) :
    alarmBranch device origin target [keyed "alarm" "id" id] =
      .ok { devicePath .alarm device origin target with alarmId := some id } := by
  simp [alarmBranch, hsafe, bind, Except.bind, pure, Except.pure]

theorem faultBranch_complete {device origin target id : String} (hsafe : isSafeId id = true) :
    faultBranch device origin target [keyed "fault" "id" id] =
        .ok { devicePath .fault device origin target with faultId := some id } ∧
      faultBranch device origin target [keyed "fault" "id" id, plain "config"] =
        .ok { devicePath .faultConfig device origin target with faultId := some id } := by
  simp [faultBranch, hsafe, bind, Except.bind, pure, Except.pure]

theorem deviceBranch_complete {device origin target : String} {elements : List PathElem}
    {native : NativePath}
    (h : BranchShape (devicePath .device device origin target) elements native) :
    deviceBranch device origin target elements = .ok native := by
  cases h with
  | port side htext => exact (portBranch_complete side htext).1
  | portState side htext => exact (portBranch_complete side htext).2
  | connection hsafe => exact (connectionBranch_complete hsafe).1
  | connectionConfig hsafe => exact (connectionBranch_complete hsafe).2.1
  | connectionState hsafe => exact (connectionBranch_complete hsafe).2.2
  | alarm hsafe => exact alarmBranch_complete hsafe
  | fault hsafe => exact (faultBranch_complete hsafe).1
  | faultConfig hsafe => exact (faultBranch_complete hsafe).2
  | _ => rfl

theorem canonicalPath_complete {elements : List PathElem} {origin target : String}
    {native : NativePath} (h : Shape origin target elements native) :
    canonicalPath elements origin target = .ok native := by
  cases h with
  | root => rfl
  | devices => rfl
  | @below device rest _ hsafe htarget hbranch =>
      have hnot : ¬(target ≠ "" ∧ target ≠ device) := by tauto
      calc canonicalPath _ origin target
          = (expectKeyed (keyed "device" "name" device) "device" "name" >>= fun name =>
              if target ≠ "" ∧ target ≠ name then
                .error "target does not match the device path key"
              else deviceBranch name origin target rest) := rfl
        _ = deviceBranch device origin target rest := by
            rw [expectKeyed_keyed hsafe]
            exact if_neg hnot
        _ = .ok native := deviceBranch_complete hbranch

/-! ## Leading zeros -/

/-- The digits of a port id without its leading zeros. -/
def significant (digits : List Char) : List Char := digits.dropWhile (· = '0')

theorem digit_bounds {digit : Char} (h : digit.isDigit = true) :
    48 ≤ digit.toNat ∧ digit.toNat ≤ 57 :=
  Char.isDigit_iff_toNat.mp h

theorem digit_eq {a b : Char} (ha : a.isDigit = true) (hb : b.isDigit = true)
    (h : a.toNat - 48 = b.toNat - 48) : a = b := by
  have := digit_bounds ha
  have := digit_bounds hb
  exact Char.toNat_inj.mp (by omega)

theorem ofDigitChars_concat (digits : List Char) (digit : Char) :
    Nat.ofDigitChars 10 (digits ++ [digit]) 0 =
      10 * Nat.ofDigitChars 10 digits 0 + (digit.toNat - 48) := by
  rw [Nat.ofDigitChars_append, Nat.ofDigitChars_cons, Nat.ofDigitChars_nil]
  rfl

theorem significant_concat {digits digits' : List Char} (digit : Char)
    (h : significant digits = significant digits') :
    significant (digits ++ [digit]) = significant (digits' ++ [digit]) := by
  simp only [significant] at h ⊢
  rw [List.dropWhile_append, List.dropWhile_append, h]

/-- A text of the number 0 has no significant digit. -/
theorem significant_eq_nil {digits : List Char} (hdigits : ∀ c ∈ digits, c.isDigit = true)
    (hzero : Nat.ofDigitChars 10 digits 0 = 0) : significant digits = [] := by
  induction digits using List.reverseRecOn with
  | nil => rfl
  | append_singleton digits digit ih =>
      rw [ofDigitChars_concat] at hzero
      have hdigit : digit = '0' :=
        digit_eq (hdigits digit (by simp)) (by decide)
          (show digit.toNat - 48 = 0 by omega)
      have hpre : significant digits = significant [] :=
        ih (fun c hc => hdigits c (by simp [hc])) (by omega)
      rw [significant_concat digit hpre, hdigit]
      rfl

/-- Two texts of one number differ in leading zeros only. The induction removes the last digit
of the first text, and the second text either has the same last digit or is empty. -/
theorem significant_eq {digits digits' : List Char} (hdigits : ∀ c ∈ digits, c.isDigit = true)
    (hdigits' : ∀ c ∈ digits', c.isDigit = true)
    (h : Nat.ofDigitChars 10 digits 0 = Nat.ofDigitChars 10 digits' 0) :
    significant digits = significant digits' := by
  induction digits using List.reverseRecOn generalizing digits' with
  | nil => exact (significant_eq_nil hdigits' h.symm).symm
  | append_singleton digits digit ih =>
      cases digits' using List.reverseRecOn with
      | nil => exact significant_eq_nil hdigits h
      | append_singleton digits' digit' =>
          rw [ofDigitChars_concat, ofDigitChars_concat] at h
          have hdigit := hdigits digit (by simp)
          have hdigit' := hdigits' digit' (by simp)
          have hlast : digit = digit' := by
            have := digit_bounds hdigit
            have := digit_bounds hdigit'
            exact digit_eq hdigit hdigit' (by omega)
          rw [hlast] at h ⊢
          apply significant_concat
          exact ih (fun c hc => hdigits c (by simp [hc])) (fun c hc => hdigits' c (by simp [hc]))
            (by omega)

/-- The same element, up to leading zeros of a port id. -/
inductive SameElement : PathElem → PathElem → Prop
  | same (element : PathElem) : SameElement element element
  | portId (side : Side) {id id' : String} : significant id.toList = significant id'.toList →
      SameElement (keyed side.name "id" id) (keyed side.name "id" id')

theorem sameElements (elements : List PathElem) : List.Forall₂ SameElement elements elements :=
  List.forall₂_same.mpr fun element _ => .same element

theorem SameElement.euclidean {a b c : PathElem} (h : SameElement a b) (h' : SameElement c b) :
    SameElement a c := by
  cases h with
  | same =>
      cases h' with
      | same => exact .same _
      | portId side hdigits => exact .portId side hdigits.symm
  | @portId side id id' hdigits =>
      generalize hb : keyed side.name "id" id' = b at h'
      cases h' with
      | same => exact hb ▸ .portId side hdigits
      | @portId side' id₂ id₂' hdigits' =>
          have hname : side.name = side'.name := congrArg PathElem.name hb
          have hside : side = side' := by
            cases side <;> cases side' <;> first | rfl | simp [Side.name] at hname
          have hid : id' = id₂' := by
            have hentries := congrArg (fun element => element.key.entries) hb
            simpa [keyed] using hentries
          subst hside hid
          exact .portId side (hdigits.trans hdigits'.symm)

theorem sameElements_euclidean {elements elements' spelling : List PathElem}
    (h : List.Forall₂ SameElement elements spelling)
    (h' : List.Forall₂ SameElement elements' spelling) :
    List.Forall₂ SameElement elements elements' := by
  induction h generalizing elements' with
  | nil => cases h'; exact .nil
  | cons hhead htail ih =>
      cases h' with
      | cons hhead' htail' => exact .cons (hhead.euclidean hhead') (ih htail')

/-! ## One spelling for each result -/

def portText (portId : Option Nat) : String := Nat.repr (portId.getD 0)

/-- The elements of a result below its device. -/
def NativePath.branch (native : NativePath) : List PathElem :=
  let input := keyed "input-port" "id" (portText native.portId)
  let output := keyed "output-port" "id" (portText native.portId)
  let connection := keyed "connection" "id" (native.connectionId.getD "")
  let alarm := keyed "alarm" "id" (native.alarmId.getD "")
  let fault := keyed "fault" "id" (native.faultId.getD "")
  match native.kind with
  | .root | .devices | .device => []
  | .deviceState => [plain "state"]
  | .counters => [plain "counters"]
  | .diagnostics => [plain "diagnostics"]
  | .ports => [plain "ports"]
  | .inputPort => [plain "ports", input]
  | .inputPortState => [plain "ports", input, plain "state"]
  | .outputPort => [plain "ports", output]
  | .outputPortState => [plain "ports", output, plain "state"]
  | .connections => [plain "connections"]
  | .connection => [plain "connections", connection]
  | .connectionConfig => [plain "connections", connection, plain "config"]
  | .connectionState => [plain "connections", connection, plain "state"]
  | .alarms => [plain "alarms"]
  | .alarm => [plain "alarms", alarm]
  | .faults => [plain "faults"]
  | .fault => [plain "faults", fault]
  | .faultConfig => [plain "faults", fault, plain "config"]

/-- The elements of a result, a port id without leading zeros. -/
def NativePath.spelling (native : NativePath) : List PathElem :=
  match native.kind with
  | .root => [plain "ocs"]
  | .devices => [plain "ocs", plain "devices"]
  | _ => plain "ocs" :: plain "devices" :: keyed "device" "name" (native.device.getD "") ::
      native.branch

theorem PortText.sameElement {id : String} (side : Side) (h : PortText id) :
    SameElement (keyed side.name "id" id)
      (keyed side.name "id" (portText (some (portNumber id)))) := by
  apply SameElement.portId
  have htoDigits : (portText (some (portNumber id))).toList = Nat.toDigits 10 (portNumber id) := by
    simp [portText, Nat.repr]
  rw [htoDigits]
  apply significant_eq (List.all_eq_true.mp h.digits)
  · exact fun c hc => Nat.isDigit_of_mem_toDigits (by decide) (by decide) hc
  · rw [Nat.ofDigitChars_ten_toDigits, portNumber]

theorem BranchShape.spelling {base native : NativePath} {elements : List PathElem}
    (h : BranchShape base elements native) :
    native.kind ≠ .root ∧ native.kind ≠ .devices ∧ native.device = base.device ∧
      List.Forall₂ SameElement elements native.branch := by
  cases h with
  | port side htext =>
      cases side
      all_goals
        refine ⟨nofun, nofun, rfl, .cons (.same _) (.cons ?_ .nil)⟩
      · exact htext.sameElement .input
      · exact htext.sameElement .output
  | portState side htext =>
      cases side
      all_goals
        refine ⟨nofun, nofun, rfl, .cons (.same _) (.cons ?_ (sameElements _))⟩
      · exact htext.sameElement .input
      · exact htext.sameElement .output
  | _ => exact ⟨nofun, nofun, rfl, sameElements _⟩

theorem Shape.spelling {origin target : String} {elements : List PathElem} {native : NativePath}
    (h : Shape origin target elements native) :
    List.Forall₂ SameElement elements native.spelling := by
  cases h with
  | root => exact sameElements _
  | devices => exact sameElements _
  | @below device rest _ hsafe htarget hbranch =>
      obtain ⟨hroot, hdevices, hdevice, hrest⟩ := hbranch.spelling
      have hspelling : native.spelling = plain "ocs" :: plain "devices" ::
          keyed "device" "name" device :: native.branch := by
        unfold NativePath.spelling
        rw [hdevice]
        split <;> first | contradiction | rfl
      rw [hspelling]
      exact .cons (.same _) (.cons (.same _) (.cons (.same _) hrest))

/-! ## Prefixes -/

section
variable (pre : Option Path) (path : Path)

def joined : List PathElem := (pre.getD {}).elem ++ path.elem

def mergedOrigin : String := orText path.origin (pre.getD {}).origin

def mergedTarget : String := orText path.target (pre.getD {}).target

/-- Neither message uses the deprecated field, and what both say agrees and is allowed. -/
structure Compatible : Prop where
  prefixElement : (pre.getD {}).element = []
  element : path.element = []
  origins : (pre.getD {}).origin = "" ∨ path.origin = "" ∨ (pre.getD {}).origin = path.origin
  targets : (pre.getD {}).target = "" ∨ path.target = "" ∨ (pre.getD {}).target = path.target
  origin : mergedOrigin pre path = "" ∨ mergedOrigin pre path = nativeOrigin
  target : mergedTarget pre path = "" ∨ isSafeId (mergedTarget pre path) = true

end

variable {pre pre' : Option Path} {path path' : Path}

theorem pathElements_eq_ok (label : String) {elements : List PathElem} :
    pathElements path label = .ok elements ↔ path.element = [] ∧ elements = path.elem := by
  unfold pathElements
  split_ifs with h
  · simp [h]
  · simp [not_not.mp h, eq_comm]

/-- The test of both kinds of disagreement. -/
theorem not_differ_iff {a b : String} :
    ¬(a ≠ "" ∧ b ≠ "" ∧ a ≠ b) ↔ a = "" ∨ b = "" ∨ a = b := by
  rw [not_and_or, not_and_or, not_ne_iff, not_ne_iff, not_ne_iff]

theorem not_unsafe_iff {target : String} :
    ¬(target ≠ "" ∧ isSafeId target = false) ↔ target = "" ∨ isSafeId target = true := by
  rw [not_and_or, not_ne_iff, Bool.not_eq_false]

theorem not_foreign_iff {origin : String} :
    ¬(origin ≠ "" ∧ origin ≠ nativeOrigin) ↔ origin = "" ∨ origin = nativeOrigin := by
  rw [not_and_or, not_ne_iff, not_ne_iff]

theorem combinePaths_sound {elements : List PathElem} {origin target : String}
    (h : combinePaths pre path = .ok (elements, origin, target)) :
    Compatible pre path ∧ elements = joined pre path ∧ origin = mergedOrigin pre path ∧
      target = mergedTarget pre path := by
  unfold combinePaths at h
  obtain ⟨prefixElements, hpre, hrest⟩ := bind_eq_ok.mp h
  obtain ⟨ownElements, hpath, hchecks⟩ := bind_eq_ok.mp hrest
  clear h hrest
  obtain ⟨hprefixElement, rfl⟩ := (pathElements_eq_ok _).mp hpre
  obtain ⟨helement, rfl⟩ := (pathElements_eq_ok _).mp hpath
  dsimp only at hchecks
  split_ifs at hchecks with horigins htargets horigin htarget
  have hcompatible : Compatible pre path :=
    { prefixElement := hprefixElement
      element := helement
      origins := not_differ_iff.mp horigins
      targets := not_differ_iff.mp htargets
      origin := not_foreign_iff.mp horigin
      target := not_unsafe_iff.mp htarget }
  have htriple := Except.ok.inj hchecks
  simp only [Prod.mk.injEq] at htriple
  exact ⟨hcompatible, htriple.1.symm, htriple.2.1.symm, htriple.2.2.symm⟩

theorem combinePaths_complete (h : Compatible pre path) :
    combinePaths pre path =
      .ok (joined pre path, mergedOrigin pre path, mergedTarget pre path) := by
  unfold combinePaths
  dsimp only
  rw [(pathElements_eq_ok "prefix").mpr ⟨h.prefixElement, rfl⟩,
    (pathElements_eq_ok "path").mpr ⟨h.element, rfl⟩]
  simp only [bind, Except.bind]
  rw [if_neg (not_differ_iff.mpr h.origins), if_neg (not_differ_iff.mpr h.targets)]
  rw [if_neg, if_neg]
  · rfl
  · exact not_unsafe_iff.mpr h.target
  · exact not_foreign_iff.mpr h.origin

theorem parsePath_eq_ok {native : NativePath} :
    parsePath pre path = .ok native ↔ Compatible pre path ∧
      Shape (mergedOrigin pre path) (mergedTarget pre path) (joined pre path) native := by
  constructor
  · intro h
    obtain ⟨⟨elements, origin, target⟩, hcombine, hcanonical⟩ := bind_eq_ok.mp h
    obtain ⟨hcompatible, rfl, rfl, rfl⟩ := combinePaths_sound hcombine
    exact ⟨hcompatible, canonicalPath_sound hcanonical⟩
  · rintro ⟨hcompatible, hshape⟩
    unfold parsePath
    rw [combinePaths_complete hcompatible]
    exact canonicalPath_complete hshape

theorem parsePath_congr (h : Compatible pre path) (h' : Compatible pre' path')
    (helements : joined pre path = joined pre' path')
    (horigin : mergedOrigin pre path = mergedOrigin pre' path')
    (htarget : mergedTarget pre path = mergedTarget pre' path') :
    parsePath pre path = parsePath pre' path' := by
  unfold parsePath
  rw [combinePaths_complete h, combinePaths_complete h', helements, horigin, htarget]

/-- Elements may move between the prefix and the path, errors included. -/
theorem parsePath_move (pre path : Path) (first middle last : List PathElem) :
    parsePath (some { pre with elem := first ++ middle }) { path with elem := last } =
      parsePath (some { pre with elem := first }) { path with elem := middle ++ last } := by
  simp only [parsePath, combinePaths, pathElements, Option.getD_some]
  by_cases hpre : pre.element = []
  · by_cases hpath : path.element = []
    · simp only [hpre, hpath, ne_eq, not_true_eq_false, if_false, bind, Except.bind,
        List.append_assoc]
    · simp [hpre, hpath, bind, Except.bind]
  · simp [hpre, bind, Except.bind]

/-- The parser accepts the native grammar and nothing else; a prefix only contributes its
elements, its origin and its target; and the result determines the elements. -/
theorem parsePath_native_grammar :
    (∀ (pre : Option Path) (path : Path) (native : NativePath),
      parsePath pre path = .ok native ↔ Compatible pre path ∧
        Shape (mergedOrigin pre path) (mergedTarget pre path) (joined pre path) native) ∧
    (∀ (pre pre' : Option Path) (path path' : Path),
      Compatible pre path → Compatible pre' path' → joined pre path = joined pre' path' →
      mergedOrigin pre path = mergedOrigin pre' path' →
      mergedTarget pre path = mergedTarget pre' path' →
      parsePath pre path = parsePath pre' path') ∧
    (∀ (pre path : Path) (first middle last : List PathElem),
      parsePath (some { pre with elem := first ++ middle }) { path with elem := last } =
        parsePath (some { pre with elem := first }) { path with elem := middle ++ last }) ∧
    (∀ path : Path, parsePath none path = parsePath (some {}) path) ∧
    (∀ (pre pre' : Option Path) (path path' : Path) (native : NativePath),
      parsePath pre path = .ok native → parsePath pre' path' = .ok native →
      List.Forall₂ SameElement (joined pre path) (joined pre' path')) := by
  refine ⟨fun _ _ _ => parsePath_eq_ok, fun _ _ _ _ h h' => parsePath_congr h h', parsePath_move,
    fun _ => rfl, ?_⟩
  intro pre pre' path path' native h h'
  have hspelling := (parsePath_eq_ok.mp h).2.spelling
  have hspelling' := (parsePath_eq_ok.mp h').2.spelling
  exact sameElements_euclidean hspelling hspelling'

/-- The port 7 of ocs0, once with leading zeros and split before its device. -/
theorem parsePath_native_grammar_port :
    List.Forall₂ SameElement
      (joined (some { elem := [plain "ocs", plain "devices"], origin := nativeOrigin })
        { elem := [keyed "device" "name" "ocs0", plain "ports", keyed "input-port" "id" "007"] })
      (joined none
        { elem := [plain "ocs", plain "devices", keyed "device" "name" "ocs0", plain "ports",
            keyed "input-port" "id" "7"]
          origin := nativeOrigin }) :=
  parsePath_native_grammar.2.2.2.2 _ _ _ _
    { kind := .inputPort, device := some "ocs0", portId := some 7, origin := nativeOrigin }
    (by decide) (by decide)

end MiniOcs.Gnmi.PathParser
