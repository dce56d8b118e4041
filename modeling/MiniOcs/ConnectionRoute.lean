import MiniOcs.Gnmi.FaultRequest
import MiniOcs.Gnmi.SetThenGet
import MiniOcs.Redis.Events

/-!
# The way of a connection

Connections are chosen in the browser or on the command line and become a Set request. The gNMI
server makes of it the plan that was meant or refuses it, a commit of the plan stores what was
chosen and nothing else, and a read shows it.
-/
namespace MiniOcs.ConnectionRoute
open Gnmi Redis
open Json (bind_eq_ok)
open PathParser (Path protobufPath)

/-! ## The client -/

structure ConnectionSpec where
  connectionId : String
  inputPort : Int
  outputPort : Int
  deriving DecidableEq, Repr

def encodeUtf8 (text : String) : List UInt8 := text.toList.flatMap String.utf8EncodeChar

def updateMembers (spec : ConnectionSpec) : List (String × Json) :=
  [("admin-status", .str "ENABLED"), ("input-port", .int spec.inputPort),
    ("output-port", .int spec.outputPort)]

def updatePayload (spec : ConnectionSpec) : List UInt8 :=
  encodeUtf8 (dumps (.obj (updateMembers spec)))

/-- `_connection_update` -/
def connectionUpdate (device : String) (spec : ConnectionSpec) : Except String Update := do
  let path ← protobufPath (PathParser.connectionPath device spec.connectionId "config")
  return ⟨path, .jsonIetf (updatePayload spec)⟩

/-- The request for a list of updates. -/
def updatesRequest (replace : Bool) (updates : List Update) : SetRequest :=
  if replace then { replace := updates } else { update := updates }

/-- The request of `set_connections`. -/
def setConnectionsRequest (device : String) (connections : List ConnectionSpec) (replace : Bool) :
    Except String SetRequest :=
  if connections = [] then .error "at least one connection is required"
  else do
    let updates ← connections.mapM (connectionUpdate device)
    return updatesRequest replace updates

/-- The request of `delete_connection`. -/
def deleteConnectionRequest (device connectionId : String) : Except String SetRequest := do
  let path ← protobufPath (PathParser.connectionPath device connectionId "")
  return { delete := [path] }

/-! ## What the server makes of it -/

def portLimit : Nat := 2147483647

/-- The ports of a connection are in range, and the values have them. -/
def Ranged (spec : ConnectionSpec) (values : OperationValues) : Prop :=
  (∃ port, 1 ≤ port ∧ port ≤ portLimit ∧ spec.inputPort = (port : Nat) ∧
    values.inputPort = some port) ∧
  (∃ port, 1 ≤ port ∧ port ≤ portLimit ∧ spec.outputPort = (port : Nat) ∧
    values.outputPort = some port) ∧
  values.adminStatus = some adminEnabled

/-- The operation that a connection stands for; the id of an operation is safe. -/
structure Meant (replace : Bool) (spec : ConnectionSpec) (operation : SetOperation) : Prop where
  kind : operation.kind = if replace then .replace else .update
  connectionId : operation.connectionId.text = spec.connectionId
  ranged : Ranged spec operation.values

theorem mapM_eq_ok {ε α β : Type} {read : α → Except ε β} {xs : List α} {ys : List β} :
    xs.mapM read = .ok ys ↔ List.Forall₂ (fun x y => read x = .ok y) xs ys := by
  constructor
  · exact Json.forall₂_of_mapM
  · intro h
    induction h with
    | nil => rfl
    | cons hread _ ih =>
        rw [List.mapM_cons]
        exact bind_eq_ok.mpr ⟨_, hread, bind_eq_ok.mpr ⟨_, ih, rfl⟩⟩

section

variable {loads : List UInt8 → Option Json} {device : String} {spec : ConnectionSpec}

theorem connectionLeaf_unique {leaf leaf' : String} {kind kind' : PathParser.PathKind}
    (h : PathParser.ConnectionLeaf leaf kind) (h' : PathParser.ConnectionLeaf leaf' kind')
    (hleaf : leaf = leaf') : kind' = kind := by
  cases h <;> cases h' <;> first | rfl | exact absurd hleaf (by decide)

/-- What the server reads in a path of the client. -/
theorem parsePath_connection {connectionId leaf : String} {kind : PathParser.PathKind}
    (hleaf : PathParser.ConnectionLeaf leaf kind) {path : Path}
    (hpath : protobufPath (PathParser.connectionPath device connectionId leaf) = .ok path)
    (native : PathParser.NativePath) : PathParser.parsePath (some {}) path = .ok native ↔
      isSafeId device = true ∧ isSafeId connectionId = true ∧
        native = { kind, device := some device, connectionId := some connectionId } := by
  have hparse : PathParser.parsePath (some {}) path = .ok native ↔ PathParser.parsePathString
      (PathParser.connectionPath device connectionId leaf) = .ok native := by
    unfold PathParser.parsePathString
    rw [hpath]
    exact Iff.rfl
  rw [hparse, PathParser.connectionPath_eq_ok]
  constructor
  · rintro ⟨hdevice, hid, kind', hleaf', rfl⟩
    rw [connectionLeaf_unique hleaf hleaf' rfl]
    exact ⟨hdevice, hid, rfl⟩
  · rintro ⟨hdevice, hid, rfl⟩
    exact ⟨hdevice, hid, _, hleaf, rfl⟩

theorem connectionUpdate_path {update : Update} (h : connectionUpdate device spec = .ok update) :
    update.val = .jsonIetf (updatePayload spec) ∧ ∀ native,
      PathParser.parsePath (some {}) update.path = .ok native ↔
        isSafeId device = true ∧ isSafeId spec.connectionId = true ∧
          native = { kind := .connectionConfig, device := some device,
                     connectionId := some spec.connectionId } := by
  obtain ⟨path, hpath, hupdate⟩ := bind_eq_ok.mp h
  cases hupdate
  exact ⟨rfl, parsePath_connection .config hpath⟩

theorem decodePort_int {name : String} {port : Int} {decoded : List (String × Json)}
    {value : Option Nat} (h : decoded.lookup name = some (.int port)) :
    decodePort name decoded = .ok value ↔
      ∃ n, 1 ≤ n ∧ n ≤ portLimit ∧ port = (n : Nat) ∧ value = some n := by
  simp only [decodePort, h]
  split_ifs with hrange
  · simp only [false_iff, portLimit]
    rintro ⟨n, hlow, hhigh, rfl, -⟩
    omega
  · rw [not_or] at hrange
    simp only [Except.ok.injEq, portLimit]
    constructor
    · rintro rfl
      exact ⟨port.toNat, by omega, by omega, by omega, rfl⟩
    · rintro ⟨n, -, -, rfl, rfl⟩
      simp

theorem decodeFields_updateMembers {values : OperationValues} :
    decodeFields (updateMembers spec) = .ok values ↔ Ranged spec values := by
  have hinput : (updateMembers spec).lookup "input-port" = some (.int spec.inputPort) := by
    simp [updateMembers, List.lookup]
  have houtput : (updateMembers spec).lookup "output-port" = some (.int spec.outputPort) := by
    simp [updateMembers, List.lookup]
  have hadmin : decodeAdminStatus (updateMembers spec) = .ok (some adminEnabled) := by
    simp [decodeAdminStatus, updateMembers, adminEnabled]
  have hexpected : (((updateMembers spec).map Prod.fst).filter (· ∉ allowedFields)) = [] := by
    simp [updateMembers, allowedFields]
  have hne : updateMembers spec ≠ [] := by simp [updateMembers]
  unfold decodeFields
  dsimp only
  rw [if_neg (not_not.mpr hexpected), if_neg hne]
  simp only [bind_eq_ok, decodePort_int hinput, decodePort_int houtput, hadmin]
  constructor
  · rintro ⟨inputPort, hin, outputPort, hout, adminStatus, hadmin', hvalues⟩
    cases hadmin'
    cases hvalues
    exact ⟨hin, hout, rfl⟩
  · rintro ⟨hin, hout, hadmin'⟩
    refine ⟨values.inputPort, hin, values.outputPort, hout, _, rfl, ?_⟩
    rw [← hadmin']
    rfl

theorem length_encodeUtf8 (text : String) : (encodeUtf8 text).length ≤ 4 * text.length := by
  rw [← String.length_toList, encodeUtf8]
  induction text.toList with
  | nil => exact Nat.le_refl _
  | cons c rest ih =>
      have hc := Char.utf8Size_le_four c
      rw [List.flatMap_cons, List.length_append, List.length_cons, String.length_utf8EncodeChar]
      omega

/-- The payload of ports in range is no larger than the server accepts. -/
theorem length_updatePayload {values : OperationValues} (h : Ranged spec values) :
    (updatePayload spec).length ≤ maxJsonIetfBytes := by
  obtain ⟨⟨input, -, hinput, hin, -⟩, ⟨output, -, houtput, hout, -⟩, -⟩ := h
  have hdigits : ∀ n ≤ portLimit, (Nat.toDigits 10 n).length ≤ 10 := by
    intro n hn
    unfold portLimit at hn
    exact (Nat.length_toDigits_le_iff (by decide) (by decide)).mpr (by omega)
  have hlength : (dumps (.obj (updateMembers spec))).length ≤ 100 := by
    have hinputs := hdigits input hinput
    have houtputs := hdigits output houtput
    have hnames : (Json.renderString true "admin-status").length = 14 ∧
        (Json.renderString true "ENABLED").length = 9 ∧
        (Json.renderString true "input-port").length = 12 ∧
        (Json.renderString true "output-port").length = 13 := by decide
    have hint : ∀ n : Nat, Json.renderInt n = Nat.toDigits 10 n := by
      intro n
      simp [Json.renderInt]
    rw [dumps, String.length_ofList, updateMembers, hin, hout]
    simp only [Json.render, Json.renderMembers, hint, List.cons_append, List.length_cons,
      List.length_append, List.length_nil, hnames]
    omega
  have hbytes := length_encodeUtf8 (dumps (.obj (updateMembers spec)))
  unfold updatePayload maxJsonIetfBytes
  omega

theorem decodeJsonIetf_payload (hloads : loads (updatePayload spec) = some (.obj (updateMembers spec)))
    {values : OperationValues} :
    decodeJsonIetf loads (.jsonIetf (updatePayload spec)) = .ok values ↔ Ranged spec values := by
  have hunique : uniqueObjects (.obj (updateMembers spec)) = .ok () := by
    simp [uniqueObjects, uniqueMembers, updateMembers, repeated]
  have hdecode : decodeJsonIetf loads (.jsonIetf (updatePayload spec)) =
      if maxJsonIetfBytes < (updatePayload spec).length then
        .error (.invalidArgument "JSON_IETF payload exceeds 65536 bytes")
      else decodeFields (updateMembers spec) := by
    simp only [decodeJsonIetf, hloads, hunique]
    rfl
  rw [hdecode]
  constructor
  · intro h
    split_ifs at h
    exact decodeFields_updateMembers.mp h
  · intro h
    rw [if_neg (Nat.not_lt.mpr (length_updatePayload h))]
    exact decodeFields_updateMembers.mpr h

theorem connectionPath_of_parse {path : Path} {connectionId : String} {kind : PathParser.PathKind}
    {container : Bool} (hkind : kind = .connectionConfig ∨ (container = true ∧ kind = .connection))
    (hpath : ∀ native, PathParser.parsePath (some {}) path = .ok native ↔
      isSafeId device = true ∧ isSafeId connectionId = true ∧
        native = { kind, device := some device, connectionId := some connectionId })
    {target : ConnectionTarget} : Gnmi.connectionPath {} path container = .ok target ↔
      isSafeId device = true ∧ target.device = device ∧ target.connectionId.text = connectionId := by
  unfold Gnmi.connectionPath
  constructor
  · intro htarget
    split at htarget
    · cases htarget
    · rename_i native hnative
      obtain ⟨hdevice, hid, rfl⟩ := (hpath native).mp hnative
      simp only [hkind, if_true, dif_pos hid] at htarget
      cases htarget
      exact ⟨hdevice, rfl, rfl⟩
  · rintro ⟨hdevice, htarget, hid⟩
    have hsafe : isSafeId connectionId = true := hid ▸ target.connectionId.safe
    rw [(hpath _).mpr ⟨hdevice, hsafe, rfl⟩]
    simp only [hkind, if_true, dif_pos hsafe]
    obtain ⟨targetDevice, ⟨text, safe⟩⟩ := target
    cases htarget
    cases hid
    rfl

/-- How the server reads an element of the list. -/
def readUpdate (loads : List UInt8 → Option Json) (replace : Bool) (update : Update) :
    Except SetError Targeted :=
  if replace then parseReplace loads {} update else parseUpdate loads {} update

theorem readUpdate_eq_ok (hloads : loads (updatePayload spec) = some (.obj (updateMembers spec)))
    {update : Update} (h : connectionUpdate device spec = .ok update) {replace : Bool}
    {targeted : Targeted} : readUpdate loads replace update = .ok targeted ↔
      isSafeId device = true ∧ targeted.1 = device ∧ Meant replace spec targeted.2 := by
  have hval := (connectionUpdate_path h).1
  have hread : readUpdate loads replace update = .ok targeted ↔ ∃ target values,
      Gnmi.connectionPath {} update.path false = .ok target ∧ Ranged spec values ∧
      targeted = (target.device, { kind := if replace then .replace else .update
                                   connectionId := target.connectionId, values }) := by
    unfold readUpdate parseReplace parseUpdate
    rw [hval]
    cases replace with
    | false =>
        simp only [Bool.false_eq_true, if_false, bind_eq_ok, decodeJsonIetf_payload hloads]
        constructor
        · rintro ⟨target, htarget, values, hranged, htargeted⟩
          cases htargeted
          exact ⟨target, values, htarget, hranged, rfl⟩
        · rintro ⟨target, values, htarget, hranged, rfl⟩
          exact ⟨target, htarget, values, hranged, rfl⟩
    | true =>
        simp only [if_true, bind_eq_ok, decodeJsonIetf_payload hloads]
        constructor
        · rintro ⟨target, htarget, values, hranged, htargeted⟩
          split_ifs at htargeted
          cases htargeted
          exact ⟨target, values, htarget, hranged, rfl⟩
        · rintro ⟨target, values, htarget, hranged, rfl⟩
          refine ⟨target, htarget, values, hranged, ?_⟩
          obtain ⟨⟨input, -, -, -, hinput⟩, ⟨output, -, -, -, houtput⟩, -⟩ := hranged
          rw [if_neg (by simp [hinput, houtput])]
          rfl
  rw [hread]
  simp only [connectionPath_of_parse (.inl rfl) (connectionUpdate_path h).2]
  constructor
  · rintro ⟨target, values, ⟨hdevice, htarget, hid⟩, hranged, rfl⟩
    exact ⟨hdevice, htarget, rfl, hid, hranged⟩
  · rintro ⟨hdevice, htarget, hmeant⟩
    refine ⟨⟨targeted.1, targeted.2.connectionId⟩, targeted.2.values,
      ⟨hdevice, htarget, hmeant.connectionId⟩, hmeant.ranged, ?_⟩
    rw [← hmeant.kind]

/-- A safe connection of a safe device has an update. -/
theorem connectionUpdate_safe (hdevice : isSafeId device = true)
    (hid : isSafeId spec.connectionId = true) : ∃ update, connectionUpdate device spec = .ok update := by
  have hparse := PathParser.connectionPath_eq_ok.mpr ⟨hdevice, hid, _, .config, rfl⟩
  obtain ⟨path, hpath, -⟩ := bind_eq_ok.mp hparse
  exact ⟨_, bind_eq_ok.mpr ⟨path, hpath, rfl⟩⟩

/-- The plan of operations that are all on one device. -/
theorem plan_of_targeted {targeted : List Targeted} {planId : Nat} {plan : SetPlan} :
    (match (targeted.map Prod.fst).dedup with
      | [device] => (.ok { device, requestId := planId, operations := targeted.map Prod.snd } :
          Except SetError SetPlan)
      | _ => .error (.invalidArgument "one SetRequest must target exactly one device")) = .ok plan ↔
    ∃ planned, (targeted.map Prod.fst).dedup = [planned] ∧
      plan = { device := planned, requestId := planId, operations := targeted.map Prod.snd } := by
  constructor
  · intro h
    split at h
    · rename_i planned hdedup
      cases h
      exact ⟨planned, hdedup, rfl⟩
    · cases h
  · rintro ⟨planned, hdedup, rfl⟩
    rw [hdedup]

theorem parseSetRequest_read {replace : Bool} {updates : List Update} (hne : updates ≠ [])
    {planId : Nat} {plan : SetPlan} :
    parseSetRequest loads (updatesRequest replace updates) planId = .ok plan ↔
      ∃ targeted, updates.mapM (readUpdate loads replace) = .ok targeted ∧
        ∃ planned, (targeted.map Prod.fst).dedup = [planned] ∧
          plan = { device := planned, requestId := planId,
                   operations := targeted.map Prod.snd } := by
  simp only [← plan_of_targeted]
  unfold parseSetRequest updatesRequest
  cases replace with
  | false =>
      rw [if_neg (by simp), if_neg (by simp [hne])]
      constructor
      · intro h
        obtain ⟨deletes, hdeletes, h⟩ := bind_eq_ok.mp h
        cases hdeletes
        obtain ⟨replaces, hreplaces, h⟩ := bind_eq_ok.mp h
        cases hreplaces
        exact bind_eq_ok.mp h
      · intro h
        exact bind_eq_ok.mpr ⟨[], rfl, bind_eq_ok.mpr ⟨[], rfl, bind_eq_ok.mpr h⟩⟩
  | true =>
      rw [if_neg (by simp), if_neg (by simp [hne])]
      constructor
      · intro h
        obtain ⟨deletes, hdeletes, h⟩ := bind_eq_ok.mp h
        cases hdeletes
        obtain ⟨targeted, htargeted, h⟩ := bind_eq_ok.mp h
        obtain ⟨updates, hupdates, h⟩ := bind_eq_ok.mp h
        cases hupdates
        simp only [List.reverse_nil, List.nil_append, List.append_nil] at h
        exact ⟨targeted, htargeted, h⟩
      · rintro ⟨targeted, htargeted, h⟩
        refine bind_eq_ok.mpr ⟨[], rfl, bind_eq_ok.mpr ⟨targeted, htargeted, ?_⟩⟩
        refine bind_eq_ok.mpr ⟨[], rfl, ?_⟩
        simp only [List.nil_append, List.append_nil]
        exact h

theorem parseSetRequest_updates {replace : Bool} {updates : List Update} {planId : Nat}
    {plan : SetPlan} :
    parseSetRequest loads (updatesRequest replace updates) planId = .ok plan ↔
      updates ≠ [] ∧ ∃ targeted planned, updates.mapM (readUpdate loads replace) = .ok targeted ∧
        (targeted.map Prod.fst).dedup = [planned] ∧
        plan = { device := planned, requestId := planId, operations := targeted.map Prod.snd } := by
  by_cases hempty : updates = []
  · subst hempty
    cases replace <;> simp [updatesRequest, parseSetRequest]
  · rw [parseSetRequest_read hempty]
    simp only [ne_eq, hempty, not_false_eq_true, true_and, exists_and_left]

theorem isFaultRequest_updates {connections : List ConnectionSpec} {updates : List Update}
    (h : List.Forall₂ (fun spec update => connectionUpdate device spec = .ok update) connections
      updates) (replace : Bool) : isFaultRequest (updatesRequest replace updates) = false := by
  have hpaths : allPaths (updatesRequest replace updates) = updates.map (·.path) := by
    cases replace <;> simp [allPaths, updatesRequest]
  have hpre : (updatesRequest replace updates).pre = {} := by cases replace <;> rfl
  unfold isFaultRequest
  rw [hpaths, hpre, List.any_eq_false]
  intro path hpath
  obtain ⟨update, hupdate, rfl⟩ := List.mem_map.mp hpath
  obtain ⟨spec, hbuilt⟩ : ∃ spec, connectionUpdate device spec = .ok update := by
    clear hpaths hpath hpre
    induction h with
    | nil => cases hupdate
    | cons hbuilt _ ih =>
        rcases List.mem_cons.mp hupdate with rfl | hrest
        · exact ⟨_, hbuilt⟩
        · exact ih hrest
  split
  · rename_i native hnative
    obtain ⟨-, -, rfl⟩ := ((connectionUpdate_path hbuilt).2 native).mp hnative
    exact Bool.false_ne_true
  · exact Bool.false_ne_true

/-- Lists that are related element by element through a third one. -/
theorem forall₂_through {α β γ : Type} {R : α → β → Prop} {S : β → γ → Prop} {xs : List α}
    {zs : List γ} : (∃ ys, List.Forall₂ R xs ys ∧ List.Forall₂ S ys zs) ↔
      List.Forall₂ (fun x z => ∃ y, R x y ∧ S y z) xs zs := by
  constructor
  · rintro ⟨ys, hxs, hys⟩
    induction hxs generalizing zs with
    | nil => cases hys; exact .nil
    | cons hxy _ ih =>
        cases hys with
        | cons hyz hrest => exact .cons ⟨_, hxy, hyz⟩ (ih hrest)
  · intro h
    induction h with
    | nil => exact ⟨[], .nil, .nil⟩
    | cons hxz _ ih =>
        obtain ⟨y, hxy, hyz⟩ := hxz
        obtain ⟨ys, hxs, hys⟩ := ih
        exact ⟨y :: ys, .cons hxy hxs, .cons hyz hys⟩

/-- A targeted operation on the device that a connection stands for. -/
def MeantOn (device : String) (replace : Bool) (spec : ConnectionSpec) (targeted : Targeted) : Prop :=
  isSafeId device = true ∧ targeted.1 = device ∧ Meant replace spec targeted.2

theorem readUpdates_eq_ok {connections : List ConnectionSpec} {replace : Bool}
    {targeted : List Targeted} (hloads : ∀ spec ∈ connections,
      loads (updatePayload spec) = some (.obj (updateMembers spec))) :
    (∃ updates, List.Forall₂ (fun spec update => connectionUpdate device spec = .ok update) connections
        updates ∧ updates.mapM (readUpdate loads replace) = .ok targeted) ↔
      List.Forall₂ (MeantOn device replace) connections targeted := by
  simp only [mapM_eq_ok, forall₂_through]
  constructor
  · intro h
    apply ((List.forall₂_and_left _ _).mpr ⟨hloads, h⟩).imp
    rintro spec target ⟨hspec, update, hbuilt, hread⟩
    exact (readUpdate_eq_ok hspec hbuilt).mp hread
  · intro h
    apply ((List.forall₂_and_left _ _).mpr ⟨hloads, h⟩).imp
    rintro spec target ⟨hspec, hmeant⟩
    have hid : isSafeId spec.connectionId = true :=
      hmeant.2.2.connectionId ▸ target.2.connectionId.safe
    obtain ⟨update, hbuilt⟩ := connectionUpdate_safe hmeant.1 hid
    exact ⟨update, hbuilt, (readUpdate_eq_ok hspec hbuilt).mpr hmeant⟩

theorem forall₂_meantOn {connections : List ConnectionSpec} {replace : Bool}
    {targeted : List Targeted} (hne : connections ≠ []) :
    List.Forall₂ (MeantOn device replace) connections targeted ↔ isSafeId device = true ∧
      targeted.map Prod.fst = List.replicate connections.length device ∧
      List.Forall₂ (Meant replace) connections (targeted.map Prod.snd) := by
  constructor
  · intro h
    refine ⟨?_, ?_, ?_⟩
    · cases h with
      | nil => exact absurd rfl hne
      | cons hmeant _ => exact hmeant.1
    · clear hne
      induction h with
      | nil => rfl
      | cons hmeant _ ih => rw [List.map_cons, hmeant.2.1, ih, List.length_cons, List.replicate_succ]
    · rw [List.forall₂_map_right_iff]
      exact h.imp fun _ _ hmeant => hmeant.2.2
  · rintro ⟨hdevice, hdevices, hmeant⟩
    rw [List.forall₂_map_right_iff] at hmeant
    have htargets : ∀ target ∈ targeted, target.1 = device := fun target hmem =>
      List.eq_of_mem_replicate (hdevices ▸ List.mem_map_of_mem hmem)
    clear hdevices hne
    induction hmeant with
    | nil => exact .nil
    | cons hmeant _ ih =>
        have hrest := ih fun target hmem => htargets target (List.mem_cons_of_mem _ hmem)
        exact .cons ⟨hdevice, htargets _ List.mem_cons_self, hmeant⟩ hrest

theorem dispatchSet_updates {connections : List ConnectionSpec} {updates : List Update}
    (h : List.Forall₂ (fun spec update => connectionUpdate device spec = .ok update) connections
      updates) {replace : Bool} {requestId : String} {planId : Nat} {effect : SetEffect} :
    dispatchSet loads (updatesRequest replace updates) requestId planId = .ok effect ↔
      ∃ plan, parseSetRequest loads (updatesRequest replace updates) planId = .ok plan ∧
        effect = .config plan := by
  unfold dispatchSet
  rw [isFaultRequest_updates h, if_neg Bool.false_ne_true]
  cases parseSetRequest loads (updatesRequest replace updates) planId with
  | error e => simp [Except.map]
  | ok plan => simp [Except.map, eq_comm]

/-- What the client builds for a list of connections becomes their plan on the device, with one
operation for each in their order; and only safe names and ports in range get that far. -/
theorem dispatch_setConnections {connections : List ConnectionSpec} {replace : Bool}
    {requestId : String} {planId : Nat} {effect : SetEffect}
    (hloads : ∀ spec ∈ connections,
      loads (updatePayload spec) = some (.obj (updateMembers spec))) :
    (∃ request, setConnectionsRequest device connections replace = .ok request ∧
      dispatchSet loads request requestId planId = .ok effect) ↔
    connections ≠ [] ∧ isSafeId device = true ∧ ∃ operations,
      List.Forall₂ (Meant replace) connections operations ∧
      effect = .config { device, requestId := planId, operations } := by
  unfold setConnectionsRequest
  split_ifs with hempty
  · simp [hempty]
  have hlength : connections.length ≠ 0 := fun h => hempty (List.length_eq_zero_iff.mp h)
  constructor
  · rintro ⟨request, hrequest, hdispatch⟩
    obtain ⟨updates, hupdates, hrequest⟩ := bind_eq_ok.mp hrequest
    cases hrequest
    rw [mapM_eq_ok] at hupdates
    obtain ⟨plan, hplan, rfl⟩ := (dispatchSet_updates hupdates).mp hdispatch
    obtain ⟨-, targeted, planned, htargeted, hdedup, rfl⟩ := parseSetRequest_updates.mp hplan
    obtain ⟨hdevice, hdevices, hmeant⟩ := (forall₂_meantOn hempty).mp
      ((readUpdates_eq_ok hloads).mp ⟨updates, hupdates, htargeted⟩)
    rw [hdevices, List.replicate_dedup hlength] at hdedup
    cases hdedup
    exact ⟨hempty, hdevice, _, hmeant, rfl⟩
  · rintro ⟨-, hdevice, operations, hmeant, rfl⟩
    have hsecond : (operations.map (Prod.mk device)).map Prod.snd = operations := by
      rw [List.map_map]
      exact List.map_id operations
    have hdevices : (operations.map (Prod.mk device)).map Prod.fst =
        List.replicate connections.length device := by
      rw [List.map_map, hmeant.length_eq]
      exact List.map_const'
    obtain ⟨updates, hupdates, htargeted⟩ := (readUpdates_eq_ok hloads).mpr
      ((forall₂_meantOn hempty).mpr ⟨hdevice, hdevices, hsecond.symm ▸ hmeant⟩)
    have hupdated : updates ≠ [] := by
      rintro rfl
      exact hlength hupdates.length_eq
    refine ⟨updatesRequest replace updates, bind_eq_ok.mpr ⟨updates, mapM_eq_ok.mpr hupdates, rfl⟩, ?_⟩
    apply (dispatchSet_updates hupdates).mpr
    refine ⟨_, parseSetRequest_updates.mpr ⟨hupdated, _, device, htargeted, ?_, rfl⟩, ?_⟩
    · rw [hdevices, List.replicate_dedup hlength]
    · rw [hsecond]

theorem dispatchSet_delete {connectionId requestId : String} {planId : Nat} {effect : SetEffect}
    {path : Path} (hpath : protobufPath (PathParser.connectionPath device connectionId "") = .ok path) :
    dispatchSet loads { delete := [path] } requestId planId = .ok effect ↔
      ∃ target, Gnmi.connectionPath {} path true = .ok target ∧
        effect = .config { device := target.device, requestId := planId,
                           operations := [{ kind := .delete,
                                            connectionId := target.connectionId }] } := by
  have hfault : isFaultRequest { delete := [path] } = false := by
    unfold isFaultRequest
    simp only [allPaths, List.map_nil, List.append_nil, List.any_cons, List.any_nil, Bool.or_false]
    split
    · rename_i native hnative
      obtain ⟨-, -, rfl⟩ := (parsePath_connection .connection hpath native).mp hnative
      rfl
    · rfl
  unfold dispatchSet
  rw [hfault, if_neg Bool.false_ne_true]
  cases htarget : Gnmi.connectionPath {} path true with
  | error e => simp [parseSetRequest, parseDelete, htarget, Except.map, bind, Except.bind]
  | ok target =>
      simp [parseSetRequest, parseDelete, htarget, Except.map, bind, Except.bind, pure, Except.pure,
        eq_comm]

/-- The same for the deletion of one connection. -/
theorem dispatch_deleteConnection {connectionId requestId : String} {planId : Nat}
    {effect : SetEffect} :
    (∃ request, deleteConnectionRequest device connectionId = .ok request ∧
      dispatchSet loads request requestId planId = .ok effect) ↔
    isSafeId device = true ∧ ∃ id : SafeId, id.text = connectionId ∧
      effect = .config { device, requestId := planId,
                         operations := [{ kind := .delete, connectionId := id }] } := by
  constructor
  · rintro ⟨request, hrequest, hset⟩
    obtain ⟨path, hpath, hrequest⟩ := bind_eq_ok.mp hrequest
    cases hrequest
    obtain ⟨target, htarget, rfl⟩ := (dispatchSet_delete hpath).mp hset
    obtain ⟨hdevice, rfl, hid⟩ :=
      (connectionPath_of_parse (.inr ⟨rfl, rfl⟩) (parsePath_connection .connection hpath)).mp htarget
    exact ⟨hdevice, target.connectionId, hid, rfl⟩
  · rintro ⟨hdevice, id, rfl, rfl⟩
    have hparse := PathParser.connectionPath_eq_ok.mpr ⟨hdevice, id.safe, _, .connection, rfl⟩
    obtain ⟨path, hpath, -⟩ := bind_eq_ok.mp hparse
    have htarget : Gnmi.connectionPath {} path true = .ok ⟨device, id⟩ :=
      (connectionPath_of_parse (.inr ⟨rfl, rfl⟩)
        (parsePath_connection .connection hpath)).mpr ⟨hdevice, rfl, rfl⟩
    exact ⟨_, bind_eq_ok.mpr ⟨path, hpath, rfl⟩, (dispatchSet_delete hpath).mpr ⟨_, htarget, rfl⟩⟩

end

/-! ## What a commit stores -/

section

variable {inventory : Inventory} {db : ConfigDb} {plan : SetPlan} {timestampNs : Nat}
  {candidate : CandidateMutation}

/-- What the candidate for a database is built from. -/
def inputOn (db : ConfigDb) (timestampNs : Nat) (counts : Nat × Nat) : CandidateInput where
  current := ConnectionTable.load db.connections
  revision := db.revision.getD 0 + 1
  timestampNs := timestampNs
  inputPortCount := counts.1
  outputPortCount := counts.2

theorem describes_evaluate (hserial : Serial inventory db)
    (h : evaluate inventory plan timestampNs db = .ok candidate) :
    ∃ counts, Describes (inputOn db timestampNs counts) plan candidate ∧
      ValidDrafts counts.1 counts.2 (drafts (inputOn db timestampNs counts) plan) := by
  obtain ⟨counts, -, hbuild⟩ := evaluate_ok h
  have hnamed : ∀ id, ((ConnectionTable.load db.connections).get? id).isSome → id ≠ "" := by
    intro id hid
    rw [ConnectionTable.get?_load] at hid
    obtain ⟨config, hconfig⟩ := Option.isSome_iff_exists.mp hid
    exact (hserial.valid.keyed id config hconfig).2
  obtain ⟨working, fin, happly, hfin, -⟩ := (buildCandidate_eq_ok (Nat.succ_ne_zero _)).mp hbuild
  exact ⟨counts, buildCandidate_describes (Nat.succ_ne_zero _) hnamed hbuild,
    validDrafts_of_finalized hnamed (get?_working happly) hfin⟩

/-- An id that the plan does not name keeps its connection. -/
theorem applyChanges_of_untouched (hserial : Serial inventory db)
    (h : evaluate inventory plan timestampNs db = .ok candidate) {id : String}
    (huntouched : ¬Touched plan id) :
    (applyChanges db.connections candidate.changes)[id]? = db.connections[id]? := by
  obtain ⟨counts, hdescribes, -⟩ := describes_evaluate hserial h
  apply getElem?_applyChanges_of_ne
  intro change hmem hid
  obtain ⟨id', htouched, -, rfl⟩ := (hdescribes.changes change).mp hmem
  exact huntouched (hid ▸ htouched)

/-- A connection that the plan names has the settings of its draft, also where nothing had to be
written. -/
theorem settings_applyChanges (hserial : Serial inventory db)
    (h : evaluate inventory plan timestampNs db = .ok candidate) {id : String}
    (htouched : Touched plan id) :
    ((applyChanges db.connections candidate.changes)[id]?).map (·.toMutable.settings) =
      (finalDrafts (ConnectionTable.load db.connections) timestampNs plan.operations id).map
        MutableConnection.settings := by
  obtain ⟨counts, hdescribes, hvalid⟩ := describes_evaluate hserial h
  obtain ⟨_, -, hbuild⟩ := evaluate_ok h
  have hbatch := buildCandidate_batch rfl hbuild
  by_cases hdiffers : Gnmi.Differs (inputOn db timestampNs counts) plan id
  · have hmem := (hdescribes.changes _).mpr ⟨id, htouched, hdiffers, rfl⟩
    have hwritten := hbatch.writes _ hmem
    rw [show (applyChanges db.connections candidate.changes)[id]? = _ from hwritten, changeFor,
      Option.map_map]
    apply Option.map_congr
    intro m hm
    obtain ⟨inputPort, outputPort, hin, hout, -⟩ := hvalid.ports id m hm
    exact settings_finalConfig (by rw [hin]; rfl) (by rw [hout]; rfl)
  · have hkept : ∀ change ∈ candidate.changes, change.connectionId ≠ id := by
      intro change hmem hid
      obtain ⟨id', -, hother, rfl⟩ := (hdescribes.changes change).mp hmem
      exact hdiffers (hid ▸ hother)
    rw [getElem?_applyChanges_of_ne hkept, ← ConnectionTable.get?_load]
    refine Eq.trans ?_ (not_not.mp hdiffers)
    rw [currentDrafts, Option.map_map]
    rfl

end

/-! ## What the user finds -/

section

variable {device : String} {replace : Bool} {connections : List ConnectionSpec}
  {operations : List SetOperation}

theorem operation_of_meant (h : List.Forall₂ (Meant replace) connections operations)
    {operation : SetOperation} (hmem : operation ∈ operations) :
    ∃ spec ∈ connections, Meant replace spec operation := by
  induction h with
  | nil => cases hmem
  | cons hmeant _ ih =>
      rcases List.mem_cons.mp hmem with rfl | hrest
      · exact ⟨_, List.mem_cons_self, hmeant⟩
      · obtain ⟨spec, hspec, hmeant⟩ := ih hrest
        exact ⟨spec, List.mem_cons_of_mem _ hspec, hmeant⟩

/-- With distinct ids, one operation is about a connection. -/
theorem ofKey_of_meant (h : List.Forall₂ (Meant replace) connections operations)
    (hids : (connections.map (·.connectionId)).Nodup) {spec : ConnectionSpec}
    (hspec : spec ∈ connections) : ∃ operation,
      KeyedFold.ofKey operationId spec.connectionId operations = [operation] ∧
        Meant replace spec operation := by
  induction h with
  | nil => cases hspec
  | @cons first operation rest operations hmeant hrest ih =>
      rw [List.map_cons, List.nodup_cons] at hids
      have hname : operationId operation = first.connectionId := hmeant.connectionId
      rcases List.mem_cons.mp hspec with rfl | hlater
      · refine ⟨operation, ?_, hmeant⟩
        rw [KeyedFold.ofKey, List.filter_cons_of_pos (by simpa using hname)]
        congr 1
        rw [List.filter_eq_nil_iff]
        intro other hother hsame
        obtain ⟨later, hlater, hmeant'⟩ := operation_of_meant hrest hother
        apply hids.1
        have hid : later.connectionId = spec.connectionId :=
          hmeant'.connectionId.symm.trans (of_decide_eq_true hsame)
        rw [← hid]
        exact List.mem_map_of_mem hlater
      · obtain ⟨only, honly, hmeant'⟩ := ih hids.2 hlater
        refine ⟨only, ?_, hmeant'⟩
        rw [KeyedFold.ofKey, List.filter_cons_of_neg]
        · exact honly
        · intro hsame
          apply hids.1
          rw [← hname, of_decide_eq_true hsame]
          exact List.mem_map_of_mem hlater

theorem draft_of_meant (h : List.Forall₂ (Meant replace) connections operations)
    (hids : (connections.map (·.connectionId)).Nodup) {spec : ConnectionSpec}
    (hspec : spec ∈ connections) (current : Dict String ConnectionConfig) (timestampNs : Nat) :
    ∃ m inputPort outputPort, finalDrafts current timestampNs operations spec.connectionId = some m ∧
      spec.inputPort = (inputPort : Nat) ∧ spec.outputPort = (outputPort : Nat) ∧
      m.settings = (some inputPort, some outputPort, adminEnabled) := by
  obtain ⟨operation, honly, hmeant⟩ := ofKey_of_meant h hids hspec
  obtain ⟨⟨inputPort, -, -, hin, hinput⟩, ⟨outputPort, -, -, hout, houtput⟩, hadmin⟩ := hmeant.ranged
  have hdraft : finalDrafts current timestampNs operations spec.connectionId =
      draftStep current timestampNs operation (currentDrafts current spec.connectionId) := by
    rw [finalDrafts, KeyedFold.run_at, honly]
    rfl
  rw [hdraft, draftStep, hmeant.kind]
  cases replace with
  | false =>
      refine ⟨_, inputPort, outputPort, rfl, hin, hout, ?_⟩
      simp [MutableConnection.settings, MutableConnection.update, hinput, houtput, hadmin]
  | true =>
      refine ⟨_, inputPort, outputPort, rfl, hin, hout, ?_⟩
      simp [MutableConnection.settings, hinput, houtput, hadmin]

/-- The table has what was chosen, enabled, and is otherwise the old one. -/
structure Holds (connections : List ConnectionSpec) (old table : ConnectionTable) : Prop where
  chosen : ∀ spec ∈ connections, ∃ config : ConnectionConfig,
    table[spec.connectionId]? = some config ∧ spec.inputPort = (config.inputPort : Nat) ∧
      spec.outputPort = (config.outputPort : Nat) ∧ config.adminStatus = adminEnabled
  others : ∀ id, (∀ spec ∈ connections, spec.connectionId ≠ id) → table[id]? = old[id]?

theorem holds_of_meant (h : List.Forall₂ (Meant replace) connections operations)
    (hids : (connections.map (·.connectionId)).Nodup) {inventory : Inventory} {db : ConfigDb}
    (hserial : Serial inventory db) {plan : SetPlan} (hplan : plan.operations = operations)
    {timestampNs : Nat} {candidate : CandidateMutation}
    (hcandidate : evaluate inventory plan timestampNs db = .ok candidate) :
    Holds connections db.connections (applyChanges db.connections candidate.changes) := by
  subst hplan
  constructor
  · intro spec hspec
    obtain ⟨m, inputPort, outputPort, hdraft, hin, hout, hsettings⟩ :=
      draft_of_meant h hids hspec (ConnectionTable.load db.connections) timestampNs
    obtain ⟨operation, honly, hown⟩ := ofKey_of_meant h hids hspec
    have hnamed : operation ∈ plan.operations :=
      List.mem_of_mem_filter (honly ▸ List.mem_singleton_self operation)
    have hstored := settings_applyChanges hserial hcandidate ⟨operation, hnamed, hown.connectionId⟩
    rw [hdraft, Option.map_some, hsettings, Option.map_eq_some_iff] at hstored
    obtain ⟨config, hconfig, hports⟩ := hstored
    simp only [MutableConnection.settings, ConnectionConfig.toMutable, Prod.mk.injEq,
      Option.some.injEq] at hports
    obtain ⟨rfl, rfl, hadmin⟩ := hports
    exact ⟨config, hconfig, hin, hout, hadmin⟩
  · intro id hother
    apply applyChanges_of_untouched hserial hcandidate
    rintro ⟨operation, hnamed, hid⟩
    obtain ⟨spec, hspec, hown⟩ := operation_of_meant h hnamed
    exact hother spec hspec (hown.connectionId.symm.trans hid)

/-- A batch of the browser that the gateway has validated. -/
structure ConnectionBatchWrite where
  replace : Bool := false
  connections : List ConnectionSpec
  nonempty : connections ≠ []
  length_le : connections.length ≤ 16
  safe : ∀ spec ∈ connections, isSafeId spec.connectionId = true
  inputRange : ∀ spec ∈ connections, 1 ≤ spec.inputPort ∧ spec.inputPort ≤ portLimit
  outputRange : ∀ spec ∈ connections, 1 ≤ spec.outputPort ∧ spec.outputPort ≤ portLimit
  uniqueIds : (connections.map (·.connectionId)).Nodup

/-- The operation for a connection with a safe id. -/
def operationFor (replace : Bool) (spec : ConnectionSpec) (hsafe : isSafeId spec.connectionId = true) :
    SetOperation where
  kind := if replace then .replace else .update
  connectionId := ⟨spec.connectionId, hsafe⟩
  values := { inputPort := some spec.inputPort.toNat
              outputPort := some spec.outputPort.toNat
              adminStatus := some adminEnabled }

theorem meant_of_ranges (hsafe : ∀ spec ∈ connections, isSafeId spec.connectionId = true)
    (hin : ∀ spec ∈ connections, 1 ≤ spec.inputPort ∧ spec.inputPort ≤ portLimit)
    (hout : ∀ spec ∈ connections, 1 ≤ spec.outputPort ∧ spec.outputPort ≤ portLimit) :
    ∃ operations, List.Forall₂ (Meant replace) connections operations := by
  induction connections with
  | nil => exact ⟨[], .nil⟩
  | cons spec rest ih =>
      rw [List.forall_mem_cons] at hsafe hin hout
      obtain ⟨operations, hrest⟩ := ih hsafe.2 hin.2 hout.2
      refine ⟨operationFor replace spec hsafe.1 :: operations, .cons ⟨rfl, rfl, ?_⟩ hrest⟩
      refine ⟨⟨_, ?_, ?_, ?_, rfl⟩, ⟨_, ?_, ?_, ?_, rfl⟩, rfl⟩
      all_goals omega

/-- The requests that the client makes become just the plans that were meant, and only for safe
names and ports in range. -/
theorem requests_planned {loads : List UInt8 → Option Json} {requestId : String} {planId : Nat}
    (hloads : ∀ spec ∈ connections, loads (updatePayload spec) = some (.obj (updateMembers spec))) :
    (∀ effect, (∃ request, setConnectionsRequest device connections replace = .ok request ∧
        dispatchSet loads request requestId planId = .ok effect) ↔
      connections ≠ [] ∧ isSafeId device = true ∧ ∃ operations,
        List.Forall₂ (Meant replace) connections operations ∧
        effect = .config { device, requestId := planId, operations }) ∧
    ∀ connectionId effect, (∃ request, deleteConnectionRequest device connectionId = .ok request ∧
        dispatchSet loads request requestId planId = .ok effect) ↔
      isSafeId device = true ∧ ∃ id : SafeId, id.text = connectionId ∧
        effect = .config { device, requestId := planId,
                           operations := [{ kind := .delete, connectionId := id }] } :=
  ⟨fun _ => dispatch_setConnections hloads, fun _ _ => dispatch_deleteConnection⟩

/-- A connection of the small inventory. -/
def chosen : ConnectionSpec := ⟨"a", 3, 4⟩

def chosenLoads (payload : List UInt8) : Option Json :=
  if payload = updatePayload chosen then some (.obj (updateMembers chosen)) else none

def chosenPlan : SetPlan where
  device := "ocs1"
  requestId := 1
  operations := [operationFor true chosen (by decide)]

theorem chosenLoads_reads : ∀ spec ∈ [chosen],
    chosenLoads (updatePayload spec) = some (.obj (updateMembers spec)) := by
  simp [chosenLoads]

theorem requests_planned_chosen : ∃ request,
    setConnectionsRequest "ocs1" [chosen] true = .ok request ∧
      dispatchSet chosenLoads request "r" 1 = .ok (.config chosenPlan) :=
  ((requests_planned chosenLoads_reads).1 _).mpr ⟨by simp, by decide, chosenPlan.operations,
    .cons ⟨rfl, rfl, ⟨3, by decide, by decide, rfl, rfl⟩, ⟨4, by decide, by decide, rfl, rfl⟩, rfl⟩
      .nil, rfl⟩

def chosenBatch : ConnectionBatchWrite where
  replace := true
  connections := [chosen]
  nonempty := by simp
  length_le := by decide
  safe := by decide
  inputRange := by decide
  outputRange := by decide
  uniqueIds := by decide

end

end MiniOcs.ConnectionRoute
