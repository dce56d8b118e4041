import MiniOcs.Redis.Events
import MiniOcs.Uds.Equivalence

/-!
# Integers of the decoders

What the decoders of commands and of device requests make of the numbers in a payload. The ports
of a device command are checked; every other integer goes through a cast.
-/
namespace MiniOcs
open Json

/-- What an entry writes of a command. `ports` names the operations whose ports are read. -/
structure WrittenCommand (ports : ConnectionOperation → Bool) (entry : Json)
    (command : ConnectionCommand) : Prop where
  desiredVersion : entry.HasNumber "desired_version" command.desiredVersion
  inputPort : ports command.operation = true → entry.HasNumber "input_port" command.inputPort
  outputPort : ports command.operation = true → entry.HasNumber "output_port" command.outputPort

/-- Every number of the decoded commands is the one that the payload writes. -/
def WrittenCommands (ports : ConnectionOperation → Bool) (payload : Json)
    (commands : List ConnectionCommand) : Prop :=
  ∃ entries, payload.atKey "commands" = .ok entries ∧
    List.Forall₂ (WrittenCommand ports) entries.elements commands

def isUpsert (operation : ConnectionOperation) : Bool := decide (operation = .upsert)

def anyOperation (_ : ConnectionOperation) : Bool := true

def VersionFits (entry : Json) : Prop := entry.FieldFits 18446744073709551616 "desired_version"

structure CommandFits (entry : Json) : Prop where
  desiredVersion : VersionFits entry
  inputPort : entry.FieldFits 65536 "input_port"
  outputPort : entry.FieldFits 65536 "output_port"

/-- Every entry of the payload meets the condition. -/
def EntriesMeet (condition : Json → Prop) (payload : Json) : Prop :=
  ∃ entries, payload.atKey "commands" = .ok entries ∧ ∀ entry ∈ entries.elements, condition entry

theorem forall₂_iff_of_imp {α β : Type} {R S : α → β → Prop} {Q : α → Prop} {xs : List α}
    {ys : List β} (hread : List.Forall₂ R xs ys) (h : ∀ x y, R x y → (S x y ↔ Q x)) :
    List.Forall₂ S xs ys ↔ ∀ x ∈ xs, Q x := by
  induction hread with
  | nil => simp
  | cons hxy _ ih => simp [h _ _ hxy, ih]

theorem writtenCommands_iff {ports : ConnectionOperation → Bool} {payload entries : Json}
    {commands : List ConnectionCommand} {read : Json → Except String ConnectionCommand}
    {condition : Json → Prop} (hentries : payload.atKey "commands" = .ok entries)
    (hread : entries.elements.mapM read = .ok commands)
    (h : ∀ entry command, read entry = .ok command →
      (WrittenCommand ports entry command ↔ condition entry)) :
    WrittenCommands ports payload commands ↔ EntriesMeet condition payload := by
  have hall := forall₂_iff_of_imp (forall₂_of_mapM hread) h
  simp only [WrittenCommands, EntriesMeet, hentries, Except.ok.injEq, exists_eq_left', hall]

/-- A checked port is the one that is written. -/
theorem parsePort_hasNumber {entry : Json} {field : String} {port : Nat}
    (h : Redis.parsePort entry field = .ok port) : entry.HasNumber field port := by
  obtain ⟨value, hvalue, h⟩ := bind_eq_ok.mp h
  refine ⟨value, hvalue, ?_⟩
  cases value with
  | int n =>
      dsimp only at h
      split_ifs at h with hneg
      cases h
      have hn : (n.toNat : Int) = n := by omega
      show some (n : Rat) = some ((n.toNat : Nat) : Rat)
      rw [← hn]
      rfl
  | _ => cases h

/-- The ports of a removal are not read. -/
theorem parseCommand_written {entry : Json} {command : ConnectionCommand}
    (h : Redis.parseCommand entry = .ok command) :
    WrittenCommand isUpsert entry command ↔ VersionFits entry := by
  unfold Redis.parseCommand at h
  obtain ⟨_, -, h⟩ := bind_eq_ok.mp h
  obtain ⟨_, -, h⟩ := bind_eq_ok.mp h
  obtain ⟨operation, -, h⟩ := bind_eq_ok.mp h
  obtain ⟨_, -, h⟩ := bind_eq_ok.mp h
  obtain ⟨id, -, h⟩ := bind_eq_ok.mp h
  obtain ⟨version, hversion, h⟩ := bind_eq_ok.mp h
  obtain ⟨desiredVersion, hread, h⟩ := bind_eq_ok.mp h
  have hfits := hasNumber_iff_fieldFits hversion (getUInt64_writes hread)
  cases operation with
  | remove =>
      cases h
      exact ⟨fun hwritten => hfits.mp hwritten.desiredVersion,
        fun hversion => ⟨hfits.mpr hversion, nofun, nofun⟩⟩
  | upsert =>
      obtain ⟨inputPort, hin, h⟩ := bind_eq_ok.mp h
      obtain ⟨outputPort, hout, h⟩ := bind_eq_ok.mp h
      cases h
      exact ⟨fun hwritten => hfits.mp hwritten.desiredVersion, fun hversion =>
        ⟨hfits.mpr hversion, fun _ => parsePort_hasNumber hin, fun _ => parsePort_hasNumber hout⟩⟩

theorem udsParseCommand_written {entry : Json} {command : ConnectionCommand}
    (h : Uds.parseCommand entry = .ok command) :
    WrittenCommand anyOperation entry command ↔ CommandFits entry := by
  unfold Uds.parseCommand at h
  obtain ⟨_, -, h⟩ := bind_eq_ok.mp h
  obtain ⟨operation, -, h⟩ := bind_eq_ok.mp h
  obtain ⟨_, -, h⟩ := bind_eq_ok.mp h
  obtain ⟨id, -, h⟩ := bind_eq_ok.mp h
  obtain ⟨_, hin, h⟩ := bind_eq_ok.mp h
  obtain ⟨inputPort, hreadIn, h⟩ := bind_eq_ok.mp h
  obtain ⟨_, hout, h⟩ := bind_eq_ok.mp h
  obtain ⟨outputPort, hreadOut, h⟩ := bind_eq_ok.mp h
  obtain ⟨_, hversion, h⟩ := bind_eq_ok.mp h
  obtain ⟨desiredVersion, hreadVersion, h⟩ := bind_eq_ok.mp h
  cases h
  have hfits := hasNumber_iff_fieldFits hversion (getUInt64_writes hreadVersion)
  have hfitsIn := hasNumber_iff_fieldFits hin (getUInt16_writes hreadIn)
  have hfitsOut := hasNumber_iff_fieldFits hout (getUInt16_writes hreadOut)
  exact ⟨fun hwritten => ⟨hfits.mp hwritten.desiredVersion, hfitsIn.mp (hwritten.inputPort rfl),
      hfitsOut.mp (hwritten.outputPort rfl)⟩,
    fun hcommand => ⟨hfits.mpr hcommand.desiredVersion, fun _ => hfitsIn.mpr hcommand.inputPort,
      fun _ => hfitsOut.mpr hcommand.outputPort⟩⟩

theorem decodeDeviceCommand_written {parse : String → Except String Json} {text : String}
    {payload : Json} (hparse : parse text = .ok payload) {batch : Redis.CommandBatch}
    (h : Redis.decodeDeviceCommand parse text = .ok batch) :
    WrittenCommands isUpsert payload batch.commands ↔ EntriesMeet VersionFits payload := by
  unfold Redis.decodeDeviceCommand at h
  obtain ⟨value, hvalue, h⟩ := bind_eq_ok.mp h
  cases hparse.symm.trans hvalue
  obtain ⟨_, -, h⟩ := bind_eq_ok.mp h
  obtain ⟨atomic, -, h⟩ := bind_eq_ok.mp h
  obtain ⟨_, -, h⟩ := bind_eq_ok.mp h
  obtain ⟨timeoutMs, -, h⟩ := bind_eq_ok.mp h
  obtain ⟨operationId, -, h⟩ := bind_eq_ok.mp h
  split_ifs at h
  obtain ⟨entries, hentries, h⟩ := bind_eq_ok.mp h
  obtain ⟨commands, hread, h⟩ := bind_eq_ok.mp h
  split_ifs at h
  cases h
  exact writtenCommands_iff hentries hread fun entry command => parseCommand_written

theorem decodeApplyRequest_written {codec : Uds.JsonCodec} {bytes : List Uds.Byte} {payload : Json}
    (hparse : codec.parse bytes = .ok payload) {request : Uds.ApplyRequest}
    (h : Uds.decodeApplyRequest codec bytes = .ok request) :
    WrittenCommands anyOperation payload request.commands ↔ EntriesMeet CommandFits payload := by
  unfold Uds.decodeApplyRequest Uds.decodeAs Uds.parseApplyRequest at h
  obtain ⟨value, hvalue, h⟩ := bind_eq_ok.mp h
  cases hparse.symm.trans hvalue
  obtain ⟨_, -, h⟩ := bind_eq_ok.mp h
  obtain ⟨atomic, -, h⟩ := bind_eq_ok.mp h
  obtain ⟨_, -, h⟩ := bind_eq_ok.mp h
  obtain ⟨timeoutMs, -, h⟩ := bind_eq_ok.mp h
  obtain ⟨operationId, -, h⟩ := bind_eq_ok.mp h
  obtain ⟨entries, hentries, h⟩ := bind_eq_ok.mp h
  obtain ⟨commands, hread, h⟩ := bind_eq_ok.mp h
  cases h
  exact writtenCommands_iff hentries hread fun entry command => udsParseCommand_written

theorem decodePortRequest_written {codec : Uds.JsonCodec} {bytes : List Uds.Byte} {payload : Json}
    (hparse : codec.parse bytes = .ok payload) {request : Uds.PortRequest}
    (h : Uds.decodePortRequest codec bytes = .ok request) :
    payload.HasNumber "port_id" request.portId ↔ payload.FieldFits 65536 "port_id" := by
  unfold Uds.decodePortRequest Uds.decodeAs Uds.parsePortRequest at h
  obtain ⟨value, hvalue, h⟩ := bind_eq_ok.mp h
  cases hparse.symm.trans hvalue
  obtain ⟨_, -, h⟩ := bind_eq_ok.mp h
  obtain ⟨direction, -, h⟩ := bind_eq_ok.mp h
  obtain ⟨port, hport, h⟩ := bind_eq_ok.mp h
  obtain ⟨portId, hread, h⟩ := bind_eq_ok.mp h
  cases h
  exact hasNumber_iff_fieldFits hport (getUInt16_writes hread)

theorem decodeFaultRequest_written {codec : Uds.JsonCodec} {bytes : List Uds.Byte} {payload : Json}
    (hparse : codec.parse bytes = .ok payload) {request : Uds.FaultRequest}
    (h : Uds.decodeFaultRequest codec bytes = .ok request) :
    payload.HasNumber "port_id" request.fault.portId ↔ payload.FieldFits 65536 "port_id" := by
  unfold Uds.decodeFaultRequest Uds.decodeAs Uds.parseFaultRequest at h
  obtain ⟨value, hvalue, h⟩ := bind_eq_ok.mp h
  cases hparse.symm.trans hvalue
  obtain ⟨_, -, h⟩ := bind_eq_ok.mp h
  obtain ⟨action, -, h⟩ := bind_eq_ok.mp h
  obtain ⟨_, -, h⟩ := bind_eq_ok.mp h
  obtain ⟨type, -, h⟩ := bind_eq_ok.mp h
  obtain ⟨port, hport, h⟩ := bind_eq_ok.mp h
  obtain ⟨portId, hread, h⟩ := bind_eq_ok.mp h
  cases h
  exact hasNumber_iff_fieldFits hport (getUInt16_writes hread)

/-- A request for one connection, with the numbers as they are written. -/
def oneConnection (inputPort desiredVersion : Int) : Json :=
  .object [("atomic", .bool true), ("timeout_ms", .int 1000),
    ("commands", .arr [.object [("operation", .str "UPSERT"), ("id", .str "c"),
      ("input_port", .int inputPort), ("output_port", .int 9),
      ("desired_version", .int desiredVersion)]])]

def oneCommand (inputPort desiredVersion : Nat) : ConnectionCommand :=
  { id := "c", inputPort := inputPort, outputPort := 9, desiredVersion := desiredVersion }

theorem normal_oneConnection {inputPort desiredVersion : Int}
    (hport : Json.Normal (.int inputPort)) (hversion : Json.Normal (.int desiredVersion)) :
    Json.Normal (oneConnection inputPort desiredVersion) := by
  have hnine : Json.Normal (.int 9) := by
    rw [Json.Normal]
    decide
  have hthousand : Json.Normal (.int 1000) := by
    rw [Json.Normal]
    decide
  have hentry : Json.Normal (.object [("operation", .str "UPSERT"), ("id", .str "c"),
      ("input_port", .int inputPort), ("output_port", .int 9),
      ("desired_version", .int desiredVersion)]) := by
    apply Json.normal_object
    simp [Json.normal_str, hport, hversion, hnine]
  have hentries := Json.normal_arr (List.forall_mem_singleton.mpr hentry)
  apply Json.normal_object
  simp [Json.normal_bool, hthousand, hentries]

/-- The decoded request, as the casts leave it. -/
theorem decodeApplyRequest_wide : Uds.decodeApplyRequest Uds.textCodec
    (Uds.textCodec.dump (oneConnection 65537 1)) = .ok ⟨[oneCommand 1 1], {}⟩ := by
  unfold Uds.decodeApplyRequest Uds.decodeAs
  rw [Uds.textCodec_lossless _ (normal_oneConnection (by rw [Json.Normal]; decide)
    (by rw [Json.Normal]; decide))]
  rfl

theorem decodeDeviceCommand_negative : Redis.decodeDeviceCommand Redis.textParse
    (Redis.dumps (oneConnection 1 (-1))) = .ok ⟨[oneCommand 1 18446744073709551615], {}⟩ := by
  unfold Redis.decodeDeviceCommand
  rw [Redis.textParse_dumps _ (normal_oneConnection (by rw [Json.Normal]; decide)
    (by rw [Json.Normal]; decide))]
  rfl

theorem normal_small : Json.Normal (oneConnection 1 7) :=
  normal_oneConnection (by rw [Json.Normal]; decide) (by rw [Json.Normal]; decide)

theorem fits_int {bound n : Nat} (h : n < bound) : Json.Fits bound (.int n) := ⟨n, h, rfl⟩

end MiniOcs
