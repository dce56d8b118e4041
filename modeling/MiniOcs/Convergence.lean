import MiniOcs.Reconciler
import MiniOcs.Device.Fences

/-!
# What a reconciliation plan achieves

The plan lists every difference once, its snapshot turns the actual connections into the
desired ones, and a device whose fences allow it takes the snapshot as one batch.
-/
namespace MiniOcs
open Std (ExtTreeMap)
open SimulatedOcsDevice

/-! ## Lists of connections as tables -/

/-- The connection that an upsert asks for. -/
def asConnection (command : ConnectionCommand) : AppliedConnection where
  id := command.id
  inputPort := command.inputPort
  outputPort := command.outputPort
  appliedVersion := command.desiredVersion

def tableOf (connections : List AppliedConnection) : ExtTreeMap String AppliedConnection :=
  connections.foldl (fun table connection => table.insert connection.id connection) ∅

theorem tableOf_concat (connections : List AppliedConnection) (c : AppliedConnection) :
    tableOf (connections ++ [c]) = (tableOf connections).insert c.id c := by
  simp only [tableOf, List.foldl_append, List.foldl_cons, List.foldl_nil]

theorem getElem?_tableOf {connections : List AppliedConnection}
    (hnodup : (connections.map (·.id)).Nodup) {id : String} {c : AppliedConnection} :
    (tableOf connections)[id]? = some c ↔ c ∈ connections ∧ c.id = id := by
  induction connections using List.reverseRecOn with
  | nil => simp [tableOf]
  | append_singleton connections last ih =>
      rw [List.map_append, List.nodup_append] at hnodup
      obtain ⟨hnodup, -, hfresh⟩ := hnodup
      rw [tableOf_concat, ExtTreeMap.getElem?_insert]
      split_ifs with hid
      · rw [Std.compare_eq_iff_eq] at hid
        simp only [Option.some.injEq, List.mem_append, List.mem_singleton]
        constructor
        · rintro rfl
          exact ⟨.inr rfl, hid⟩
        · rintro ⟨hmem | rfl, rfl⟩
          · exact absurd hid.symm (hfresh c.id (List.mem_map_of_mem hmem) last.id (by simp))
          · rfl
      · rw [ih hnodup]
        simp only [List.mem_append, List.mem_singleton]
        constructor
        · rintro ⟨hmem, rfl⟩
          exact ⟨.inl hmem, rfl⟩
        · rintro ⟨hmem | rfl, rfl⟩
          · exact ⟨hmem, rfl⟩
          · exact absurd (Std.compare_eq_iff_eq.mpr rfl) hid

theorem tableOf_ext {connections : List AppliedConnection}
    (hnodup : (connections.map (·.id)).Nodup) {table : ExtTreeMap String AppliedConnection}
    (h : ∀ (id : String) (c : AppliedConnection),
      table[id]? = some c ↔ c ∈ connections ∧ c.id = id) : table = tableOf connections := by
  apply ExtTreeMap.ext_getElem?
  intro id
  apply Option.ext
  intro c
  rw [h, getElem?_tableOf hnodup]

/-- In a batch of distinct connections every command decides its own. -/
theorem getElem?_foldCommands_of_mem {commands : List ConnectionCommand}
    (hnodup : (commands.map (·.id)).Nodup) {command : ConnectionCommand} (hmem : command ∈ commands)
    (table : ExtTreeMap String AppliedConnection) :
    (foldCommands table commands)[command.id]? =
      match command.operation with
      | .remove => none
      | .upsert => some (asConnection command) := by
  induction commands using List.reverseRecOn with
  | nil => cases hmem
  | append_singleton commands last ih =>
      rw [List.map_append, List.nodup_append] at hnodup
      obtain ⟨hnodup, -, hfresh⟩ := hnodup
      simp only [foldCommands, List.foldl_append, List.foldl_cons, List.foldl_nil]
      rw [getElem?_editCommand]
      rcases List.mem_append.mp hmem with hmem | hmem
      · have hne : last.id ≠ command.id := fun heq =>
          hfresh command.id (List.mem_map_of_mem hmem) last.id (by simp) heq.symm
        rw [if_neg hne]
        exact ih hnodup hmem
      · rw [List.mem_singleton.mp hmem, if_pos rfl]
        rfl

theorem getElem?_foldCommands_of_not_mem {commands : List ConnectionCommand} {id : String}
    (hid : ∀ command ∈ commands, command.id ≠ id) (table : ExtTreeMap String AppliedConnection) :
    (foldCommands table commands)[id]? = table[id]? := by
  induction commands generalizing table with
  | nil => rfl
  | cons command rest ih =>
      show (foldCommands (editCommand table command) rest)[id]? = _
      rw [ih (fun c hc => hid c (by simp [hc])), getElem?_editCommand,
        if_neg (hid command (by simp))]

/-! ## The plan of two snapshots -/

/-- How the desired and the actual connections differ at an id. -/
def Differs (desired : List ConnectionCommand) (actual : List AppliedConnection) (id : String) :
    ConnectionDriftKind → Prop
  | .missing => (∃ command ∈ desired, command.id = id) ∧ ∀ connection ∈ actual, connection.id ≠ id
  | .mismatched => ∃ command ∈ desired, ∃ connection ∈ actual, command.id = id ∧
      connection.id = id ∧ (connection.inputPort ≠ command.inputPort ∨
        connection.outputPort ≠ command.outputPort ∨
        connection.appliedVersion ≠ command.desiredVersion)
  | .unexpected => (∃ connection ∈ actual, connection.id = id) ∧
      ∀ command ∈ desired, command.id ≠ id

section Plans

variable {desired : List ConnectionCommand} {actual : List AppliedConnection}

theorem sortById_lt {α : Type} {id : α → String} {items : List α} (h : (items.map id).Nodup) :
    (sortById id items).Pairwise fun a b => id a < id b := by
  have hnodup : ((sortById id items).map id).Nodup := (sortById_perm.map id).nodup_iff.mpr h
  have hne : (sortById id items).Pairwise fun a b => id a ≠ id b := List.pairwise_map.mp hnodup
  exact (sortById_pairwise.and hne).imp fun hab => lt_of_le_of_ne hab.1 hab.2

theorem adjacentDuplicate_of_lt {α : Type} {id : α → String} {items : List α}
    (h : items.Pairwise fun a b => id a < id b) : adjacentDuplicate id items = false := by
  induction items with
  | nil => rfl
  | cons a rest ih =>
      cases rest with
      | nil => rfl
      | cons b rest =>
          obtain ⟨hlt, hrest⟩ := List.pairwise_cons.mp h
          have hne : id a ≠ id b := (hlt b (by simp)).ne
          simp [adjacentDuplicate, hne, ih hrest]

theorem adjacentDuplicate_sortById {α : Type} {id : α → String} {items : List α} :
    adjacentDuplicate id (sortById id items) = false ↔ (items.map id).Nodup :=
  ⟨nodup_of_sortById, fun h => adjacentDuplicate_of_lt (sortById_lt h)⟩

/-- The planner refuses exactly snapshots that repeat an id. -/
theorem buildReconciliationPlan_error :
    (∃ e, buildReconciliationPlan desired actual = .error e) ↔
      ¬ (desired.map (·.id)).Nodup ∨ ¬ (actual.map (·.id)).Nodup := by
  rw [← adjacentDuplicate_sortById, ← adjacentDuplicate_sortById]
  unfold buildReconciliationPlan
  dsimp only
  split_ifs with hdup
  · simpa [Bool.or_eq_true] using hdup
  · simp only [exists_false, false_iff]
    simpa [Bool.or_eq_true, not_or] using hdup

theorem map_id_removal (connections : List AppliedConnection) :
    (connections.map removal).map (·.id) = connections.map (·.id) := by
  rw [List.map_map]
  rfl

/-- Desired ids and unexpected ids never meet. -/
theorem nodup_desired_unexpected (hdesired : (desired.map (·.id)).Nodup)
    (hactual : (actual.map (·.id)).Nodup) :
    ((desired ++ (unexpectedOf desired actual).map removal).map (·.id)).Nodup := by
  rw [List.map_append, map_id_removal]
  refine List.nodup_append.mpr ⟨hdesired, hactual.sublist (List.filter_sublist.map _), ?_⟩
  rintro id hid id' hid' rfl
  obtain ⟨command, hcommand, rfl⟩ := List.mem_map.mp hid
  obtain ⟨connection, hconnection, heq⟩ := List.mem_map.mp hid'
  have hnone := (List.mem_filter.mp hconnection).2
  simp only [Bool.not_eq_true', List.any_eq_false, decide_eq_true_eq] at hnone
  exact hnone command hcommand heq.symm

theorem mem_unexpectedOf {connection : AppliedConnection} :
    connection ∈ unexpectedOf desired actual ↔
      connection ∈ actual ∧ ∀ command ∈ desired, command.id ≠ connection.id := by
  simp [unexpectedOf, List.mem_filter]

/-- Folding the planned commands over the actual table gives the desired one. -/
theorem foldCommands_plan (hupsert : ∀ command ∈ desired, command.operation = .upsert)
    {plan : ReconciliationPlan} (hplan : PlanOk desired actual plan) :
    foldCommands (tableOf actual) plan.fullSnapshot.commands =
      tableOf (desired.map asConnection) := by
  have hnodup := nodup_desired_unexpected hplan.desiredIds hplan.actualIds
  have hplanned : (plan.fullSnapshot.commands.map (·.id)).Nodup :=
    (hplan.commands.map _).nodup_iff.mpr hnodup
  rw [foldCommands_perm hplan.commands hplanned]
  have hids : ((desired.map asConnection).map (·.id)).Nodup := by
    rw [List.map_map]
    exact hplan.desiredIds
  apply tableOf_ext hids
  intro id c
  by_cases hdesired : ∃ command ∈ desired, command.id = id
  · obtain ⟨command, hmem, rfl⟩ := hdesired
    rw [getElem?_foldCommands_of_mem hnodup (List.mem_append_left _ hmem), hupsert command hmem]
    simp only [Option.some.injEq, List.mem_map]
    constructor
    · rintro rfl
      exact ⟨⟨command, hmem, rfl⟩, rfl⟩
    · rintro ⟨⟨other, hother, rfl⟩, hid⟩
      rw [List.inj_on_of_nodup_map hplan.desiredIds hother hmem hid]
  · have hnone : ¬ (c ∈ desired.map asConnection ∧ c.id = id) := by
      rintro ⟨hc, rfl⟩
      obtain ⟨command, hmem, rfl⟩ := List.mem_map.mp hc
      exact hdesired ⟨command, hmem, rfl⟩
    simp only [hnone, iff_false]
    by_cases hunexpected : ∃ connection ∈ unexpectedOf desired actual, connection.id = id
    · obtain ⟨connection, hmem, rfl⟩ := hunexpected
      have hget := getElem?_foldCommands_of_mem hnodup
        (List.mem_append_right _ (List.mem_map_of_mem hmem)) (tableOf actual)
      have hid : (removal connection).id = connection.id := rfl
      rw [hid] at hget
      rw [hget]
      simp [removal]
    · have hother : ∀ command ∈ desired ++ (unexpectedOf desired actual).map removal,
          command.id ≠ id := by
        intro command hcommand heq
        rcases List.mem_append.mp hcommand with hcommand | hcommand
        · exact hdesired ⟨command, hcommand, heq⟩
        · obtain ⟨connection, hconnection, rfl⟩ := List.mem_map.mp hcommand
          exact hunexpected ⟨connection, hconnection, heq⟩
      rw [getElem?_foldCommands_of_not_mem hother, getElem?_tableOf hplan.actualIds]
      rintro ⟨hc, rfl⟩
      exact hunexpected ⟨c, mem_unexpectedOf.mpr ⟨hc, fun command hcommand heq =>
        hdesired ⟨command, hcommand, heq⟩⟩, rfl⟩

theorem id_desiredDrift {command : ConnectionCommand} {drift : ConnectionDrift}
    (h : desiredDrift actual command = some drift) : drift.id = command.id := by
  unfold desiredDrift at h
  split at h
  · cases h
    rfl
  · split_ifs at h
    cases h
    rfl

theorem ids_filterMap_desiredDrift :
    ((desired.filterMap (desiredDrift actual)).map (·.id)).Sublist (desired.map (·.id)) := by
  induction desired with
  | nil => exact List.Sublist.refl _
  | cons command rest ih =>
      rw [List.filterMap_cons]
      cases hdrift : desiredDrift actual command with
      | none => exact ih.trans (List.sublist_cons_self _ _)
      | some drift =>
          simp only [List.map_cons, id_desiredDrift hdrift]
          exact ih.cons_cons _

/-- The drift of a desired connection says how it differs. -/
theorem mem_filterMap_desiredDrift (hactual : (actual.map (·.id)).Nodup) {id : String}
    {kind : ConnectionDriftKind} :
    (∃ drift ∈ desired.filterMap (desiredDrift actual), drift.id = id ∧ drift.kind = kind) ↔
      kind ≠ .unexpected ∧ Differs desired actual id kind := by
  constructor
  · rintro ⟨drift, hdrift, rfl, rfl⟩
    obtain ⟨command, hmem, hcommand⟩ := List.mem_filterMap.mp hdrift
    unfold desiredDrift at hcommand
    split at hcommand
    · rename_i hfind
      cases hcommand
      refine ⟨by simp, ⟨command, hmem, rfl⟩, ?_⟩
      simpa using hfind
    · rename_i connection hfind
      split_ifs at hcommand with happlies
      cases hcommand
      obtain ⟨hconnection, hid⟩ := mem_of_find? hfind
      refine ⟨by simp, command, hmem, connection, hconnection, rfl, hid, ?_⟩
      simp only [applies, Bool.and_eq_true, decide_eq_true_eq, not_and_or] at happlies
      tauto
  · rintro ⟨hkind, hdiffers⟩
    cases kind with
    | unexpected => exact absurd rfl hkind
    | missing =>
        obtain ⟨⟨command, hmem, rfl⟩, hnone⟩ := hdiffers
        refine ⟨{ id := command.id, kind := .missing, desired := command },
          List.mem_filterMap.mpr ⟨command, hmem, ?_⟩, rfl, rfl⟩
        have hfind : actual.find? (fun connection => connection.id = command.id) = none := by
          simpa using hnone
        simp only [desiredDrift, hfind]
    | mismatched =>
        obtain ⟨command, hmem, connection, hconnection, rfl, hid, hne⟩ := hdiffers
        refine ⟨{ id := command.id, kind := .mismatched, desired := command, actual := connection },
          List.mem_filterMap.mpr ⟨command, hmem, ?_⟩, rfl, rfl⟩
        have hfind := find?_of_nodup hactual hconnection
        rw [hid] at hfind
        have happlies : ¬ applies command connection = true := by
          simp only [applies, Bool.and_eq_true, decide_eq_true_eq, not_and_or]
          tauto
        simp only [desiredDrift, hfind, if_neg happlies]

/-- The drifts of a plan before they are sorted. -/
def driftsOf (desired : List ConnectionCommand) (actual : List AppliedConnection) :
    List ConnectionDrift :=
  desired.filterMap (desiredDrift actual) ++ (unexpectedOf desired actual).map unexpectedDrift

theorem mem_driftsOf (hactual : (actual.map (·.id)).Nodup) {id : String}
    {kind : ConnectionDriftKind} :
    (∃ drift ∈ driftsOf desired actual, drift.id = id ∧ drift.kind = kind) ↔
      Differs desired actual id kind := by
  have hdesired : (∃ drift ∈ desired.filterMap (desiredDrift actual), drift.id = id ∧
      drift.kind = kind) ↔ kind ≠ .unexpected ∧ Differs desired actual id kind :=
    mem_filterMap_desiredDrift hactual
  constructor
  · rintro ⟨drift, hdrift, hid, hkind⟩
    rcases List.mem_append.mp hdrift with hdrift | hdrift
    · exact (hdesired.mp ⟨drift, hdrift, hid, hkind⟩).2
    · obtain ⟨connection, hconnection, rfl⟩ := List.mem_map.mp hdrift
      cases hid
      cases hkind
      obtain ⟨hmem, hnone⟩ := mem_unexpectedOf.mp hconnection
      exact ⟨⟨connection, hmem, rfl⟩, hnone⟩
  · intro hdiffers
    by_cases hkind : kind = .unexpected
    · subst hkind
      obtain ⟨⟨connection, hmem, rfl⟩, hnone⟩ := hdiffers
      exact ⟨unexpectedDrift connection, List.mem_append_right _
        (List.mem_map_of_mem (mem_unexpectedOf.mpr ⟨hmem, hnone⟩)), rfl, rfl⟩
    · obtain ⟨drift, hdrift, hboth⟩ := hdesired.mpr ⟨hkind, hdiffers⟩
      exact ⟨drift, List.mem_append_left _ hdrift, hboth⟩

theorem nodup_driftsOf (hdesired : (desired.map (·.id)).Nodup)
    (hactual : (actual.map (·.id)).Nodup) : ((driftsOf desired actual).map (·.id)).Nodup := by
  refine List.Nodup.sublist ?_ (nodup_desired_unexpected hdesired hactual)
  rw [driftsOf, List.map_append, List.map_append, map_id_removal, List.map_map]
  exact ids_filterMap_desiredDrift.append (List.Sublist.refl _)

theorem Differs.perm {desired' : List ConnectionCommand} {actual' : List AppliedConnection}
    (hdesired : ∀ c, c ∈ desired' ↔ c ∈ desired) (hactual : ∀ c, c ∈ actual' ↔ c ∈ actual)
    (id : String) (kind : ConnectionDriftKind) :
    Differs desired' actual' id kind ↔ Differs desired actual id kind := by
  cases kind <;> simp only [Differs, hdesired, hactual]

/-- What is true of every plan, besides `PlanOk`. -/
structure PlanListed (desired : List ConnectionCommand) (actual : List AppliedConnection)
    (plan : ReconciliationPlan) : Prop where
  drifts : plan.drifts.Pairwise fun a b => a.id < b.id
  differs : ∀ id kind, (∃ drift ∈ plan.drifts, drift.id = id ∧ drift.kind = kind) ↔
    Differs desired actual id kind
  commands : plan.fullSnapshot.commands.Pairwise fun a b => a.id < b.id

theorem buildReconciliationPlan_listed {plan : ReconciliationPlan}
    (h : buildReconciliationPlan desired actual = .ok plan) : PlanListed desired actual plan := by
  have hok := buildReconciliationPlan_ok h
  have hdesired : ((sortById (·.id) desired).map (·.id)).Nodup :=
    (sortById_perm.map _).nodup_iff.mpr hok.desiredIds
  have hactual : ((sortById (·.id) actual).map (·.id)).Nodup :=
    (sortById_perm.map _).nodup_iff.mpr hok.actualIds
  unfold buildReconciliationPlan at h
  dsimp only at h
  split_ifs at h
  cases h
  constructor
  · exact sortById_lt (nodup_driftsOf hdesired hactual)
  · intro id kind
    rw [← Differs.perm (fun c => mem_sortById) (fun c => mem_sortById), ← mem_driftsOf hactual]
    simp only [mem_sortById]
    rfl
  · exact sortById_lt (nodup_desired_unexpected hdesired hactual)

theorem eq_asConnection {command : ConnectionCommand} {connection : AppliedConnection}
    (hid : connection.id = command.id) (happlies : applies command connection = true) :
    connection = asConnection command := by
  simp only [applies, Bool.and_eq_true, decide_eq_true_eq] at happlies
  cases connection
  simp_all [asConnection]

/-- Nothing is left to do exactly when both snapshots are one table. -/
theorem converged_iff {plan : ReconciliationPlan} (hplan : PlanOk desired actual plan) :
    plan.converged = true ↔ tableOf (desired.map asConnection) = tableOf actual := by
  have hids : ((desired.map asConnection).map (·.id)).Nodup := by
    rw [List.map_map]
    exact hplan.desiredIds
  rw [hplan.converged]
  constructor
  · rintro ⟨hall, hnone⟩
    apply tableOf_ext hplan.actualIds
    intro id c
    rw [getElem?_tableOf hids, List.mem_map]
    constructor
    · rintro ⟨⟨command, hcommand, rfl⟩, hid⟩
      obtain ⟨x, hx, hxid, happlies⟩ := hall command hcommand
      rw [eq_asConnection hxid happlies] at hx
      exact ⟨hx, hid⟩
    · rintro ⟨hc, hid⟩
      have hexpected : c ∉ unexpectedOf desired actual := by simp [hnone]
      simp only [mem_unexpectedOf, hc, true_and, not_forall, not_not] at hexpected
      obtain ⟨command, hcommand, hcid⟩ := hexpected
      obtain ⟨x, hx, hxid, happlies⟩ := hall command hcommand
      have hxc : x = c := List.inj_on_of_nodup_map hplan.actualIds hx hc (hxid.trans hcid)
      rw [hxc] at hxid happlies
      exact ⟨⟨command, hcommand, (eq_asConnection hxid happlies).symm⟩, hid⟩
  · intro htable
    have hmem : ∀ c : AppliedConnection, c ∈ desired.map asConnection ↔ c ∈ actual := by
      intro c
      have hd : (tableOf (desired.map asConnection))[c.id]? = some c ↔
          c ∈ desired.map asConnection ∧ c.id = c.id := getElem?_tableOf hids
      have ha : (tableOf actual)[c.id]? = some c ↔ c ∈ actual ∧ c.id = c.id :=
        getElem?_tableOf hplan.actualIds
      rw [htable, ha] at hd
      simpa using hd.symm
    constructor
    · intro command hcommand
      refine ⟨asConnection command, (hmem _).mp (List.mem_map_of_mem hcommand), rfl, ?_⟩
      simp [applies, asConnection]
    · apply List.eq_nil_iff_forall_not_mem.mpr
      intro c hc
      obtain ⟨hactual, hnone⟩ := mem_unexpectedOf.mp hc
      obtain ⟨command, hcommand, rfl⟩ := List.mem_map.mp ((hmem c).mpr hactual)
      exact hnone command hcommand rfl

end Plans

/-! ## The plan on the device -/

/-- A desired matching that the device can hold. -/
structure Installable (d : SimulatedOcsDevice CommandId) (desired : List ConnectionCommand) :
    Prop where
  upserts : ∀ command ∈ desired, command.operation = .upsert
  ids : (desired.map (·.id)).Nodup
  named : ∀ command ∈ desired, command.id ≠ ""
  range : ∀ command ∈ desired, (1 ≤ command.inputPort ∧ command.inputPort ≤ d.info.inputPortCount) ∧
    1 ≤ command.outputPort ∧ command.outputPort ≤ d.info.outputPortCount
  apart : ∀ a ∈ desired, ∀ b ∈ desired,
    a.inputPort = b.inputPort ∨ a.outputPort = b.outputPort → a.id = b.id
  fences : ∀ command ∈ desired, ∀ last : Nat, d.lastVersions[command.id]? = some last →
    last ≤ command.desiredVersion

/-- Every port of the device can take a connection. -/
def AllPortsAvailable (d : SimulatedOcsDevice CommandId) : Prop :=
  ∀ direction id, 1 ≤ id → id ≤ d.portCount direction → d.PortAvailable direction id

theorem getConnections_nodup {ω : Type} {d : SimulatedOcsDevice ω} (h : Coherent d) :
    (d.getConnections.map (·.id)).Nodup := by
  have hkeys : d.connections.toList.Pairwise fun a b => ¬ compare a.1 b.1 = .eq :=
    ExtTreeMap.distinct_keys_toList
  unfold getConnections
  rw [List.map_map]
  apply List.pairwise_map.mpr
  apply hkeys.imp_of_mem
  rintro ⟨id, c⟩ ⟨id', c'⟩ hc hc' hne heq
  have hid := (h.keyed id c (mem_toList.mp hc)).1
  have hid' := (h.keyed id' c' (mem_toList.mp hc')).1
  exact hne (Std.compare_eq_iff_eq.mpr (hid.symm.trans (heq.trans hid')))

theorem tableOf_getConnections {ω : Type} {d : SimulatedOcsDevice ω} (h : Coherent d) :
    d.connections = tableOf d.getConnections := by
  apply tableOf_ext (getConnections_nodup h)
  intro id c
  unfold getConnections
  rw [mem_getConnections]
  constructor
  · intro hc
    exact ⟨⟨id, hc⟩, (h.keyed id c hc).1⟩
  · rintro ⟨⟨id', hc⟩, rfl⟩
    rw [(h.keyed id' c hc).1]
    exact hc

/-- The sorted entries of a table are its connections in id order. -/
theorem toList_tableOf {connections : List AppliedConnection}
    (hnodup : (connections.map (·.id)).Nodup) :
    (tableOf connections).toList.map Prod.snd = sortById (·.id) connections := by
  have hmem : ∀ c, c ∈ (tableOf connections).toList.map Prod.snd ↔ c ∈ connections := by
    intro c
    rw [mem_getConnections]
    constructor
    · rintro ⟨id, hc⟩
      exact ((getElem?_tableOf hnodup).mp hc).1
    · intro hc
      exact ⟨c.id, (getElem?_tableOf hnodup).mpr ⟨hc, rfl⟩⟩
  have hsorted : ((tableOf connections).toList.map Prod.snd).Pairwise fun a b => a.id < b.id := by
    have hkeys : (tableOf connections).toList.Pairwise fun a b => compare a.1 b.1 = .lt :=
      ExtTreeMap.ordered_keys_toList
    apply List.pairwise_map.mpr
    apply hkeys.imp_of_mem
    rintro ⟨id, c⟩ ⟨id', c'⟩ hc hc' hlt
    have hid := ((getElem?_tableOf hnodup).mp (mem_toList.mp hc)).2
    have hid' := ((getElem?_tableOf hnodup).mp (mem_toList.mp hc')).2
    rw [hid, hid']
    exact compare_lt_iff_lt.mp hlt
  have hirrefl : Std.Irrefl fun a b : AppliedConnection => a.id < b.id := ⟨fun a => lt_irrefl a.id⟩
  have hanti : Std.Antisymm fun a b : AppliedConnection => a.id < b.id :=
    ⟨fun a b hab hba => absurd hab (lt_asymm hba)⟩
  exact List.Subset.antisymm_of_pairwise hsorted (sortById_lt hnodup)
    (fun c hc => mem_sortById.mpr ((hmem c).mp hc)) (fun c hc => (hmem c).mpr (mem_sortById.mp hc))

section Devices

variable {d : SimulatedOcsDevice CommandId} {desired : List ConnectionCommand}
  {plan : ReconciliationPlan}

theorem foldCommands_installable (hd : Reachable d) (hdesired : Installable d desired)
    (hplan : PlanOk desired d.getConnections plan) :
    foldCommands d.connections plan.fullSnapshot.commands = tableOf (desired.map asConnection) := by
  rw [tableOf_getConnections hd.sound.coherent]
  exact foldCommands_plan hdesired.upserts hplan

/-- Removals carry the version of the connection they remove, which is its fence. -/
theorem plan_valid (hd : Reachable d)
    (hnonzero : ∀ connection ∈ d.getConnections, connection.appliedVersion ≠ 0)
    (hports : AllPortsAvailable d) (hdesired : Installable d desired)
    (hplan : PlanOk desired d.getConnections plan) : d.Valid plan.fullSnapshot.commands := by
  have hcases : ∀ command ∈ plan.fullSnapshot.commands, command ∈ desired ∨
      ∃ connection : AppliedConnection, d.connections[connection.id]? = some connection ∧
        connection ∈ d.getConnections ∧ command = removal connection := by
    intro command hcommand
    rcases List.mem_append.mp (hplan.commands.mem_iff.mp hcommand) with hmem | hmem
    · exact .inl hmem
    · obtain ⟨connection, hconnection, rfl⟩ := List.mem_map.mp hmem
      have hactual := (mem_unexpectedOf.mp hconnection).1
      obtain ⟨id, hid⟩ := mem_getConnections.mp hactual
      refine .inr ⟨connection, ?_, hactual, rfl⟩
      rw [(hd.sound.coherent.keyed id connection hid).1]
      exact hid
  constructor
  · intro command hcommand _ last hlast
    rcases hcases command hcommand with hmem | ⟨connection, hget, hmem, rfl⟩
    · exact hdesired.fences command hmem last hlast
    · have hfence := hd.fenced connection.id connection hget (hnonzero connection hmem)
      have hsame : d.lastVersions[connection.id]? = some last := hlast
      rw [hfence] at hsame
      cases hsame
      exact Nat.le_max_left ..
  · intro command hcommand
    rcases hcases command hcommand with hmem | ⟨connection, hget, -, rfl⟩
    · exact hdesired.named command hmem
    · exact (hd.sound.coherent.keyed connection.id connection hget).2.1
  · intro command hcommand hupsert
    rcases hcases command hcommand with hmem | ⟨connection, -, -, rfl⟩
    · obtain ⟨⟨hin, hin'⟩, hout, hout'⟩ := hdesired.range command hmem
      exact ⟨hports .input _ hin hin', hports .output _ hout hout'⟩
    · cases hupsert
  · rw [foldCommands_installable hd hdesired hplan]
    have hids : ((desired.map asConnection).map (·.id)).Nodup := by
      rw [List.map_map]
      exact hdesired.ids
    intro id id' c c' hc hc' hshare
    obtain ⟨hmem, rfl⟩ := (getElem?_tableOf hids).mp hc
    obtain ⟨hmem', rfl⟩ := (getElem?_tableOf hids).mp hc'
    obtain ⟨a, ha, rfl⟩ := List.mem_map.mp hmem
    obtain ⟨b, hb, rfl⟩ := List.mem_map.mp hmem'
    exact hdesired.apart a ha b hb hshare

theorem plan_applies (hd : Reachable d)
    (hnonzero : ∀ connection ∈ d.getConnections, connection.appliedVersion ≠ 0)
    (hports : AllPortsAvailable d) (hunarmed : d.Unarmed) (hdesired : Installable d desired)
    (hplan : PlanOk desired d.getConnections plan) {op : Option CommandId}
    (hfresh : d.cachedResult { plan.fullSnapshot.options with operationId := op } = none) :
    ∃ result d', d.applyConnections plan.fullSnapshot.commands
        { plan.fullSnapshot.options with operationId := op } = .ok (result, d') ∧
      result.isOk = true ∧ d'.getConnections = sortById (·.id) (desired.map asConnection) := by
  have hvalid := plan_valid hd hnonzero hports hdesired hplan
  have hatomic : plan.fullSnapshot.options.atomic = true := by rw [hplan.options]
  obtain ⟨⟨result, d'⟩, hrun, hout⟩ := hd.sound.outcome plan.fullSnapshot.commands hfresh
  refine ⟨result, d', hrun, ?_⟩
  generalize hr : (result, d') = r at hout
  cases hout with
  | refused herror hinvalid => exact absurd ⟨hatomic, hvalid⟩ hinvalid
  | injected herror _ _ harmed => exact absurd hunarmed harmed
  | @applied copies _ _ _ hcopies =>
      have hresult := (congrArg Prod.fst hr).trans (finish_fst ..)
      have hdevice : d' = _ := congrArg Prod.snd hr
      have hsame := (d.commit plan.fullSnapshot.commands copies).finish_same
        { plan.fullSnapshot.options with operationId := op } ⟨Error.success,
          changedConnections (foldCommands d.connections plan.fullSnapshot.commands)
            plan.fullSnapshot.commands⟩
      rw [← hdevice] at hsame
      dsimp only at hresult
      refine ⟨by rw [hresult]; rfl, ?_⟩
      have hids : ((desired.map asConnection).map (·.id)).Nodup := by
        rw [List.map_map]
        exact hdesired.ids
      unfold getConnections
      rw [hsame.connections, ← toList_tableOf hids, ← foldCommands_installable hd hdesired hplan]
      rfl

end Devices

/-- The planner refuses exactly repeated ids; a plan lists each difference once in id order, its
commands have distinct increasing ids and fold the actual table into the desired one, and it is
converged exactly when both are one table. On a device with connections of nonzero versions,
every port available and no armed fault, the plan of any installable matching is taken as one
batch and leaves exactly that matching. -/
theorem reconciliation_plan_correct :
    (∀ (desired : List ConnectionCommand) (actual : List AppliedConnection),
      (∀ command ∈ desired, command.operation = .upsert) →
      ((∃ e, buildReconciliationPlan desired actual = .error e) ↔
        ¬ (desired.map (·.id)).Nodup ∨ ¬ (actual.map (·.id)).Nodup) ∧
      ∀ plan, buildReconciliationPlan desired actual = .ok plan →
        plan.drifts.Pairwise (fun a b => a.id < b.id) ∧
        (∀ id kind, (∃ drift ∈ plan.drifts, drift.id = id ∧ drift.kind = kind) ↔
          Differs desired actual id kind) ∧
        plan.fullSnapshot.commands.Pairwise (fun a b => a.id < b.id) ∧
        foldCommands (tableOf actual) plan.fullSnapshot.commands =
          tableOf (desired.map asConnection) ∧
        (plan.converged = true ↔ tableOf (desired.map asConnection) = tableOf actual)) ∧
    ∀ (d : SimulatedOcsDevice CommandId) (desired : List ConnectionCommand), Reachable d →
      (∀ connection ∈ d.getConnections, connection.appliedVersion ≠ 0) →
      AllPortsAvailable d → d.Unarmed → Installable d desired →
      ∃ plan, buildReconciliationPlan desired d.getConnections = .ok plan ∧
        ∀ op, d.cachedResult { plan.fullSnapshot.options with operationId := op } = none →
          ∃ result d', d.applyConnections plan.fullSnapshot.commands
              { plan.fullSnapshot.options with operationId := op } = .ok (result, d') ∧
            result.isOk = true ∧
            d'.getConnections = sortById (·.id) (desired.map asConnection) := by
  constructor
  · intro desired actual hupsert
    refine ⟨buildReconciliationPlan_error, ?_⟩
    intro plan hplan
    have hlisted := buildReconciliationPlan_listed hplan
    have hok := buildReconciliationPlan_ok hplan
    exact ⟨hlisted.drifts, hlisted.differs, hlisted.commands, foldCommands_plan hupsert hok,
      converged_iff hok⟩
  · intro d desired hd hnonzero hports hunarmed hdesired
    cases hbuild : buildReconciliationPlan desired d.getConnections with
    | error e =>
        rcases buildReconciliationPlan_error.mp ⟨e, hbuild⟩ with hdup | hdup
        · exact absurd hdesired.ids hdup
        · exact absurd (getConnections_nodup hd.sound.coherent) hdup
    | ok plan =>
        refine ⟨plan, rfl, ?_⟩
        intro op hfresh
        exact plan_applies hd hnonzero hports hunarmed hdesired (buildReconciliationPlan_ok hbuild)
          hfresh

/-- A two-by-two device with a crossed pair. -/
def crossedDevice : SimulatedOcsDevice CommandId where
  info := twoByTwo.info
  connections := tableOf [⟨"a", 1, 2, 1⟩, ⟨"b", 2, 1, 1⟩]
  lastVersions := recordVersions ∅ crossedPair
  inputToOutput := [some 2, some 1]
  outputToInput := [some 2, some 1]
  inputPorts := twoByTwo.inputPorts
  outputPorts := twoByTwo.outputPorts
  applyResults := [(.config 0, ⟨Error.success, [⟨"a", 1, 2, 1⟩, ⟨"b", 2, 1, 1⟩]⟩)]
  applyResultOrder := [.config 0]
  failNextApply := false
  timeoutNextApply := false

theorem crossedDevice_reachable : Reachable crossedDevice := by
  refine ⟨twoByTwo.info, _, [.applyConnections crossedPair { operationId := some (.config 0) }],
    rfl, ?_⟩
  rfl

/-- One connection is moved, one removed and one added, all on taken ports. -/
def uncrossed : List ConnectionCommand :=
  [{ id := "a", inputPort := 1, outputPort := 1, desiredVersion := 2 },
    { id := "c", inputPort := 2, outputPort := 2, desiredVersion := 1 }]

theorem crossedDevice_ports : AllPortsAvailable crossedDevice := by
  intro direction id hpos hle
  have hid : id = 1 ∨ id = 2 := by
    cases direction
    · have hcount : crossedDevice.portCount .input = 2 := rfl
      omega
    · have hcount : crossedDevice.portCount .output = 2 := rfl
      omega
  apply validatePortAvailable_ok.mp
  rcases hid with rfl | rfl <;> cases direction <;> rfl

theorem uncrossed_installable : Installable crossedDevice uncrossed := by
  constructor
  · decide
  · decide
  · decide
  · decide +kernel
  · decide
  · intro command hcommand last hlast
    simp only [uncrossed, List.mem_cons, List.not_mem_nil, or_false] at hcommand
    rcases hcommand with rfl | rfl
    · have hfence : crossedDevice.lastVersions["a"]? = some 1 := rfl
      rw [hfence] at hlast
      cases hlast
      decide
    · have hfence : crossedDevice.lastVersions["c"]? = none := rfl
      rw [hfence] at hlast
      cases hlast

theorem reconciliation_plan_correct_crossedDevice :
    Reachable crossedDevice ∧ Installable crossedDevice uncrossed ∧
    ∃ plan, buildReconciliationPlan uncrossed crossedDevice.getConnections = .ok plan ∧
      ∀ op, crossedDevice.cachedResult { plan.fullSnapshot.options with operationId := op } = none →
        ∃ result d', crossedDevice.applyConnections plan.fullSnapshot.commands
            { plan.fullSnapshot.options with operationId := op } = .ok (result, d') ∧
          result.isOk = true ∧
          d'.getConnections = sortById (·.id) (uncrossed.map asConnection) :=
  ⟨crossedDevice_reachable, uncrossed_installable,
    reconciliation_plan_correct.2 crossedDevice uncrossed crossedDevice_reachable (by decide +kernel)
      crossedDevice_ports ⟨rfl, rfl⟩ uncrossed_installable⟩

end MiniOcs
