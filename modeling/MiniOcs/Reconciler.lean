import Mathlib.Data.List.Sort
import Mathlib.Data.String.Basic
import MiniOcs.Records

/-!
# Reconciliation plans

`reconciler.cpp`: how the desired connections differ from the actual ones, and the whole
desired snapshot that removes the difference.
-/
namespace MiniOcs

inductive ConnectionDriftKind where
  | missing
  | mismatched
  | unexpected
  deriving DecidableEq, Repr

structure ConnectionDrift where
  id : String
  kind : ConnectionDriftKind
  desired : ConnectionCommand
  actual : AppliedConnection := ⟨"", 0, 0, 0⟩
  deriving DecidableEq, Repr

structure ReconciliationPlan where
  fullSnapshot : DeviceCommandBatch
  drifts : List ConnectionDrift
  deriving DecidableEq, Repr

def ReconciliationPlan.converged (plan : ReconciliationPlan) : Bool := plan.drifts.isEmpty

/-- Sorting by connection id. -/
def sortById {α : Type} (id : α → String) (items : List α) : List α :=
  items.insertionSort fun a b => id a ≤ id b

/-- Two neighbours with one id. -/
def adjacentDuplicate {α : Type} (id : α → String) : List α → Bool
  | a :: b :: rest => decide (id a = id b) || adjacentDuplicate id (b :: rest)
  | _ => false

def applies (command : ConnectionCommand) (connection : AppliedConnection) : Bool :=
  decide (connection.inputPort = command.inputPort) &&
    decide (connection.outputPort = command.outputPort) &&
    decide (connection.appliedVersion = command.desiredVersion)

/-- What is there is what the command wants. -/
def intentMatches (command : ConnectionCommand) (found : Option AppliedConnection) : Bool :=
  match command.operation, found with
  | .remove, none => true
  | .remove, some _ => false
  | .upsert, none => false
  | .upsert, some connection => applies command connection

/-- The drift of one desired connection. -/
def desiredDrift (actual : List AppliedConnection) (command : ConnectionCommand) :
    Option ConnectionDrift :=
  match actual.find? fun connection => connection.id = command.id with
  | none => some { id := command.id, kind := .missing, desired := command }
  | some connection =>
      if applies command connection then none
      else some { id := command.id, kind := .mismatched, desired := command, actual := connection }

/-- The removal of a connection that nobody asked for. -/
def removal (connection : AppliedConnection) : ConnectionCommand where
  operation := .remove
  id := connection.id
  desiredVersion := max connection.appliedVersion 1

def unexpectedDrift (connection : AppliedConnection) : ConnectionDrift where
  id := connection.id
  kind := .unexpected
  desired := removal connection
  actual := connection

def buildReconciliationPlan (desired : List ConnectionCommand) (actual : List AppliedConnection) :
    Except String ReconciliationPlan :=
  let desired := sortById (·.id) desired
  let actual := sortById (·.id) actual
  if adjacentDuplicate (·.id) desired || adjacentDuplicate (·.id) actual then
    .error "reconciliation snapshots contain duplicate connection IDs"
  else
    let unexpected := actual.filter fun connection =>
      !desired.any fun command => command.id = connection.id
    .ok {
      fullSnapshot := { commands := sortById (·.id) (desired ++ unexpected.map removal) }
      drifts := sortById (·.id)
        (desired.filterMap (desiredDrift actual) ++ unexpected.map unexpectedDrift) }

/-! ## What a plan contains -/

section Sorting

variable {α : Type} {id : α → String} {items : List α}

theorem sortById_perm : (sortById id items).Perm items := List.perm_insertionSort _ _

theorem mem_sortById {a : α} : a ∈ sortById id items ↔ a ∈ items := sortById_perm.mem_iff

theorem sortById_pairwise : (sortById id items).Pairwise fun a b => id a ≤ id b := by
  have htotal : Std.Total fun a b : α => id a ≤ id b := ⟨fun a b => le_total (id a) (id b)⟩
  have htrans : IsTrans α fun a b => id a ≤ id b := ⟨fun _ _ _ => le_trans⟩
  exact List.pairwise_insertionSort _ items

/-- Sorted items without equal neighbours have distinct ids. -/
theorem nodup_of_adjacentDuplicate {sorted : List α}
    (hsorted : sorted.Pairwise fun a b => id a ≤ id b) (h : adjacentDuplicate id sorted = false) :
    (sorted.map id).Nodup := by
  induction sorted with
  | nil => exact List.nodup_nil
  | cons a rest ih =>
      rw [List.map_cons, List.nodup_cons]
      cases rest with
      | nil => simp
      | cons b rest =>
          simp only [adjacentDuplicate, Bool.or_eq_false_iff, decide_eq_false_iff_not] at h
          obtain ⟨hle, hrest⟩ := List.pairwise_cons.mp hsorted
          refine ⟨fun hmem => ?_, ih hrest h.2⟩
          obtain ⟨c, hc, heq⟩ := List.mem_map.mp hmem
          have hab : id a < id b := lt_of_le_of_ne (hle b (by simp)) h.1
          have hbc : id b ≤ id c := by
            rcases List.mem_cons.mp hc with rfl | hc
            · exact le_refl _
            · exact (List.pairwise_cons.mp hrest).1 c hc
          exact absurd heq (lt_of_lt_of_le hab hbc).ne'

theorem nodup_of_sortById (h : adjacentDuplicate id (sortById id items) = false) :
    (items.map id).Nodup :=
  (sortById_perm.map id).nodup_iff.mp (nodup_of_adjacentDuplicate sortById_pairwise h)

end Sorting

/-- The actual connections that nobody asked for. -/
def unexpectedOf (desired : List ConnectionCommand) (actual : List AppliedConnection) :
    List AppliedConnection :=
  actual.filter fun connection => !desired.any fun command => command.id = connection.id

/-- A drift tells the truth about the actual connections. -/
def DriftOk (actual : List AppliedConnection) (drift : ConnectionDrift) : Prop :=
  match drift.kind with
  | .missing => ∀ x ∈ actual, x.id ≠ drift.id
  | _ => drift.actual ∈ actual ∧ drift.actual.id = drift.id

theorem mem_of_find? {actual : List AppliedConnection} {id : String} {x : AppliedConnection}
    (h : actual.find? (fun connection => connection.id = id) = some x) : x ∈ actual ∧ x.id = id :=
  ⟨List.mem_of_find?_eq_some h, by simpa using List.find?_some h⟩

theorem desired_desiredDrift {actual : List AppliedConnection} {command : ConnectionCommand}
    {drift : ConnectionDrift} (h : desiredDrift actual command = some drift) :
    drift.desired = command := by
  unfold desiredDrift at h
  split at h
  · cases h
    rfl
  · split_ifs at h
    cases h
    rfl

theorem driftOk_desiredDrift {actual : List AppliedConnection} {command : ConnectionCommand}
    {drift : ConnectionDrift} (h : desiredDrift actual command = some drift) :
    DriftOk actual drift := by
  unfold desiredDrift at h
  split at h
  · rename_i hfind
    cases h
    simpa [DriftOk] using hfind
  · rename_i x hfind
    split_ifs at h
    cases h
    exact mem_of_find? hfind

structure PlanOk (desired : List ConnectionCommand) (actual : List AppliedConnection)
    (plan : ReconciliationPlan) : Prop where
  desiredIds : (desired.map (·.id)).Nodup
  actualIds : (actual.map (·.id)).Nodup
  options : plan.fullSnapshot.options = {}
  commands : plan.fullSnapshot.commands.Perm
    (desired ++ (unexpectedOf desired actual).map removal)
  drifts : ∀ drift ∈ plan.drifts, DriftOk actual drift
  planned : ∀ drift ∈ plan.drifts, drift.desired ∈ plan.fullSnapshot.commands
  converged : plan.converged = true ↔
    (∀ c ∈ desired, ∃ x ∈ actual, x.id = c.id ∧ applies c x = true) ∧
      unexpectedOf desired actual = []

theorem find?_of_nodup {actual : List AppliedConnection} (hnd : (actual.map (·.id)).Nodup)
    {x : AppliedConnection} (hx : x ∈ actual) :
    actual.find? (fun connection => connection.id = x.id) = some x := by
  cases hfind : actual.find? (fun connection => connection.id = x.id) with
  | none =>
      have hne := List.find?_eq_none.mp hfind x hx
      simp at hne
  | some y =>
      obtain ⟨hy, hid⟩ := mem_of_find? hfind
      rw [List.inj_on_of_nodup_map hnd hy hx hid]

theorem buildReconciliationPlan_ok {desired : List ConnectionCommand}
    {actual : List AppliedConnection} {plan : ReconciliationPlan}
    (h : buildReconciliationPlan desired actual = .ok plan) : PlanOk desired actual plan := by
  unfold buildReconciliationPlan at h
  dsimp only at h
  split_ifs at h with hdup
  cases h
  simp only [Bool.or_eq_true, not_or, Bool.not_eq_true] at hdup
  have hdesired := nodup_of_sortById hdup.1
  have hactual := nodup_of_sortById hdup.2
  have hany : ∀ x : AppliedConnection,
      (sortById (·.id) desired).any (fun command => command.id = x.id) =
        desired.any fun command => command.id = x.id :=
    fun x => sortById_perm.any_eq
  have hunexpected : ((sortById (·.id) actual).filter fun connection =>
      !(sortById (·.id) desired).any fun command => command.id = connection.id).Perm
        (unexpectedOf desired actual) := by
    simp only [hany]
    exact sortById_perm.filter _
  have hdrift : ∀ c, c ∈ desired → (desiredDrift (sortById (·.id) actual) c = none ↔
      ∃ x ∈ actual, x.id = c.id ∧ applies c x = true) := by
    intro c _
    have hnd : ((sortById (·.id) actual).map (·.id)).Nodup :=
      (sortById_perm.map _).nodup_iff.mpr hactual
    unfold desiredDrift
    constructor
    · intro hnone
      split at hnone
      · cases hnone
      · rename_i x hfind
        obtain ⟨hx, hid⟩ := mem_of_find? hfind
        split_ifs at hnone with happ
        exact ⟨x, mem_sortById.mp hx, hid, happ⟩
    · rintro ⟨x, hx, hid, happ⟩
      have hfind := find?_of_nodup hnd (mem_sortById.mpr hx)
      rw [hid] at hfind
      rw [hfind]
      simp [happ]
  refine ⟨hdesired, hactual, rfl, ?_, fun drift hd => ?_, fun drift hd => ?_, ?_⟩
  · exact sortById_perm.trans (sortById_perm.append (hunexpected.map _))
  · rcases List.mem_append.mp (mem_sortById.mp hd) with hd | hd
    · obtain ⟨c, -, hc⟩ := List.mem_filterMap.mp hd
      have hok := driftOk_desiredDrift hc
      unfold DriftOk at hok ⊢
      split at hok
      · exact fun x hx => hok x (mem_sortById.mpr hx)
      · exact ⟨mem_sortById.mp hok.1, hok.2⟩
    · obtain ⟨x, hx, rfl⟩ := List.mem_map.mp hd
      exact ⟨mem_sortById.mp (List.mem_filter.mp hx).1, rfl⟩
  · apply mem_sortById.mpr
    rcases List.mem_append.mp (mem_sortById.mp hd) with hd | hd
    · obtain ⟨c, hmem, hc⟩ := List.mem_filterMap.mp hd
      rw [desired_desiredDrift hc]
      exact List.mem_append_left _ hmem
    · obtain ⟨x, hx, rfl⟩ := List.mem_map.mp hd
      exact List.mem_append_right _ (List.mem_map_of_mem hx)
  · have hempty : ∀ l : List ConnectionDrift, (sortById (·.id) l = [] ↔ l = []) := fun l =>
      ⟨fun h => List.perm_nil.mp (h ▸ sortById_perm.symm), fun h => by rw [h]; rfl⟩
    simp only [ReconciliationPlan.converged, List.isEmpty_iff, hempty, List.append_eq_nil_iff,
      List.map_eq_nil_iff, List.filterMap_eq_nil_iff]
    refine and_congr ⟨fun hall c hc => ?_, fun hall c hc => ?_⟩
      ⟨fun hnil => ?_, fun hnil => ?_⟩
    · exact (hdrift c hc).mp (hall c (mem_sortById.mpr hc))
    · exact (hdrift c (mem_sortById.mp hc)).mpr (hall c (mem_sortById.mp hc))
    · exact List.perm_nil.mp (hnil ▸ hunexpected.symm)
    · exact List.perm_nil.mp (hnil ▸ hunexpected)

end MiniOcs
