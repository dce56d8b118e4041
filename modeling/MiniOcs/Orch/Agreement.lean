import MiniOcs.Gnmi.Linearizable
import MiniOcs.Orch.Copies

/-!
# One orchestrator

A single orchestrator among Sets that commit and a syncd that records attempts and publishes
results, in any order. Its handlers start at any time, one at a time, and are cut anywhere.
-/
namespace MiniOcs.Orch
open Std Concurrent

/-- What happens around the orchestrator. A time-out is published after its attempt. -/
inductive Surroundings (s : World) : World → Prop
  | commit {db : Gnmi.ConfigDb} : Gnmi.Commits s.inventory s.config db →
      Surroundings s { s with config := db }
  | attempt {c : CommandId} {batch : DeviceCommandBatch} :
      s.syncd.hash (.applyAttempt c) = none → (batchIds batch).Nodup →
      Surroundings s (s.setSyncd (s.syncd.setHash (.applyAttempt c) batch))
  | result {r : ResultEvent} : (∀ r' ∈ s.syncd.results, r'.id ≠ r.id) →
      (isTimeout r = true → (s.syncd.hash (.applyAttempt r.commandId)).isSome) →
      Surroundings s (s.setSyncd { s.syncd with results := s.syncd.results ++ [r] })

def handlers (policy : ApplyRetryPolicy) (p : Service Bool) : Prop :=
  p = processConfigOne ∨ p = processResultOne policy ∨ p = processRetryOne

/-- A restriction on the operations of the orchestrator. -/
def onOrch (allow : World → OrchOp → Prop) : Op → Nat → World → Prop
  | .orch o, _, w => allow w o
  | .syncd _, _, _ => True

instance (allow : World → OrchOp → Prop) [∀ w o, Decidable (allow w o)] :
    (o : Op) → (choice : Nat) → (w : World) → Decidable (onOrch allow o choice w)
  | .orch o, _, w => inferInstanceAs (Decidable (allow w o))
  | .syncd _, _, _ => isTrue trivial

/-- The system of one orchestrator. `allow` restricts the operations a run may contain. -/
def orchestrator (policy : ApplyRetryPolicy) (allow : World → OrchOp → Prop) :
    System Op Op.Reply Raised Bool World Unit where
  exec := exec
  init w := ∃ inventory hwsim, w = { inventory := inventory, hwsim := hwsim }
  starts _ _ p := handlers policy p
  crash _ w := w
  env := Surroundings
  allow _ := onOrch allow

theorem safe_handlers {policy : ApplyRetryPolicy} {p : Service Bool} (hp : handlers policy p)
    (s : World) : SafeAt policy p s := by
  rcases hp with rfl | rfl | rfl
  · exact safe_processConfigOne
  · exact safe_processResultOne
  · exact safe_processRetryOne

theorem Surroundings.frame {s t : World} (h : Surroundings s t) : Frame s t := by
  cases h with
  | commit hc =>
      cases hc with
      | intro _ _ _ _ => exact ⟨rfl, List.prefix_append _ _, List.prefix_rfl, fun _ _ h => h⟩
  | @attempt c batch hnone _ =>
      refine ⟨rfl, List.prefix_rfl, List.prefix_rfl, fun c' batch' hb => ?_⟩
      have hne : SyncdKey.applyAttempt c' ≠ .applyAttempt c := by
        intro heq
        cases heq
        rw [hnone] at hb
        cases hb
      simpa [World.setSyncd, SyncdState.setHash, Function.update_of_ne hne] using hb
  | result _ _ => exact ⟨rfl, List.prefix_rfl, List.prefix_append _ _, fun _ _ h => h⟩

/-- A world with the same markers: attempts and results may be new. -/
theorem Orderly.surroundings {s t : World} (h : Orderly s) (ht : Surroundings s t) : Orderly t := by
  have hframe := ht.frame
  refine ⟨by rw [hframe.orch]; exact h.prepared, by rw [hframe.orch]; exact h.application,
    by rw [hframe.orch]; exact h.deviceState, by rw [hframe.orch]; exact h.result,
    by rw [hframe.orch]; exact h.timeout, by rw [hframe.orch]; exact h.retry,
    by rw [hframe.orch]; exact h.retryDevice, ?_, by rw [hframe.orch]; exact h.retries, ?_⟩
  · cases ht with
    | commit _ => exact h.attempts
    | @attempt c batch _ hnd =>
        intro c' batch' hb
        by_cases hc : c' = c
        · subst hc
          simp only [World.setSyncd, SyncdState.setHash, Function.update_self, Option.some.injEq]
            at hb
          exact hb ▸ hnd
        · have hne : SyncdKey.applyAttempt c' ≠ .applyAttempt c := by simpa using hc
          simp only [World.setSyncd, SyncdState.setHash, Function.update_of_ne hne] at hb
          exact h.attempts c' batch' hb
    | result _ _ => exact h.attempts
  · cases ht with
    | commit _ => exact h.recorded
    | attempt _ _ =>
        intro r hr htimeout
        obtain ⟨batch', hb⟩ := Option.isSome_iff_exists.mp (h.recorded r hr htimeout)
        exact Option.isSome_of_eq_some (hframe.attempts _ _ hb)
    | result _ hrec =>
        intro r hr htimeout
        rcases List.mem_append.mp hr with hr | hr
        · exact h.recorded r hr htimeout
        · rw [List.mem_singleton.mp hr] at htimeout ⊢
          exact hrec htimeout

theorem Tidy.surroundings {s t : World} (h : Tidy s) (ht : Surroundings s t) : Tidy t := by
  cases ht with
  | commit hc =>
      refine ⟨h.log.commit hc, h.serial, fun g => ?_, h.resultIds, h.retryIds, h.retryPublished,
        fun e payload hp => ?_, h.knownResult, h.knownRetry, h.clock⟩
      · cases g
        · refine Nat.le_trans (h.within .config) ?_
          exact (Surroundings.commit hc).frame.config.length_le
        · exact h.within .results
        · exact h.within .retries
      · obtain ⟨n, event, hn, hget, hrest⟩ := h.prepared e payload hp
        exact ⟨n, event, hn,
          Gnmi.getElem?_of_prefix (Surroundings.commit hc).frame.config hget, hrest⟩
  | attempt _ _ =>
      refine ⟨h.log, h.serial, fun g => ?_, h.resultIds, h.retryIds, h.retryPublished, h.prepared,
        h.knownResult, h.knownRetry, h.clock⟩
      cases g
      · exact h.within .config
      · exact h.within .results
      · exact h.within .retries
  | @result r hnew _ =>
      refine ⟨h.log, h.serial, fun g => ?_, ?_, h.retryIds, h.retryPublished, h.prepared,
        fun r' hr' => ?_, h.knownRetry, h.clock⟩
      · cases g
        · exact h.within .config
        · refine Nat.le_trans (h.within .results) ?_
          change s.syncd.results.length ≤ (s.syncd.results ++ _).length
          simp
        · exact h.within .retries
      · intro i j a b hi hj hab
        have hi' : (s.syncd.results ++ [r])[i]? = some a := hi
        have hj' : (s.syncd.results ++ [r])[j]? = some b := hj
        rcases getElem?_concat hi' with ha | ⟨rfl, rfl⟩ <;>
          rcases getElem?_concat hj' with hb | ⟨rfl, rfl⟩
        · exact h.resultIds i j a b ha hb hab
        · exact absurd hab (hnew a (List.mem_of_getElem? ha))
        · exact absurd hab.symm (hnew b (List.mem_of_getElem? hb))
        · rfl
      · obtain ⟨n, result, hn, hget, hid⟩ := h.knownResult r' hr'
        exact ⟨n, result, hn, Gnmi.getElem?_of_prefix (List.prefix_append _ _) hget, hid⟩

theorem orderly_init (inventory : Gnmi.Inventory) (hwsim : SimulatedOcsDevice CommandId) :
    Orderly { inventory := inventory, hwsim := hwsim } := by
  refine ⟨?_, ?_, ?_, ?_, ?_, ?_, ?_, ?_, ?_, ?_⟩ <;> intros <;> simp_all

theorem tidy_init (inventory : Gnmi.Inventory) (hwsim : SimulatedOcsDevice CommandId) :
    Tidy { inventory := inventory, hwsim := hwsim } := by
  refine ⟨Gnmi.Log.init inventory, fun g => ?_, fun g => ?_, ?_, ?_, ?_, ?_, ?_, ?_, ?_⟩
  · cases g <;> exact Group.serial_init
  · cases g <;> exact Nat.le_refl 0
  all_goals intros; simp_all

theorem copies_init (inventory : Gnmi.Inventory) (hwsim : SimulatedOcsDevice CommandId) :
    Copies { inventory := inventory, hwsim := hwsim } := by
  have hnone : ∀ g n (event : g.Entry),
      ¬Pending { inventory := inventory, hwsim := hwsim } g n event := by
    rintro g n event ⟨hm, -⟩
    cases g <;> cases hm
  refine ⟨fun id d hd => ?_, fun c m hm => ?_, fun H hH => ?_, fun id => .inl (.inl rfl)⟩
  · cases hd
  · cases hm
  · cases hH with
    | config hp _ _ _ _ _ => exact absurd hp (hnone _ _ _)
    | result hp _ _ _ => exact absurd hp (hnone _ _ _)
    | timeout hrun _ _ _ => exact absurd hrun.pending (hnone _ _ _)
    | retry hp _ _ _ _ => exact absurd hp (hnone _ _ _)

theorem orchestrator_verified (policy : ApplyRetryPolicy) :
    Verified (orchestrator policy Undisturbed) (fun w => Orderly w ∧ Tidy w ∧ Copies w)
      (fun _ => contract policy) (fun _ _ _ _ => True) where
  inv _ _ h := h.1
  allow _ _ _ _ _ := trivial
  init := by
    rintro _ ⟨inventory, hwsim, rfl⟩
    exact ⟨orderly_init _ _, tidy_init _ _, copies_init _ _⟩
  starts _ s p _ hp := safe_handlers hp s
  call := by
    rintro i o ch w ⟨ho, ht, hc⟩ hguard hallow
    cases o with
    | syncd o => exact hguard.elim
    | orch o =>
        exact ⟨⟨ho.action (hguard ch), ht.action (hguard ch), hc.action ho ht hallow (hguard ch)⟩,
          fun j hj => absurd rfl hj⟩
  crash i s h _ := ⟨h, fun j hj => absurd rfl hj⟩
  env := by
    rintro s t ⟨ho, ht, hc⟩ henv
    exact ⟨⟨ho.surroundings henv, ht.surroundings henv, hc.frame ho ht henv.frame⟩,
      fun _ => henv.frame⟩

/-- The two copies agree whenever nothing is in flight, in every run that leaves half
published entries alone. -/
theorem copies_agree {policy : ApplyRetryPolicy} {c : Config Op Op.Reply Raised Bool World Unit}
    (h : Reachable (orchestrator policy Undisturbed) c)
    (hidle : ∀ g, (c.world.orch.group g).pending = []) (id : String) :
    Agree c.world.orch.device[id]? c.world.orch.appl[id]? :=
  ((orchestrator_verified policy).invariant h).2.2.agree_of_idle hidle id

/-! ## Small runs -/

/-- The four-by-four device of the small inventory. -/
def smallDevice : SimulatedOcsDevice CommandId where
  info := { name := "ocs1", inputPortCount := 4, outputPortCount := 4, generation := 1 }
  connections := ∅
  lastVersions := ∅
  inputToOutput := List.replicate 4 none
  outputToInput := List.replicate 4 none
  inputPorts := [1, 2, 3, 4].map fun id => { id := id, direction := .input, operStatus := .up }
  outputPorts := [1, 2, 3, 4].map fun id => { id := id, direction := .output, operStatus := .up }
  applyResults := []
  applyResultOrder := []
  failNextApply := false
  timeoutNextApply := false

def smallWorld : World := { inventory := Gnmi.smallInventory, hwsim := smallDevice }

/-- The world after a Set, if it commits. -/
def afterSet (eventId : Nat) (operations : List Gnmi.SetOperation) (w : World) : World :=
  match Gnmi.commitSet w.inventory (Gnmi.planOf operations) 0 eventId w.config with
  | some db => { w with config := db }
  | none => w

/-- The world after a number of calls of a handler, with the first choice at each. -/
def afterCalls (calls : Nat) (p : Service Bool) (w : World) : World :=
  (p.run exec (List.replicate calls 0) w).2

def quiet (w : World) : Config Op Op.Reply Raised Bool World Unit := ⟨w, fun _ => none⟩

section Quiet

variable {policy : ApplyRetryPolicy} {allow : World → OrchOp → Prop} {w : World}

theorem quiet_smallWorld : Reachable (orchestrator policy allow) (quiet smallWorld) :=
  .init ⟨_, _, rfl⟩

theorem quiet_env {w' : World} (h : Reachable (orchestrator policy allow) (quiet w))
    (henv : Surroundings w w') : Reachable (orchestrator policy allow) (quiet w') :=
  h.step (.env w' henv)

theorem quiet_afterSet (h : Reachable (orchestrator policy allow) (quiet w)) (eventId : Nat)
    (operations : List Gnmi.SetOperation) :
    Reachable (orchestrator policy allow) (quiet (afterSet eventId operations w)) := by
  unfold afterSet
  split
  · rename_i db hdb
    exact quiet_env h (.commit (Gnmi.commits_commitSet hdb))
  · exact h

theorem quiet_afterCalls (h : Reachable (orchestrator policy allow) (quiet w)) {p : Service Bool}
    (hp : handlers policy p) (calls : Nat)
    (hallow : p.along exec (onOrch allow) (List.replicate calls 0) w) :
    Reachable (orchestrator policy allow) (quiet (afterCalls calls p w)) :=
  h.cut (i := ()) rfl hp _ hallow trivial

end Quiet

def unrestricted (_ : World) (_ : OrchOp) : Prop := True

theorem along_unrestricted (p : Service Bool) (cs : List Nat)
    (w : World) : p.along exec (onOrch unrestricted) cs w :=
  Prog.along_of_forall (fun o _ _ => by cases o <;> trivial) p cs w

/-- Two connections of one Set are being applied. -/
def pairApplying : World :=
  afterCalls 40 processConfigOne
    (afterSet 0 [Gnmi.connect Gnmi.idA 1 1, Gnmi.connect Gnmi.idB 2 2] smallWorld)

def pairBatch : DeviceCommandBatch where
  commands := [{ id := "a", inputPort := 1, outputPort := 1, desiredVersion := 1 },
    { id := "b", inputPort := 2, outputPort := 2, desiredVersion := 1 }]

/-- The attempt to apply them is recorded. -/
def pairAttempted : World :=
  pairApplying.setSyncd (pairApplying.syncd.setHash (.applyAttempt (.config 0)) pairBatch)

def pairTimeout : ResultEvent where
  id := ⟨.config 0, some "a"⟩
  requestId := "0"
  device := "ocs1"
  resourceId := "a"
  desiredVersion := 1
  success := false
  errorCode := .applyTimeout
  errorMessage := "injected next-apply timeout"
  commandId := .config 0

/-- The attempt timed out. -/
def pairTimedOut : World :=
  pairAttempted.setSyncd { pairAttempted.syncd with
    results := pairAttempted.syncd.results ++ [pairTimeout] }

/-- The timeout is cut between its two publications, the second connection gets a newer
version, and the timeout is redelivered. -/
def pairTorn : World :=
  afterCalls 40 (processResultOne {}) (afterCalls 40 processConfigOne
    (afterSet 1 [Gnmi.connect Gnmi.idB 3 3] (afterCalls 10 (processResultOne {}) pairTimedOut)))

theorem pairTimedOut_reachable :
    Reachable (orchestrator {} unrestricted) (quiet pairTimedOut) := by
  have happlying : Reachable (orchestrator {} unrestricted) (quiet pairApplying) :=
    quiet_afterCalls (quiet_afterSet quiet_smallWorld _ _) (.inl rfl) 40
      (along_unrestricted _ _ _)
  have hattempted : Reachable (orchestrator {} unrestricted) (quiet pairAttempted) :=
    quiet_env happlying (.attempt (by decide +kernel) (by decide))
  exact quiet_env hattempted (.result (by decide +kernel) fun _ => by decide +kernel)

theorem pairTorn_reachable : Reachable (orchestrator {} unrestricted) (quiet pairTorn) := by
  have hcut := quiet_afterCalls pairTimedOut_reachable (.inr (.inl rfl)) 10
    (along_unrestricted _ _ _)
  have hnewer := quiet_afterCalls (quiet_afterSet hcut 1 [Gnmi.connect Gnmi.idB 3 3]) (.inl rfl) 40
    (along_unrestricted _ _ _)
  exact quiet_afterCalls hnewer (.inr (.inl rfl)) 40 (along_unrestricted _ _ _)

/-- Nothing is in flight any more, but one copy of the first connection waits for a retry and
the other is still being applied. -/
theorem copies_torn_by_newer_version :
    Reachable (orchestrator {} unrestricted) (quiet pairTorn) ∧
      (∀ g, (pairTorn.orch.group g).pending = []) ∧
      ¬Agree pairTorn.orch.device["a"]? pairTorn.orch.appl["a"]? :=
  ⟨pairTorn_reachable, fun g => by cases g <;> decide +kernel, by decide +kernel⟩

/-- A run that the condition admits. -/
theorem copies_agree_pairApplying :
    Reachable (orchestrator {} Undisturbed) (quiet pairApplying) ∧
      (∀ g, (pairApplying.orch.group g).pending = []) ∧
      pairApplying.orch.appl["a"]?.isSome ∧
      Agree pairApplying.orch.device["a"]? pairApplying.orch.appl["a"]? := by
  have hreach : Reachable (orchestrator {} Undisturbed) (quiet pairApplying) :=
    quiet_afterCalls (quiet_afterSet quiet_smallWorld _ _) (.inl rfl) 40 (by decide +kernel)
  have hidle : ∀ g, (pairApplying.orch.group g).pending = [] := by
    intro g
    cases g <;> decide +kernel
  exact ⟨hreach, hidle, by decide +kernel, copies_agree hreach hidle "a"⟩

end MiniOcs.Orch
