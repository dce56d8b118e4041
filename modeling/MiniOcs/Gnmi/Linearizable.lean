import MiniOcs.Gnmi.Serializable

/-!
# What a caller is told

The log of executed transactions is serial in every run. Answers that write nothing are
read from several hashes without a check: they are linearizable in the runs where such an
attempt meets no transaction between its `KEYS` and its last connection read.
-/
namespace MiniOcs.Gnmi
open Std Concurrent

/-- All runs. -/
def unrestricted : Op → World → Prop := fun _ _ => True

/-- The call refused the plan, or found nothing to change. -/
def wroteNothing : Except Raised SetCommitResult → Bool
  | .ok result => result.candidate.changes.isEmpty
  | .error (.service e) => e.isRejection
  | .error _ => false

theorem Outcome.commits_eq {settled : Prop} {caller : Caller} {s t : World}
    {r : Except Raised SetCommitResult} (h : Outcome settled caller s r t)
    (hr : wroteNothing r = true) : t.commits caller = s.commits caller := by
  rcases r with (e | _ | _ | _) | result
  · exact (h hr).1
  · cases hr
  · cases hr
  · cases hr
  · exact h.1 (List.isEmpty_iff.mp hr)

theorem gnmi_serial (maxWatchRetries : Nat) :
    Verified (gnmi maxWatchRetries unrestricted) Inv (contract unrestricted) (Outcome False) :=
  gnmi_verified (fun h => h.elim) maxWatchRetries

/-- CONFIG_DB changes only in an executed transaction of the process that makes the step. -/
theorem db_changes_by_commit {maxWatchRetries : Nat}
    {c d : Config Op Res Raised SetCommitResult World Caller}
    (hc : Reachable (gnmi maxWatchRetries unrestricted) c)
    (hstep : Step (gnmi maxWatchRetries unrestricted) c d) (hdb : d.world.db ≠ c.world.db) :
    ∃ caller s o k, c.procs caller = some ⟨s, .call o k⟩ ∧
      d.world.commits = Function.update c.world.commits caller (c.world.commits caller + 1) := by
  have hV := gnmi_serial maxWatchRetries
  obtain ⟨hinv, hsafe⟩ := hV.reachable hc
  cases hstep with
  | start i p hi hp => exact absurd rfl hdb
  | finish i s a hi => exact absurd rfl hdb
  | crash i _ => exact absurd rfl hdb
  | env t ht => cases ht
  | call i s o k choice hi ha =>
      obtain ⟨hg, -⟩ := hsafe i _ hi _ hinv (Keeps.refl i _)
      refine ⟨i, s, o, k, hi, ?_⟩
      have hexec : (exec o choice c.world).2 = (o.execute c.world choice).2 := by
        rcases exec_cases o choice c.world with he | ⟨fault, he | he⟩
        · rw [he]
        · exact absurd (by simp only [gnmi, he]) hdb
        · rw [he]
      simp only [gnmi, hexec] at hdb ⊢
      cases o with
      | exec caller changes revision event =>
          obtain ⟨rfl, -⟩ := hg
          simp only [Op.execute] at hdb ⊢
          split_ifs at hdb ⊢ with hclean
          · rfl
          · exact absurd rfl hdb
      | _ => exact absurd rfl hdb

/-- Any number of concurrent commits: the log of executed transactions is a serial history
that the connections follow, the versions of an id only grow, and a call that is refused or
has nothing to change executes no transaction, which alone changes CONFIG_DB. -/
theorem commits_serializable (maxWatchRetries : Nat)
    {c : Config Op Res Raised SetCommitResult World Caller}
    (h : Reachable (gnmi maxWatchRetries unrestricted) c) :
    Serial c.world.inventory c.world.db ∧
    (∀ (m n : Nat) (event event' : ConfigEvent), m < n → c.world.db.events[m]? = some event →
      c.world.db.events[n]? = some event' → ∀ a ∈ event.commands, ∀ b ∈ event'.commands,
        a.id = b.id → a.desiredVersion < b.desiredVersion) ∧
    (∀ caller s p r, c.procs caller = some ⟨s, p⟩ → p.outcome? = some r →
      wroteNothing r = true → c.world.commits caller = s.commits caller) ∧
    (∀ d, Step (gnmi maxWatchRetries unrestricted) c d → d.world.db ≠ c.world.db →
      ∃ caller s o k, c.procs caller = some ⟨s, .call o k⟩ ∧
        d.world.commits = Function.update c.world.commits caller (c.world.commits caller + 1)) := by
  have hV := gnmi_serial maxWatchRetries
  have hserial := (hV.invariant h).serial
  refine ⟨hserial, ?_, ?_, fun d hstep hdb => db_changes_by_commit h hstep hdb⟩
  · intro m n event event' hmn hm hn a ha b hb _
    rw [(hserial.versions m event hm).2 a ha, (hserial.versions n event' hn).2 b hb]
    omega
  · intro caller s p r hproc hout hr
    exact (hV.outcome h hproc hout).commits_eq hr

instance : (o : Op) → (w : World) → Decidable (Settled o w)
  | .unwatch caller true, w => inferInstanceAs (Decidable ((w.loads caller).1 = (w.loads caller).2))
  | .unwatch _ false, _ => isTrue trivial
  | .hincrby _, _ | .watch _ _, _ | .getRevision, _ | .keys _, _ | .hgetallConnection _ _, _
  | .hgetallDevice, _ | .hgetallPort _ _, _ | .timestamp, _ | .uuid, _ | .exec _ _ _ _, _ =>
      isTrue trivial

/-- The answer of a call is the answer of one state that was committed while it ran. -/
def Linearized (caller : Caller) (s : World) : Except Raised SetCommitResult → World → Prop
  | .ok result, t => ∃ db ∈ s.committedSince t, ∃ candidate,
      evaluate s.inventory caller.plan result.timestampNs db = .ok candidate ∧
      candidate.changes = result.candidate.changes
  | .error (.service e), t => e.isRejection = true → ∃ db ∈ s.committedSince t, ∀ timestampNs,
      evaluate s.inventory caller.plan timestampNs db = .error e
  | .error _, _ => True

theorem Outcome.linearized {caller : Caller} {s t : World} {r : Except Raised SetCommitResult}
    (h : Outcome True caller s r t) : Linearized caller s r t := by
  rcases r with (e | _ | _ | _) | result
  · exact fun hr => (h hr).2 trivial
  · trivial
  · trivial
  · trivial
  · exact h.2 (.inl trivial)

/-- When no attempt that answers without a transaction was torn by one, every answer is
linearizable. -/
theorem answers_linearizable (maxWatchRetries : Nat)
    {c : Config Op Res Raised SetCommitResult World Caller}
    (h : Reachable (gnmi maxWatchRetries Settled) c) {caller : Caller} {s : World}
    {p : Commit SetCommitResult} {r : Except Raised SetCommitResult}
    (hp : c.procs caller = some ⟨s, p⟩) (hr : p.outcome? = some r) :
    Linearized caller s r c.world := by
  have hV : Verified (gnmi maxWatchRetries Settled) Inv (contract Settled) (Outcome True) :=
    gnmi_verified (fun _ _ _ h => h) maxWatchRetries
  exact (hV.outcome h hp hr).linearized

/-! ## Small runs -/

def smallInventory : Inventory where
  device := "ocs1"
  fields := some { inputPortCount := .value 4, outputPortCount := .value 4 }
  portAdminStatus _ _ := none

def connect (id : SafeId) (inputPort outputPort : Nat) : SetOperation where
  kind := .update
  connectionId := id
  values := { inputPort := some inputPort, outputPort := some outputPort }

def planOf (operations : List SetOperation) : SetPlan := ⟨"ocs1", 0, operations⟩

def idA : SafeId := ⟨"a", by decide⟩
def idB : SafeId := ⟨"b", by decide⟩
def idC : SafeId := ⟨"c", by decide⟩

/-- Connects two pairs. -/
def setter : Caller := ⟨0, planOf [connect idA 1 1, connect idB 2 2]⟩

/-- Swaps the two pairs. -/
def swapper : Caller := ⟨1, planOf [connect idA 2 2, connect idB 1 1]⟩

/-- Asks for a port that is taken. -/
def rival : Caller := ⟨3, planOf [connect idC 1 3]⟩

/-- Asks for ports that no other connection uses. -/
def bystander : Caller := ⟨2, planOf [connect idC 3 3]⟩

abbrev Machine := Config Op Res Raised SetCommitResult World Caller

def idle : Machine := ⟨{ inventory := smallInventory }, fun _ => none⟩

/-- Start a commit and let it make a number of calls without faults. -/
def launch (calls : Nat) (caller : Caller) (c : Machine) : Machine :=
  let ran := (commit 3 caller).run exec (List.replicate calls 0) c.world
  ⟨ran.2, Function.update c.procs caller (some ⟨c.world, ran.1⟩)⟩

/-- Let a started commit make a number of calls without faults. -/
def resume (calls : Nat) (caller : Caller) (c : Machine) : Machine :=
  match c.procs caller with
  | some ⟨s, p⟩ =>
      let ran := p.run exec (List.replicate calls 0) c.world
      ⟨ran.2, Function.update c.procs caller (some ⟨s, ran.1⟩)⟩
  | none => c

theorem idle_reachable (allow : Op → World → Prop) : Reachable (gnmi 3 allow) idle :=
  .init ⟨smallInventory, rfl⟩

theorem launch_reachable {allow : Op → World → Prop} {c : Machine} (h : Reachable (gnmi 3 allow) c)
    {caller : Caller} (hidle : c.procs caller = none)
    (hdev : caller.plan.device = c.world.inventory.device) (calls : Nat)
    (hallow : (commit 3 caller).along exec (fun o _ w => allow o w) (List.replicate calls 0) c.world) :
    Reachable (gnmi 3 allow) (launch calls caller c) :=
  h.startRun hidle ⟨hdev, rfl⟩ _ hallow

theorem resume_reachable {c : Machine} (h : Reachable (gnmi 3 unrestricted) c) (calls : Nat)
    (caller : Caller) : Reachable (gnmi 3 unrestricted) (resume calls caller c) := by
  unfold resume
  split
  · rename_i s p hp
    exact h.run hp _ (Prog.along_of_forall (fun _ _ _ => trivial) _ _ _)
  · exact h

/-- The bystander stops after its first connection read while the swap commits. -/
def tornRead : Machine :=
  resume 40 bystander (launch 40 swapper (launch 5 bystander (launch 40 setter idle)))

theorem tornRead_reachable : Reachable (gnmi 3 unrestricted) tornRead := by
  have hfree : ∀ (p : Commit SetCommitResult) cs w,
      p.along exec (fun o _ w => unrestricted o w) cs w :=
    Prog.along_of_forall fun _ _ _ => trivial
  refine resume_reachable (launch_reachable (launch_reachable (launch_reachable
    (idle_reachable _) rfl rfl 40 (hfree _ _ _)) ?_ ?_ 5 (hfree _ _ _)) ?_ ?_ 40 (hfree _ _ _)) 40
    bystander
  all_goals decide +kernel

/-- A caller was refused although every state committed while it ran accepts its plan. -/
def refusedWrongly (c : Machine) (caller : Caller) : Bool :=
  match c.procs caller with
  | some ⟨s, .throw (.service e)⟩ =>
      e.isRejection && (s.committedSince c.world).all fun db =>
        match evaluate s.inventory caller.plan 0 db with
        | .ok _ => true
        | .error _ => false
  | _ => false

theorem not_linearized_of_refusedWrongly {c : Machine} {caller : Caller}
    (h : refusedWrongly c caller = true) : ∃ s p r, c.procs caller = some ⟨s, p⟩ ∧
      p.outcome? = some r ∧ ¬Linearized caller s r c.world := by
  unfold refusedWrongly at h
  split at h
  · rename_i s e hproc
    simp only [Bool.and_eq_true, List.all_eq_true] at h
    refine ⟨s, _, _, hproc, rfl, fun hlin => ?_⟩
    obtain ⟨db, hmem, hev⟩ := hlin h.1
    have hok := h.2 db hmem
    simp [hev 0] at hok
  · cases h

/-- Between the two reads of the bystander the swap commits: it sees the old half of one
state and the new half of the next, and is refused for a conflict that neither has. -/
theorem torn_read_not_linearized : Reachable (gnmi 3 unrestricted) tornRead ∧
    ∃ s p r, tornRead.procs bystander = some ⟨s, p⟩ ∧ p.outcome? = some r ∧
      ¬Linearized bystander s r tornRead.world :=
  ⟨tornRead_reachable, not_linearized_of_refusedWrongly (by decide +kernel)⟩

/-- One commit that nothing disturbs. -/
def undisturbed : Machine := launch 40 setter idle

theorem commits_serializable_undisturbed :
    Reachable (gnmi 3 unrestricted) undisturbed ∧ undisturbed.world.db.events.length = 1 ∧
    Serial undisturbed.world.inventory undisturbed.world.db := by
  have hreach : Reachable (gnmi 3 unrestricted) undisturbed :=
    launch_reachable (idle_reachable _) rfl rfl 40
      (Prog.along_of_forall (fun _ _ _ => trivial) _ _ _)
  exact ⟨hreach, by decide +kernel, (commits_serializable 3 hreach).1⟩

theorem answers_linearizable_rival :
    ∃ c s p r, Reachable (gnmi 3 Settled) c ∧ c.procs rival = some ⟨s, p⟩ ∧ p.outcome? = some r ∧
      wroteNothing r = true ∧ Linearized rival s r c.world := by
  have hreach : Reachable (gnmi 3 Settled) (launch 40 rival undisturbed) :=
    launch_reachable (launch_reachable (idle_reachable _) rfl rfl 40 (by decide +kernel))
      (by decide +kernel) (by decide +kernel) 40 (by decide +kernel)
  have hended : ((launch 40 rival undisturbed).procs rival).any
      (fun running => running.prog.outcome?.any wroteNothing) = true := by decide +kernel
  obtain ⟨⟨s, p⟩, hp, hany⟩ := (Option.any_eq_true _ _).mp hended
  obtain ⟨r, hr, hnothing⟩ := (Option.any_eq_true _ _).mp hany
  exact ⟨_, s, p, r, hreach, hp, hr, hnothing, answers_linearizable 3 hreach hp hr⟩

end MiniOcs.Gnmi
