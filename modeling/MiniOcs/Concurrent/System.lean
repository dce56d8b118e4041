import Mathlib.Logic.Function.Basic
import Mathlib.Logic.Relation
import MiniOcs.Concurrent.Program

/-!
# Interleaving, crashes and reachable configurations

Processes run programs over one shared state. A step is one call of one process,
the start or the end of a program, a cut at any point, or a move of the
environment. The two rules at the end turn contracts into facts about every
reachable configuration.
-/
namespace Concurrent

/-- A started program: the state it was started at, and what is left of it. -/
structure Running (Op : Type) (Res : Op → Type) (Exn α σ : Type) where
  since : σ
  prog : Prog Op Res Exn α

/-- `crash i` is what the shared state loses with process `i`; `allow` names the calls that a
run may take, and `cut` the states in which it may lose a process. -/
structure System (Op : Type) (Res : Op → Type) (Exn α σ ι : Type) where
  exec : (o : Op) → Nat → σ → Res o × σ
  init : σ → Prop
  starts : ι → σ → Prog Op Res Exn α → Prop
  crash : ι → σ → σ
  env : σ → σ → Prop
  allow : ι → Op → Nat → σ → Prop
  cut : ι → σ → Prop := fun _ _ => True

structure Config (Op : Type) (Res : Op → Type) (Exn α σ ι : Type) where
  world : σ
  procs : ι → Option (Running Op Res Exn α σ)

section

variable {Op : Type} {Res : Op → Type} {Exn α σ ι : Type} [DecidableEq ι]

inductive Step (S : System Op Res Exn α σ ι) :
    Config Op Res Exn α σ ι → Config Op Res Exn α σ ι → Prop
  | start {c} (i : ι) (p : Prog Op Res Exn α) : c.procs i = none → S.starts i c.world p →
      Step S c ⟨c.world, Function.update c.procs i (some ⟨c.world, p⟩)⟩
  | call {c} (i : ι) (s : σ) (o : Op) (k : Res o → Prog Op Res Exn α) (ch : Nat) :
      c.procs i = some ⟨s, .call o k⟩ → S.allow i o ch c.world →
      Step S c ⟨(S.exec o ch c.world).2,
        Function.update c.procs i (some ⟨s, k (S.exec o ch c.world).1⟩)⟩
  | finish {c} (i : ι) (s : σ) (a : α) : c.procs i = some ⟨s, .pure a⟩ →
      Step S c ⟨c.world, Function.update c.procs i none⟩
  | crash {c} (i : ι) : S.cut i c.world →
      Step S c ⟨S.crash i c.world, Function.update c.procs i none⟩
  | env {c} (t : σ) : S.env c.world t → Step S c ⟨t, c.procs⟩

inductive Reachable (S : System Op Res Exn α σ ι) : Config Op Res Exn α σ ι → Prop
  | init {s : σ} : S.init s → Reachable S ⟨s, fun _ => none⟩
  | step {c d} : Reachable S c → Step S c d → Reachable S d

/-- The proof obligations of one contract per process over a shared invariant. -/
structure Verified (S : System Op Res Exn α σ ι) (I : σ → Prop) (C : ι → Contract Op σ)
    (post : ι → σ → Except Exn α → σ → Prop) : Prop where
  inv : ∀ i s, I s → (C i).inv s
  allow : ∀ i o ch s, S.allow i o ch s → (C i).allow o ch s
  init : ∀ s, S.init s → I s
  starts : ∀ i s p, I s → S.starts i s p → Safe S.exec (C i) (post i s) p s
  call : ∀ i o ch s, I s → (C i).guard o s → S.allow i o ch s →
    I (S.exec o ch s).2 ∧ ∀ j, j ≠ i → (C j).rely s (S.exec o ch s).2
  crash : ∀ i s, I s → S.cut i s →
    I (S.crash i s) ∧ ∀ j, j ≠ i → (C j).rely s (S.crash i s)
  env : ∀ s t, I s → S.env s t → I t ∧ ∀ j, (C j).rely s t

variable {S : System Op Res Exn α σ ι} {I : σ → Prop} {C : ι → Contract Op σ}
  {post : ι → σ → Except Exn α → σ → Prop}

/-- The residual of every process stays safe, at the state of the configuration. -/
def Judged (S : System Op Res Exn α σ ι) (I : σ → Prop) (C : ι → Contract Op σ)
    (post : ι → σ → Except Exn α → σ → Prop) (c : Config Op Res Exn α σ ι) : Prop :=
  I c.world ∧ ∀ i r, c.procs i = some r → Safe S.exec (C i) (post i r.since) r.prog c.world

theorem Verified.step (V : Verified S I C post) {c d : Config Op Res Exn α σ ι}
    (hc : Judged S I C post c) (h : Step S c d) : Judged S I C post d := by
  obtain ⟨hI, hsafe⟩ := hc
  cases h with
  | start i p hi hp =>
      refine ⟨hI, fun j r hr => ?_⟩
      by_cases hji : j = i
      · subst hji
        simp only [Function.update_self, Option.some.injEq] at hr
        subst hr
        exact V.starts _ _ _ hI hp
      · simp only [Function.update_of_ne hji] at hr
        exact hsafe j r hr
  | call i s o k ch hi ha =>
      obtain ⟨hg, hk⟩ := hsafe i _ hi _ (V.inv i _ hI) ((C i).refl _)
      obtain ⟨hI', hrely⟩ := V.call i o ch _ hI hg ha
      refine ⟨hI', fun j r hr => ?_⟩
      by_cases hji : j = i
      · subst hji
        simp only [Function.update_self, Option.some.injEq] at hr
        subst hr
        exact hk ch (V.allow _ _ _ _ ha)
      · simp only [Function.update_of_ne hji] at hr
        exact (hsafe j r hr).mono (hrely j hji)
  | finish i s a hi =>
      refine ⟨hI, fun j r hr => ?_⟩
      by_cases hji : j = i
      · subst hji; simp only [Function.update_self] at hr; cases hr
      · simp only [Function.update_of_ne hji] at hr
        exact hsafe j r hr
  | crash i hcut =>
      obtain ⟨hI', hrely⟩ := V.crash i _ hI hcut
      refine ⟨hI', fun j r hr => ?_⟩
      by_cases hji : j = i
      · subst hji; simp only [Function.update_self] at hr; cases hr
      · simp only [Function.update_of_ne hji] at hr
        exact (hsafe j r hr).mono (hrely j hji)
  | env t ht =>
      obtain ⟨hI', hrely⟩ := V.env _ t hI ht
      exact ⟨hI', fun j r hr => (hsafe j r hr).mono (hrely j)⟩

theorem Verified.reachable (V : Verified S I C post) {c : Config Op Res Exn α σ ι}
    (h : Reachable S c) : Judged S I C post c := by
  induction h with
  | init hs => exact ⟨V.init _ hs, fun i r hr => by cases hr⟩
  | step _ hstep ih => exact V.step ih hstep

theorem Verified.invariant (V : Verified S I C post) {c : Config Op Res Exn α σ ι}
    (h : Reachable S c) : I c.world := (V.reachable h).1

/-- The outcome of a program that has ended meets its postcondition. -/
theorem Verified.outcome (V : Verified S I C post) {c : Config Op Res Exn α σ ι}
    (h : Reachable S c) {i : ι} {s : σ} {p : Prog Op Res Exn α} {r : Except Exn α}
    (hi : c.procs i = some ⟨s, p⟩) (hp : p.outcome? = some r) : post i s r c.world := by
  obtain ⟨hI, hsafe⟩ := V.reachable h
  have hs := hsafe i _ hi
  cases p with
  | pure a => cases hp; exact hs _ (V.inv i _ hI) ((C i).refl _)
  | throw e => cases hp; exact hs _ (V.inv i _ hI) ((C i).refl _)
  | call o k => cases hp

/-- Once the guards are known, a further invariant is checked call by call. -/
theorem Verified.extend (V : Verified S I C post) {J : σ → Prop}
    (hinit : ∀ s, S.init s → J s)
    (hcall : ∀ i o ch s, I s → J s → (C i).guard o s → S.allow i o ch s → J (S.exec o ch s).2)
    (hcrash : ∀ i s, I s → J s → S.cut i s → J (S.crash i s))
    (henv : ∀ s t, I s → J s → S.env s t → J t)
    {c : Config Op Res Exn α σ ι} (h : Reachable S c) : J c.world := by
  induction h with
  | init hs => exact hinit _ hs
  | step hc hstep ih =>
      obtain ⟨hI, hsafe⟩ := V.reachable hc
      cases hstep with
      | start i p hi hp => exact ih
      | call i s o k ch hi ha =>
          obtain ⟨hg, -⟩ := hsafe i _ hi _ (V.inv i _ hI) ((C i).refl _)
          exact hcall i o ch _ hI ih hg ha
      | finish i s a hi => exact ih
      | crash i hcut => exact hcrash i _ hI ih hcut
      | env t ht => exact henv _ t hI ih ht

/-- What every call and move relates, the worlds of a run are related by. -/
theorem Verified.later (V : Verified S I C post) {R : σ → σ → Prop} (hrefl : ∀ s, R s s)
    (htrans : ∀ {s t u}, R s t → R t u → R s u)
    (hcall : ∀ i o ch s, I s → (C i).guard o s → S.allow i o ch s → R s (S.exec o ch s).2)
    (hcrash : ∀ i s, I s → S.cut i s → R s (S.crash i s))
    (henv : ∀ s t, I s → S.env s t → R s t)
    {c d : Config Op Res Exn α σ ι} (h : Reachable S c) (hrun : Relation.ReflTransGen (Step S) c d) :
    R c.world d.world := by
  have hstep : ∀ {c d}, Reachable S c → Step S c d → R c.world d.world := by
    intro c d hc hstep
    obtain ⟨hI, hsafe⟩ := V.reachable hc
    cases hstep with
    | start i p hi hp => exact hrefl _
    | call i s o k ch hi ha =>
        obtain ⟨hg, -⟩ := hsafe i _ hi _ (V.inv i _ hI) ((C i).refl _)
        exact hcall i o ch _ hI hg ha
    | finish i s a hi => exact hrefl _
    | crash i hcut => exact hcrash i _ hI hcut
    | env t ht => exact henv _ t hI ht
  suffices hboth : Reachable S d ∧ R c.world d.world from hboth.2
  induction hrun with
  | refl => exact ⟨h, hrefl _⟩
  | tail _ hlast ih => exact ⟨ih.1.step hlast, htrans ih.2 (hstep ih.1 hlast)⟩

/-! ## Processes at rest

A program that ends leaves its process at rest, in a state that the next program of the process
may rely on; a lost process is put at rest by what its crash leaves. -/

/-- The proof obligations of one contract per process, with what holds while a process rests. -/
structure Restful (S : System Op Res Exn α σ ι) (I : σ → Prop) (J : ι → σ → Prop)
    (C : ι → Contract Op σ) : Prop where
  inv : ∀ i s, I s → (C i).inv s
  allow : ∀ i o ch s, S.allow i o ch s → (C i).allow o ch s
  stable : ∀ i s t, J i s → (C i).rely s t → J i t
  init : ∀ s, S.init s → I s ∧ ∀ i, J i s
  starts : ∀ i s p, I s → J i s → S.starts i s p →
    Safe S.exec (C i) (fun r t => ∀ a, r = .ok a → J i t) p s
  call : ∀ i o ch s, I s → (C i).guard o s → S.allow i o ch s →
    I (S.exec o ch s).2 ∧ ∀ j, j ≠ i → (C j).rely s (S.exec o ch s).2
  crash : ∀ i s, I s → S.cut i s →
    I (S.crash i s) ∧ J i (S.crash i s) ∧ ∀ j, j ≠ i → (C j).rely s (S.crash i s)
  env : ∀ s t, I s → S.env s t → I t ∧ ∀ j, (C j).rely s t

/-- What holds of one process of a configuration: `J` at rest, else a safe residual. -/
def Attends (S : System Op Res Exn α σ ι) (J : ι → σ → Prop) (C : ι → Contract Op σ) (i : ι)
    (s : σ) : Option (Running Op Res Exn α σ) → Prop
  | none => J i s
  | some r => Safe S.exec (C i) (fun r t => ∀ a, r = .ok a → J i t) r.prog s

variable {J : ι → σ → Prop}

omit [DecidableEq ι] in
theorem Restful.mono (R : Restful S I J C) {i : ι} {s t : σ}
    {p : Option (Running Op Res Exn α σ)} (h : Attends S J C i s p) (hst : (C i).rely s t) :
    Attends S J C i t p := by
  cases p with
  | none => exact R.stable i s t h hst
  | some r => exact Safe.mono h hst

theorem Restful.step (R : Restful S I J C) {c d : Config Op Res Exn α σ ι}
    (hc : I c.world ∧ ∀ i, Attends S J C i c.world (c.procs i)) (h : Step S c d) :
    I d.world ∧ ∀ i, Attends S J C i d.world (d.procs i) := by
  obtain ⟨hI, hat⟩ := hc
  cases h with
  | start i p hi hp =>
      refine ⟨hI, fun j => ?_⟩
      by_cases hji : j = i
      · subst hji
        have hJ := hat j
        rw [hi] at hJ
        simp only [Function.update_self]
        exact R.starts j _ p hI hJ hp
      · simpa only [Function.update_of_ne hji] using hat j
  | call i s o k ch hi ha =>
      have hsafe := hat i
      rw [hi] at hsafe
      obtain ⟨hg, hk⟩ := hsafe _ (R.inv i _ hI) ((C i).refl _)
      obtain ⟨hI', hrely⟩ := R.call i o ch _ hI hg ha
      refine ⟨hI', fun j => ?_⟩
      by_cases hji : j = i
      · subst hji
        simp only [Function.update_self]
        exact hk ch (R.allow _ _ _ _ ha)
      · simpa only [Function.update_of_ne hji] using R.mono (hat j) (hrely j hji)
  | finish i s a hi =>
      refine ⟨hI, fun j => ?_⟩
      by_cases hji : j = i
      · subst hji
        have hsafe := hat j
        rw [hi] at hsafe
        simp only [Function.update_self]
        exact hsafe _ (R.inv j _ hI) ((C j).refl _) a rfl
      · simpa only [Function.update_of_ne hji] using hat j
  | crash i hcut =>
      obtain ⟨hI', hJ, hrely⟩ := R.crash i _ hI hcut
      refine ⟨hI', fun j => ?_⟩
      by_cases hji : j = i
      · subst hji
        simp only [Function.update_self]
        exact hJ
      · simpa only [Function.update_of_ne hji] using R.mono (hat j) (hrely j hji)
  | env t ht =>
      obtain ⟨hI', hrely⟩ := R.env _ t hI ht
      exact ⟨hI', fun j => R.mono (hat j) (hrely j)⟩

theorem Restful.reachable (R : Restful S I J C) {c : Config Op Res Exn α σ ι}
    (h : Reachable S c) : I c.world ∧ ∀ i, Attends S J C i c.world (c.procs i) := by
  induction h with
  | init hs =>
      obtain ⟨hI, hJ⟩ := R.init _ hs
      exact ⟨hI, hJ⟩
  | step _ hstep ih => exact R.step ih hstep

/-- What holds at rest. -/
theorem Restful.rest (R : Restful S I J C) {c : Config Op Res Exn α σ ι} (h : Reachable S c)
    {i : ι} (hi : c.procs i = none) : J i c.world := by
  have hat := (R.reachable h).2 i
  rw [hi] at hat
  exact hat

/-- The call that a process comes to next is guarded. -/
theorem Restful.guard (R : Restful S I J C) {c : Config Op Res Exn α σ ι} (h : Reachable S c)
    {i : ι} {s : σ} {o : Op} {k : Res o → Prog Op Res Exn α}
    (hi : c.procs i = some ⟨s, .call o k⟩) : (C i).guard o c.world := by
  have hat := (R.reachable h).2 i
  rw [hi] at hat
  exact (hat _ (R.inv i _ (R.reachable h).1) ((C i).refl _)).1

theorem Reachable.leads {c d : Config Op Res Exn α σ ι} (h : Reachable S c)
    (hrun : Relation.ReflTransGen (Step S) c d) : Reachable S d := by
  induction hrun with
  | refl => exact h
  | tail _ hlast ih => exact ih.step hlast

/-- A started program may run alone for as many calls as there are choices. -/
theorem leads_run {c : Config Op Res Exn α σ ι} {i : ι} {s : σ}
    {p : Prog Op Res Exn α} (hi : c.procs i = some ⟨s, p⟩) (cs : List Nat)
    (hallow : p.along S.exec (S.allow i) cs c.world) :
    Relation.ReflTransGen (Step S) c ⟨(p.run S.exec cs c.world).2,
      Function.update c.procs i (some ⟨s, (p.run S.exec cs c.world).1⟩)⟩ := by
  have hstay : Function.update c.procs i (some ⟨s, p⟩) = c.procs := by
    rw [← hi]
    exact Function.update_eq_self i c.procs
  induction cs generalizing c p with
  | nil =>
      cases p <;> (simp only [Prog.run, hstay]; exact .refl)
  | cons ch cs ih =>
      cases p with
      | pure a =>
          simp only [Prog.run, hstay]
          exact .refl
      | throw e =>
          simp only [Prog.run, hstay]
          exact .refl
      | call o k =>
          have hstep : Step S c _ := .call i s o k ch hi hallow.1
          have hrun := ih (c := ⟨(S.exec o ch c.world).2,
            Function.update c.procs i (some ⟨s, k (S.exec o ch c.world).1⟩)⟩)
            (p := k (S.exec o ch c.world).1) (by simp) hallow.2 (by simp)
          simpa only [Prog.run, Function.update_idem] using hrun.head hstep

/-- Start a program and run it alone. -/
theorem leads_startRun {c : Config Op Res Exn α σ ι} {i : ι}
    {p : Prog Op Res Exn α} (hi : c.procs i = none) (hp : S.starts i c.world p) (cs : List Nat)
    (hallow : p.along S.exec (S.allow i) cs c.world) :
    Relation.ReflTransGen (Step S) c ⟨(p.run S.exec cs c.world).2,
      Function.update c.procs i (some ⟨c.world, (p.run S.exec cs c.world).1⟩)⟩ := by
  have hrun := leads_run (S := S) (c := ⟨c.world, Function.update c.procs i (some ⟨c.world, p⟩)⟩)
    (i := i) (s := c.world) (p := p) (by simp) cs hallow
  simp only [Function.update_idem] at hrun
  exact hrun.head (.start i p hi hp)

/-- Start a program and run it alone to its end. -/
theorem leads_complete {c : Config Op Res Exn α σ ι} {i : ι}
    {p : Prog Op Res Exn α} (hi : c.procs i = none) (hp : S.starts i c.world p) (cs : List Nat)
    (hallow : p.along S.exec (S.allow i) cs c.world) {a : α}
    (hend : (p.run S.exec cs c.world).1.outcome? = some (.ok a)) :
    Relation.ReflTransGen (Step S) c ⟨(p.run S.exec cs c.world).2, c.procs⟩ := by
  have hrun := leads_startRun hi hp cs hallow
  rw [Prog.eq_pure_of_outcome hend] at hrun
  have hfinish := hrun.tail (.finish i c.world a (by simp))
  have hnone : Function.update c.procs i none = c.procs := by
    rw [← hi]; exact Function.update_eq_self i c.procs
  simpa only [Function.update_idem, hnone] using hfinish

theorem Reachable.run {c : Config Op Res Exn α σ ι} (h : Reachable S c) {i : ι} {s : σ}
    {p : Prog Op Res Exn α} (hi : c.procs i = some ⟨s, p⟩) (cs : List Nat)
    (hallow : p.along S.exec (S.allow i) cs c.world) :
    Reachable S ⟨(p.run S.exec cs c.world).2,
      Function.update c.procs i (some ⟨s, (p.run S.exec cs c.world).1⟩)⟩ :=
  h.leads (leads_run hi cs hallow)

theorem Reachable.startRun {c : Config Op Res Exn α σ ι} (h : Reachable S c) {i : ι}
    {p : Prog Op Res Exn α} (hi : c.procs i = none) (hp : S.starts i c.world p) (cs : List Nat)
    (hallow : p.along S.exec (S.allow i) cs c.world) :
    Reachable S ⟨(p.run S.exec cs c.world).2,
      Function.update c.procs i (some ⟨c.world, (p.run S.exec cs c.world).1⟩)⟩ :=
  h.leads (leads_startRun hi hp cs hallow)

theorem Reachable.complete {c : Config Op Res Exn α σ ι} (h : Reachable S c) {i : ι}
    {p : Prog Op Res Exn α} (hi : c.procs i = none) (hp : S.starts i c.world p) (cs : List Nat)
    (hallow : p.along S.exec (S.allow i) cs c.world) {a : α}
    (hend : (p.run S.exec cs c.world).1.outcome? = some (.ok a)) :
    Reachable S ⟨(p.run S.exec cs c.world).2, c.procs⟩ :=
  h.leads (leads_complete hi hp cs hallow hend)

/-- Start a program, run it alone and cut it. -/
theorem Reachable.cut {c : Config Op Res Exn α σ ι} (h : Reachable S c) {i : ι}
    {p : Prog Op Res Exn α} (hi : c.procs i = none) (hp : S.starts i c.world p) (cs : List Nat)
    (hallow : p.along S.exec (S.allow i) cs c.world)
    (hcut : S.cut i (p.run S.exec cs c.world).2) :
    Reachable S ⟨S.crash i (p.run S.exec cs c.world).2, c.procs⟩ := by
  have hcrash := (h.startRun hi hp cs hallow).step (.crash i hcut)
  have hnone : Function.update c.procs i none = c.procs := by
    rw [← hi]; exact Function.update_eq_self i c.procs
  simpa only [Function.update_idem, hnone] using hcrash

end

end Concurrent
