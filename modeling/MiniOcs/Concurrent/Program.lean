import Mathlib.Tactic.Common

/-!
# Interaction programs

A program is a finite tree of atomic calls on a shared state. Between two calls
other processes may move the state, and the program may be cut. `Safe` is the
rely/guarantee judgement for such trees: every call is made under its guard,
whatever the permitted interference was.
-/
namespace Concurrent

/-- A tree of atomic calls. `Res o` is the type of the reply to the call `o`. -/
inductive Prog (Op : Type) (Res : Op → Type) (Exn : Type) (α : Type) where
  | pure (value : α)
  | throw (error : Exn)
  | call (op : Op) (next : Res op → Prog Op Res Exn α)

namespace Prog

variable {Op : Type} {Res : Op → Type} {Exn α β : Type}

protected def bind : Prog Op Res Exn α → (α → Prog Op Res Exn β) → Prog Op Res Exn β
  | .pure a, f => f a
  | .throw e, _ => .throw e
  | .call o k, f => .call o fun r => (k r).bind f

protected def tryCatch : Prog Op Res Exn α → (Exn → Prog Op Res Exn α) → Prog Op Res Exn α
  | .pure a, _ => .pure a
  | .throw e, h => h e
  | .call o k, h => .call o fun r => (k r).tryCatch h

instance : Monad (Prog Op Res Exn) where
  pure := .pure
  bind := Prog.bind

instance : MonadExcept Exn (Prog Op Res Exn) where
  throw := .throw
  tryCatch := Prog.tryCatch

/-- One atomic call, returning its reply. -/
def perform (o : Op) : Prog Op Res Exn (Res o) := .call o .pure

def ofExcept : Except Exn α → Prog Op Res Exn α
  | .ok a => .pure a
  | .error e => .throw e

@[simp] theorem pure_bind' (a : α) (f : α → Prog Op Res Exn β) :
    (pure a : Prog Op Res Exn α) >>= f = f a := rfl

@[simp] theorem throw_bind (e : Exn) (f : α → Prog Op Res Exn β) :
    (throw e : Prog Op Res Exn α) >>= f = throw e := rfl

@[simp] theorem perform_bind (o : Op) (f : Res o → Prog Op Res Exn β) :
    (perform o : Prog Op Res Exn (Res o)) >>= f = .call o f := rfl

theorem bind_assoc' {γ : Type} (p : Prog Op Res Exn α) (f : α → Prog Op Res Exn β)
    (g : β → Prog Op Res Exn γ) : (p >>= f) >>= g = p >>= fun a => f a >>= g := by
  induction p with
  | pure a => rfl
  | throw e => rfl
  | call o k ih => exact congrArg (Prog.call o) (funext ih)

theorem bind_pure' (p : Prog Op Res Exn α) : (p >>= fun a => .pure a) = p := by
  induction p with
  | pure a => rfl
  | throw e => rfl
  | call o k ih => exact congrArg (Prog.call o) (funext ih)

/-- The outcome of a program that has nothing left to call. -/
def outcome? : Prog Op Res Exn α → Option (Except Exn α)
  | .pure a => some (.ok a)
  | .throw e => some (.error e)
  | .call _ _ => none

/-- Run a program alone, with one choice for each call, until it ends or the choices do. -/
def run {σ : Type} (exec : (o : Op) → Nat → σ → Res o × σ) :
    Prog Op Res Exn α → List Nat → σ → Prog Op Res Exn α × σ
  | .call o k, c :: cs, s => (k (exec o c s).1).run exec cs (exec o c s).2
  | p, _, s => (p, s)

/-- Run a program alone to its end. The choice of a call is picked at the state it is made in. -/
def alone {σ : Type} (exec : (o : Op) → Nat → σ → Res o × σ) (pick : Op → σ → Nat) :
    Prog Op Res Exn α → σ → Except Exn α × σ
  | .pure a, s => (.ok a, s)
  | .throw e, s => (.error e, s)
  | .call o k, s => (k (exec o (pick o s) s).1).alone exec pick (exec o (pick o s) s).2

section Alone

variable {σ : Type} {exec : (o : Op) → Nat → σ → Res o × σ} {pick : Op → σ → Nat}
  {p : Prog Op Res Exn α} {f : α → Prog Op Res Exn β}

theorem alone_bind_ok {s t : σ} {a : α} (h : p.alone exec pick s = (.ok a, t)) :
    (p >>= f).alone exec pick s = (f a).alone exec pick t := by
  induction p generalizing s with
  | pure b => cases h; rfl
  | throw e => cases h
  | call o k ih => exact ih _ h

theorem alone_bind_error {s t : σ} {e : Exn} (h : p.alone exec pick s = (.error e, t)) :
    (p >>= f).alone exec pick s = (.error e, t) := by
  induction p generalizing s with
  | pure b => cases h
  | throw e => cases h; rfl
  | call o k ih => exact ih _ h

/-- Run alone, the program ends with a value and in a state that meet `M`. -/
def Completes (exec : (o : Op) → Nat → σ → Res o × σ) (pick : Op → σ → Nat)
    (p : Prog Op Res Exn α) (s : σ) (M : α → σ → Prop) : Prop :=
  ∃ a t, p.alone exec pick s = (.ok a, t) ∧ M a t

theorem Completes.bind {s : σ} {M : α → σ → Prop} {N : β → σ → Prop}
    (hp : p.Completes exec pick s M) (hf : ∀ a t, M a t → (f a).Completes exec pick t N) :
    (p >>= f).Completes exec pick s N := by
  obtain ⟨a, t, heq, ha⟩ := hp
  obtain ⟨b, u, heq', hb⟩ := hf a t ha
  exact ⟨b, u, (alone_bind_ok heq).trans heq', hb⟩

theorem Completes.pure {s : σ} {M : α → σ → Prop} {a : α} (h : M a s) :
    (Prog.pure a : Prog Op Res Exn α).Completes exec pick s M := ⟨a, s, rfl, h⟩

end Alone

/-- Every call of such a run meets `P` at the state it is made in. -/
def along {σ : Type} (exec : (o : Op) → Nat → σ → Res o × σ) (P : Op → Nat → σ → Prop) :
    Prog Op Res Exn α → List Nat → σ → Prop
  | .call o k, c :: cs, s => P o c s ∧ (k (exec o c s).1).along exec P cs (exec o c s).2
  | _, _, _ => True

instance decidableAlong {σ : Type} (exec : (o : Op) → Nat → σ → Res o × σ)
    (P : Op → Nat → σ → Prop) [∀ o c s, Decidable (P o c s)] :
    (p : Prog Op Res Exn α) → (cs : List Nat) → (s : σ) → Decidable (p.along exec P cs s)
  | .call o k, c :: cs, s =>
      have := decidableAlong exec P (k (exec o c s).1) cs (exec o c s).2
      inferInstanceAs (Decidable (P o c s ∧ _))
  | .call _ _, [], _ => isTrue trivial
  | .pure _, [], _ => isTrue trivial
  | .pure _, _ :: _, _ => isTrue trivial
  | .throw _, [], _ => isTrue trivial
  | .throw _, _ :: _, _ => isTrue trivial

theorem along_of_forall {σ : Type} {exec : (o : Op) → Nat → σ → Res o × σ}
    {P : Op → Nat → σ → Prop} (h : ∀ o c s, P o c s) (p : Prog Op Res Exn α) (cs : List Nat)
    (s : σ) : p.along exec P cs s := by
  induction p generalizing cs s with
  | pure a => cases cs <;> trivial
  | throw e => cases cs <;> trivial
  | call o k ih =>
      cases cs with
      | nil => trivial
      | cons c cs => exact ⟨h o c s, ih _ _ _⟩

/-- The choices of a run alone that picks the choice of a call by the call. -/
def schedule {σ : Type} (exec : (o : Op) → Nat → σ → Res o × σ) (pick : Op → Nat) :
    Nat → Prog Op Res Exn α → σ → List Nat
  | calls + 1, .call o k, s => pick o ::
      (k (exec o (pick o) s).1).schedule exec pick calls (exec o (pick o) s).2
  | _, _, _ => []

theorem eq_pure_of_outcome {p : Prog Op Res Exn α} {a : α} (h : p.outcome? = some (.ok a)) :
    p = .pure a := by
  cases p with
  | pure b => cases h; rfl
  | throw e => cases h
  | call o k => cases h

/-- Every call that the program may come to satisfies `P`. -/
def Only (P : Op → Prop) : Prog Op Res Exn α → Prop
  | .pure _ => True
  | .throw _ => True
  | .call o k => P o ∧ ∀ r, (k r).Only P

variable {P Q : Op → Prop}

theorem Only.mono {p : Prog Op Res Exn α} (h : p.Only P) (hPQ : ∀ o, P o → Q o) : p.Only Q := by
  induction p with
  | pure a => trivial
  | throw e => trivial
  | call o k ih => exact ⟨hPQ o h.1, fun r => ih r (h.2 r)⟩

theorem Only.bind {p : Prog Op Res Exn α} {f : α → Prog Op Res Exn β} (hp : p.Only P)
    (hf : ∀ a, (f a).Only P) : (p >>= f).Only P := by
  induction p with
  | pure a => exact hf a
  | throw e => trivial
  | call o k ih => exact ⟨hp.1, fun r => ih r (hp.2 r)⟩

theorem Only.tryCatch {p : Prog Op Res Exn α} {f : Exn → Prog Op Res Exn α} (hp : p.Only P)
    (hf : ∀ e, (f e).Only P) : (p.tryCatch f).Only P := by
  induction p with
  | pure a => trivial
  | throw e => exact hf e
  | call o k ih => exact ⟨hp.1, fun r => ih r (hp.2 r)⟩

/-- Every value that the program may return satisfies `R`. -/
def Returns (R : α → Prop) : Prog Op Res Exn α → Prop
  | .pure a => R a
  | .throw _ => True
  | .call _ k => ∀ r, (k r).Returns R

/-- What is mapped over the result may be mapped over both ends of a handler. -/
theorem tryCatch_bind_pure (p : Prog Op Res Exn α) (f : Exn → Prog Op Res Exn α) (g : α → β) :
    (p.tryCatch f >>= fun a => .pure (g a)) =
      (p >>= fun a => .pure (g a)).tryCatch fun e => f e >>= fun a => .pure (g a) := by
  induction p with
  | pure a => rfl
  | throw e => rfl
  | call o k ih => exact congrArg (Prog.call o) (funext ih)

end Prog

/-- What a process may assume of the others and must keep itself. `allow` restricts the
outcomes of a call that a run may take. -/
structure Contract (Op σ : Type) where
  inv : σ → Prop
  rely : σ → σ → Prop
  guard : Op → σ → Prop
  allow : Op → Nat → σ → Prop
  refl : ∀ s, rely s s
  trans : ∀ {a b c}, rely a b → rely b c → rely a c

section Safe

variable {Op : Type} {Res : Op → Type} {Exn α β σ : Type}
variable (exec : (o : Op) → Nat → σ → Res o × σ) (C : Contract Op σ)

/-- Every call is guarded at every state the rely admits, and the outcome meets `post`. -/
def Safe (post : Except Exn α → σ → Prop) : Prog Op Res Exn α → σ → Prop
  | .pure a, s => ∀ t, C.inv t → C.rely s t → post (.ok a) t
  | .throw e, s => ∀ t, C.inv t → C.rely s t → post (.error e) t
  | .call o k, s => ∀ t, C.inv t → C.rely s t →
      C.guard o t ∧ ∀ c, C.allow o c t → Safe post (k (exec o c t).1) (exec o c t).2

variable {exec C} {post : Except Exn α → σ → Prop}

theorem Safe.mono {p : Prog Op Res Exn α} {s t : σ} (h : Safe exec C post p s)
    (hst : C.rely s t) : Safe exec C post p t := by
  cases p with
  | pure a => exact fun u hu htu => h u hu (C.trans hst htu)
  | throw e => exact fun u hu htu => h u hu (C.trans hst htu)
  | call o k => exact fun u hu htu => h u hu (C.trans hst htu)

/-- Only the states that keep the invariant and the rely have to be judged. -/
theorem Safe.of_inv {p : Prog Op Res Exn α} {s : σ}
    (h : ∀ t, C.inv t → C.rely s t → Safe exec C post p t) : Safe exec C post p s := by
  cases p with
  | pure a => exact fun t ht hst => h t ht hst t ht (C.refl t)
  | throw e => exact fun t ht hst => h t ht hst t ht (C.refl t)
  | call o k => exact fun t ht hst => h t ht hst t ht (C.refl t)

theorem Safe.weaken {post' : Except Exn α → σ → Prop} {p : Prog Op Res Exn α} {s : σ}
    (h : Safe exec C post p s) (himp : ∀ r t, C.inv t → post r t → post' r t) :
    Safe exec C post' p s := by
  induction p generalizing s with
  | pure a => exact fun t ht hst => himp _ t ht (h t ht hst)
  | throw e => exact fun t ht hst => himp _ t ht (h t ht hst)
  | call o k ih =>
      intro t ht hst
      obtain ⟨hg, hk⟩ := h t ht hst
      exact ⟨hg, fun c hc => ih _ (hk c hc)⟩

/-- Sequencing. The continuation starts at the state the first program ended in. -/
theorem Safe.bind {mid : Except Exn β → σ → Prop} {p : Prog Op Res Exn β}
    {f : β → Prog Op Res Exn α} {s : σ} (h : Safe exec C mid p s)
    (hok : ∀ b t, C.inv t → mid (.ok b) t → Safe exec C post (f b) t)
    (herr : ∀ e t, C.inv t → mid (.error e) t → post (.error e) t) :
    Safe exec C post (p >>= f) s := by
  induction p generalizing s with
  | pure b => exact Safe.of_inv fun t ht hst => hok b t ht (h t ht hst)
  | throw e => exact fun t ht hst => herr e t ht (h t ht hst)
  | call o k ih =>
      intro t ht hst
      obtain ⟨hg, hk⟩ := h t ht hst
      exact ⟨hg, fun c hc => ih _ (hk c hc)⟩

theorem Safe.tryCatch {mid : Except Exn α → σ → Prop} {p : Prog Op Res Exn α}
    {f : Exn → Prog Op Res Exn α} {s : σ} (h : Safe exec C mid p s)
    (hok : ∀ a t, C.inv t → mid (.ok a) t → post (.ok a) t)
    (herr : ∀ e t, C.inv t → mid (.error e) t → Safe exec C post (f e) t) :
    Safe exec C post (p.tryCatch f) s := by
  induction p generalizing s with
  | pure a => exact fun t ht hst => hok a t ht (h t ht hst)
  | throw e => exact Safe.of_inv fun t ht hst => herr e t ht (h t ht hst)
  | call o k ih =>
      intro t ht hst
      obtain ⟨hg, hk⟩ := h t ht hst
      exact ⟨hg, fun c hc => ih _ (hk c hc)⟩

/-- A call whose reply does not depend on the interference and that keeps the state:
the program continues from the state it is judged at. -/
theorem Safe.read {o : Op} {k : Res o → Prog Op Res Exn α} {s : σ} (r : Res o)
    (hguard : ∀ t, C.inv t → C.rely s t → C.guard o t)
    (hexec : ∀ t c, C.inv t → C.rely s t → C.allow o c t → exec o c t = (r, t))
    (h : Safe exec C post (k r) s) : Safe exec C post (.call o k) s := by
  intro t ht hst
  refine ⟨hguard t ht hst, fun c hc => ?_⟩
  rw [hexec t c ht hst hc]
  exact h.mono hst

/-- The frame rule: calls that keep a stable property keep it through the whole program. -/
theorem Safe.of_only {P : Op → Prop} {K : σ → Prop} {p : Prog Op Res Exn α} {s : σ}
    (hp : p.Only P) (hstable : ∀ s t, K s → C.rely s t → K t)
    (hguard : ∀ o s, P o → C.inv s → K s → C.guard o s)
    (hkeep : ∀ o c s, P o → C.inv s → K s → C.allow o c s → K (exec o c s).2) (hs : K s) :
    Safe exec C (fun _ => K) p s := by
  induction p generalizing s with
  | pure a => exact fun t _ hst => hstable s t hs hst
  | throw e => exact fun t _ hst => hstable s t hs hst
  | call o k ih =>
      intro t ht hst
      have hK := hstable s t hs hst
      exact ⟨hguard o t hp.1 ht hK, fun c hc => ih _ (hp.2 _) (hkeep o c t hp.1 ht hK hc)⟩

end Safe

end Concurrent
