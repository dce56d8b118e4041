import MiniOcs.Concurrent.Program

/-!
# Data that only passes through

A judgement without states: every call satisfies a predicate as long as the replies before it
do, and so does the result. What a predicate says may only grow with the shared state; then it
may be read at any later state, and no interference has to be considered on the way.
-/
namespace Concurrent

namespace Prog

variable {Op : Type} {Res : Op → Type} {Exn α β : Type}

/-- Given replies in `R`, every call is in `P` and the result in `Q`. -/
def Given (P : Op → Prop) (R : (o : Op) → Res o → Prop) (Q : α → Prop) :
    Prog Op Res Exn α → Prop
  | .pure a => Q a
  | .throw _ => True
  | .call o k => P o ∧ ∀ r, R o r → (k r).Given P R Q

variable {P : Op → Prop} {R : (o : Op) → Res o → Prop} {Q S : α → Prop}

theorem Given.mono {p : Prog Op Res Exn α} (h : p.Given P R Q) (hQ : ∀ a, Q a → S a) :
    p.Given P R S := by
  induction p with
  | pure a => exact hQ a h
  | throw e => trivial
  | call o k ih => exact ⟨h.1, fun r hr => ih r (h.2 r hr)⟩

theorem Given.permit {P' : Op → Prop} {p : Prog Op Res Exn α} (h : p.Given P R Q)
    (hP : ∀ o, P o → P' o) : p.Given P' R Q := by
  induction p with
  | pure a => exact h
  | throw e => trivial
  | call o k ih => exact ⟨hP o h.1, fun r hr => ih r (h.2 r hr)⟩

/-- Replies of which less is known. -/
theorem Given.assume {R' : (o : Op) → Res o → Prop} {p : Prog Op Res Exn α} (h : p.Given P R Q)
    (hR : ∀ o r, R' o r → R o r) : p.Given P R' Q := by
  induction p with
  | pure a => exact h
  | throw e => trivial
  | call o k ih => exact ⟨h.1, fun r hr => ih r (h.2 r (hR o r hr))⟩

theorem Given.and {P' : Op → Prop} {p : Prog Op Res Exn α} (h : p.Given P R Q)
    (h' : p.Given P' R S) : p.Given (fun o => P o ∧ P' o) R fun a => Q a ∧ S a := by
  induction p with
  | pure a => exact ⟨h, h'⟩
  | throw e => trivial
  | call o k ih => exact ⟨⟨h.1, h'.1⟩, fun r hr => ih r (h.2 r hr) (h'.2 r hr)⟩

theorem Only.given {p : Prog Op Res Exn α} (h : p.Only P) : p.Given P R fun _ => True := by
  induction p with
  | pure a => trivial
  | throw e => trivial
  | call o k ih => exact ⟨h.1, fun r _ => ih r (h.2 r)⟩

theorem Given.bind {T : β → Prop} {p : Prog Op Res Exn β} {f : β → Prog Op Res Exn α}
    (hp : p.Given P R T) (hf : ∀ b, T b → (f b).Given P R Q) : (p >>= f).Given P R Q := by
  induction p with
  | pure b => exact hf b hp
  | throw e => trivial
  | call o k ih => exact ⟨hp.1, fun r hr => ih r (hp.2 r hr)⟩

theorem Given.tryCatch {p : Prog Op Res Exn α} {f : Exn → Prog Op Res Exn α}
    (hp : p.Given P R Q) (hf : ∀ e, (f e).Given P R Q) : (p.tryCatch f).Given P R Q := by
  induction p with
  | pure a => exact hp
  | throw e => exact hf e
  | call o k ih => exact ⟨hp.1, fun r hr => ih r (hp.2 r hr)⟩

theorem Given.only {P' : Op → Prop} {p : Prog Op Res Exn α}
    (hp : p.Given P (fun _ _ => True) Q) (hP : ∀ o, P o → P' o) : p.Only P' := by
  induction p with
  | pure a => trivial
  | throw e => trivial
  | call o k ih => exact ⟨hP o hp.1, fun r => ih r (hp.2 r trivial)⟩

/-- A run alone of such a program keeps what its calls keep. -/
theorem Given.alone {σ : Type} {exec : (o : Op) → Nat → σ → Res o × σ} {I : σ → Prop}
    (hreply : ∀ o c s, I s → R o (exec o c s).1)
    (hkeep : ∀ o c s, P o → I s → I (exec o c s).2) {p : Prog Op Res Exn α} (hp : p.Given P R Q)
    (pick : Op → σ → Nat) {s : σ} (hs : I s) : I (p.alone exec pick s).2 := by
  induction p generalizing s with
  | pure a => exact hs
  | throw e => exact hs
  | call o k ih => exact ih _ (hp.2 _ (hreply o _ s hs)) (hkeep o _ s hp.1 hs)

end Prog

section

variable {Op : Type} {Res : Op → Type} {Exn α σ : Type}
variable {exec : (o : Op) → Nat → σ → Res o × σ} {C : Contract Op σ}
  {P : σ → Op → Prop} {R : σ → (o : Op) → Res o → Prop}

/-- What a program respects at every later state it respects in every run. -/
theorem Safe.of_given (hguard : ∀ t o, C.inv t → P t o → C.guard o t)
    (hreply : ∀ t o c, C.inv t → P t o → C.allow o c t → C.rely t (exec o c t).2 ∧
      R (exec o c t).2 o (exec o c t).1)
    (hmono : ∀ s t o r, C.rely s t → R s o r → R t o r)
    {p : Prog Op Res Exn α} {s : σ}
    (hp : ∀ t, C.inv t → C.rely s t → p.Given (P t) (R t) fun _ => True) :
    Safe exec C (fun _ _ => True) p s := by
  induction p generalizing s with
  | pure a => exact fun _ _ _ => trivial
  | throw e => exact fun _ _ _ => trivial
  | call o k ih =>
      intro t ht hst
      have hcall := (hp t ht hst).1
      refine ⟨hguard t o ht hcall, fun c hc => ih _ fun u hu htu => ?_⟩
      obtain ⟨hown, hr⟩ := hreply t o c ht hcall hc
      have hsu := C.trans hst (C.trans hown htu)
      exact (hp u hu hsu).2 _ (hmono _ u o _ htu hr)

end

end Concurrent
