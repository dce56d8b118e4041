import MiniOcs.Concurrent.Provenance

/-!
# Pre- and postconditions of programs

A triple says that a program started where its precondition holds makes guarded calls only, and
ends where its postcondition holds, whatever the permitted interference was. Assertions about
the moment between two calls have to be stable.
-/
namespace Concurrent

section

variable {Op : Type} {Res : Op → Type} {Exn α β σ : Type}

/-- Interference keeps the assertion. -/
def Stable (C : Contract Op σ) (K : σ → Prop) : Prop := ∀ s t, K s → C.rely s t → K t

def Outcome (Q : α → σ → Prop) (E : Exn → σ → Prop) : Except Exn α → σ → Prop
  | .ok a => Q a
  | .error e => E e

variable (exec : (o : Op) → Nat → σ → Res o × σ) (C : Contract Op σ)

/-- From `K` the program returns in `Q` or raises in `E`. -/
def Triple (K : σ → Prop) (p : Prog Op Res Exn α) (Q : α → σ → Prop) (E : Exn → σ → Prop) : Prop :=
  ∀ s, K s → Safe exec C (Outcome Q E) p s

variable {exec C} {K K' : σ → Prop} {Q Q' : α → σ → Prop} {E E' : Exn → σ → Prop}

namespace Triple

theorem pure {a : α} (hQ : Stable C (Q a)) (h : ∀ s, K s → Q a s) :
    Triple exec C K (.pure a) Q E :=
  fun s hs t _ hst => hQ s t (h s hs) hst

theorem throw {e : Exn} (hE : Stable C (E e)) (h : ∀ s, K s → E e s) :
    Triple exec C K (.throw e : Prog Op Res Exn α) Q E :=
  fun s hs t _ hst => hE s t (h s hs) hst

theorem call {o : Op} {k : Res o → Prog Op Res Exn α} (M : Res o → σ → Prop) (hK : Stable C K)
    (hguard : ∀ s, C.inv s → K s → C.guard o s)
    (hstep : ∀ s ch, C.inv s → K s → C.allow o ch s → M (exec o ch s).1 (exec o ch s).2)
    (hk : ∀ r, Triple exec C (M r) (k r) Q E) : Triple exec C K (.call o k) Q E := by
  intro s hs t ht hst
  have hKt := hK s t hs hst
  exact ⟨hguard t ht hKt, fun ch hch => hk _ _ (hstep t ch ht hKt hch)⟩

theorem bind {M : β → σ → Prop} {p : Prog Op Res Exn β} {f : β → Prog Op Res Exn α}
    (hp : Triple exec C K p M E) (hf : ∀ b, Triple exec C (M b) (f b) Q E) :
    Triple exec C K (p >>= f) Q E :=
  fun s hs => (hp s hs).bind (fun b t _ hb => hf b t hb) (fun _ _ _ he => he)

theorem tryCatch {M : Exn → σ → Prop} {p : Prog Op Res Exn α} {f : Exn → Prog Op Res Exn α}
    (hp : Triple exec C K p Q M) (hf : ∀ e, Triple exec C (M e) (f e) Q E) :
    Triple exec C K (p.tryCatch f) Q E :=
  fun s hs => (hp s hs).tryCatch (fun _ _ _ ha => ha) (fun e t _ he => hf e t he)

theorem conseq {p : Prog Op Res Exn α} (h : Triple exec C K p Q E) (hK : ∀ s, K' s → K s)
    (hQ : ∀ a s, Q a s → Q' a s) (hE : ∀ e s, E e s → E' e s) : Triple exec C K' p Q' E' := by
  intro s hs
  refine (h s (hK s hs)).weaken fun r t _ hr => ?_
  cases r with
  | ok a => exact hQ a t hr
  | error e => exact hE e t hr

theorem pre {p : Prog Op Res Exn α} (h : Triple exec C K p Q E) (hK : ∀ s, K' s → K s) :
    Triple exec C K' p Q E :=
  fun s hs => h s (hK s hs)

/-- A fact that does not depend on the state. -/
theorem lift {φ : Prop} {p : Prog Op Res Exn α} (h : φ → Triple exec C K p Q E) :
    Triple exec C (fun s => K s ∧ φ) p Q E :=
  fun s hs => h hs.2 s hs.1

/-- The frame rule for programs whose calls all keep the assertion. -/
theorem of_only {P : Op → Prop} {p : Prog Op Res Exn α} (hp : p.Only P) (hK : Stable C K)
    (hguard : ∀ o s, P o → C.inv s → K s → C.guard o s)
    (hkeep : ∀ o ch s, P o → C.inv s → K s → C.allow o ch s → K (exec o ch s).2) :
    Triple exec C K p (fun _ => K) (fun _ => K) := by
  intro s hs
  refine (Safe.of_only hp hK hguard hkeep hs).weaken fun r t _ hr => ?_
  cases r with
  | ok a => exact hr
  | error e => exact hr

/-- The frame rule for a program whose result is known whatever the replies were. -/
theorem of_given {P : Op → Prop} {R : α → Prop} {p : Prog Op Res Exn α}
    (hp : p.Given P (fun _ _ => True) R) (hK : Stable C K)
    (hguard : ∀ o s, P o → C.inv s → K s → C.guard o s)
    (hkeep : ∀ o ch s, P o → C.inv s → K s → C.allow o ch s → K (exec o ch s).2) :
    Triple exec C K p (fun a s => K s ∧ R a) (fun _ => K) := by
  induction p with
  | pure a => exact fun s hs t _ hst => ⟨hK s t hs hst, hp⟩
  | throw e => exact fun s hs t _ hst => hK s t hs hst
  | call o k ih =>
      exact Triple.call (fun _ => K) hK (fun s hs => hguard o s hp.1 hs)
        (fun s ch hs hKs => hkeep o ch s hp.1 hs hKs) fun r => ih r (hp.2 r trivial)

/-- What is known of every result may be added to the postcondition. -/
theorem returns {R : α → Prop} {p : Prog Op Res Exn α} (h : Triple exec C K p Q E)
    (hp : p.Returns R) : Triple exec C K p (fun a s => Q a s ∧ R a) E := by
  have hsafe : ∀ (p : Prog Op Res Exn α) (s : σ), p.Returns R → Safe exec C (Outcome Q E) p s →
      Safe exec C (Outcome (fun a s => Q a s ∧ R a) E) p s := by
    intro p
    induction p with
    | pure a => exact fun s hp hs t ht hst => ⟨hs t ht hst, hp⟩
    | throw e => exact fun s _ hs => hs
    | call o k ih =>
        intro s hp hs t ht hst
        obtain ⟨hg, hk⟩ := hs t ht hst
        exact ⟨hg, fun c hc => ih _ _ (hp _) (hk c hc)⟩
  exact fun s hs => hsafe p s hp (h s hs)

end Triple

end

end Concurrent
