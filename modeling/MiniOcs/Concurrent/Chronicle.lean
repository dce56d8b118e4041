import Mathlib.Data.List.Infix
import MiniOcs.Concurrent.Provenance
import MiniOcs.Concurrent.System

/-!
# States with their history

A system that remembers the states it went through. What is said of a past moment holds at every
later state, so it may be carried through a program without looking at the interference.
-/
namespace Concurrent

/-- A state and the states before it, latest first. -/
structure Chronicle (σ : Type) where
  past : List σ
  now : σ

namespace Chronicle

variable {σ : Type}

def moments (h : Chronicle σ) : List σ := h.now :: h.past

def next (h : Chronicle σ) (t : σ) : Chronicle σ := ⟨h.moments, t⟩

/-- Nothing of the one history is missing in the other. -/
def Later (h h' : Chronicle σ) : Prop := h.moments <:+ h'.moments

theorem Later.refl (h : Chronicle σ) : Later h h := List.suffix_refl _

theorem Later.trans {a b c : Chronicle σ} (hab : Later a b) (hbc : Later b c) : Later a c :=
  List.IsSuffix.trans hab hbc

theorem later_next (h : Chronicle σ) (t : σ) : Later h (h.next t) := List.suffix_cons _ _

theorem Later.mem {h h' : Chronicle σ} (hl : Later h h') {m : σ} (hm : m ∈ h.moments) :
    m ∈ h'.moments := hl.subset hm

theorem now_mem (h : Chronicle σ) : h.now ∈ h.moments := List.mem_cons_self

end Chronicle

section

variable {Op : Type} {Res : Op → Type} {Exn α σ ι : Type}

/-- The system with its history as a part of the state. -/
def System.recorded (S : System Op Res Exn α σ ι) : System Op Res Exn α (Chronicle σ) ι where
  exec o ch h := ((S.exec o ch h.now).1, h.next (S.exec o ch h.now).2)
  init h := h.past = [] ∧ S.init h.now
  starts i h p := S.starts i h.now p
  crash i h := h.next (S.crash i h.now)
  env h h' := ∃ t, S.env h.now t ∧ h' = h.next t
  allow i o ch h := S.allow i o ch h.now
  cut i h := S.cut i h.now

def Running.forget (r : Running Op Res Exn α (Chronicle σ)) : Running Op Res Exn α σ :=
  ⟨r.since.now, r.prog⟩

def Config.forget (c : Config Op Res Exn α (Chronicle σ) ι) : Config Op Res Exn α σ ι :=
  ⟨c.world.now, fun i => (c.procs i).map Running.forget⟩

variable [DecidableEq ι] {S : System Op Res Exn α σ ι}

theorem forget_update (procs : ι → Option (Running Op Res Exn α (Chronicle σ))) (i : ι)
    (r : Option (Running Op Res Exn α (Chronicle σ))) :
    (fun j => (Function.update procs i r j).map Running.forget) =
      Function.update (fun j => (procs j).map Running.forget) i (r.map Running.forget) := by
  funext j
  by_cases hj : j = i
  · subst hj
    simp
  · simp [Function.update_of_ne hj]

/-- Every run of the system is a recorded one. -/
theorem Reachable.recorded {c : Config Op Res Exn α σ ι} (h : Reachable S c) :
    ∃ d, Reachable S.recorded d ∧ d.forget = c := by
  induction h with
  | @init s hs =>
      exact ⟨⟨⟨[], s⟩, fun _ => none⟩, .init ⟨rfl, hs⟩, rfl⟩
  | step _ hstep ih =>
      obtain ⟨d, hd, rfl⟩ := ih
      cases hstep with
      | start i p hi hp =>
          refine ⟨_, hd.step (.start i p (by simpa [Config.forget] using hi) hp), ?_⟩
          simp only [Config.forget, forget_update]
          rfl
      | call i s o k ch hi ha =>
          obtain ⟨r, hr, hforget⟩ := Option.map_eq_some_iff.mp hi
          obtain ⟨since, prog⟩ := r
          cases hforget
          refine ⟨_, hd.step (.call i since o k ch hr ha), ?_⟩
          simp only [Config.forget, forget_update]
          rfl
      | finish i s a hi =>
          obtain ⟨r, hr, hforget⟩ := Option.map_eq_some_iff.mp hi
          obtain ⟨since, prog⟩ := r
          cases hforget
          refine ⟨_, hd.step (.finish i since a hr), ?_⟩
          simp only [Config.forget, forget_update]
          rfl
      | crash i hcut =>
          refine ⟨_, hd.step (.crash i hcut), ?_⟩
          simp only [Config.forget, forget_update]
          rfl
      | env t ht =>
          exact ⟨_, hd.step (.env _ ⟨t, ht, rfl⟩), rfl⟩

/-! ## Programs that keep out of the way -/

variable {exec : (o : Op) → Nat → σ → Res o × σ} {C : Contract Op σ}
  {post : Except Exn α → σ → Prop} {β : Type}

omit [DecidableEq ι] in
/-- A prefix whose calls are always permitted: what follows starts at a later state, with a value
that the calls alone determine. -/
theorem Safe.of_given_bind {P : Op → Prop} {Q : β → Prop}
    (hguard : ∀ o s, P o → C.inv s → C.guard o s)
    (hkeep : ∀ o c s, P o → C.inv s → C.allow o c s → C.rely s (exec o c s).2)
    {p : Prog Op Res Exn β} (hp : p.Given P (fun _ _ => True) Q)
    {f : β → Prog Op Res Exn α} {s : σ}
    (hf : ∀ b t, Q b → C.inv t → C.rely s t → Safe exec C post (f b) t)
    (herror : ∀ e t, C.inv t → C.rely s t → post (.error e) t) :
    Safe exec C post (p >>= f) s := by
  induction p generalizing s with
  | pure b => exact Safe.of_inv fun t ht hst => hf b t hp ht hst
  | throw e => exact fun t ht hst => herror e t ht hst
  | call o k ih =>
      intro t ht hst
      refine ⟨hguard o t hp.1 ht, fun c hc => ?_⟩
      have hown := C.trans hst (hkeep o c t hp.1 ht hc)
      exact ih _ (hp.2 _ trivial) (fun b u hb hu htu => hf b u hb hu (C.trans hown htu))
        fun e u hu htu => herror e u hu (C.trans hown htu)

end

end Concurrent
