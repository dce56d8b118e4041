import Mathlib.Data.List.Range
import MiniOcs.Concurrent.Program

/-!
# Counted loops over a machine word

`for (i = start; i <= last; ++i)`, with a loop variable that wraps at the size of its type. Below
the largest word the loop is a fold over the interval; up to the largest word it does not end.
-/
namespace WordLoop
open Concurrent

section

variable {m : Type → Type} [Monad m] {σ : Type}

/-- At most so many rounds of the loop; `none` when they are used up. -/
def upTo (size last : Nat) (body : σ → Nat → m σ) : Nat → Nat → σ → m (Option σ)
  | 0, _, _ => pure none
  | rounds + 1, i, s =>
      if i ≤ last then do
        let s ← body s i
        upTo size last body rounds ((i + 1) % size) s
      else pure (some s)

variable [LawfulMonad m] {size last : Nat} {body : σ → Nat → m σ}

/-- The rounds left are a measure while the variable does not wrap. -/
theorem upTo_eq_foldlM (h : last + 1 < size) {rounds i : Nat} (hi : i ≤ last + 1)
    (hrounds : last + 1 - i < rounds) (s : σ) : upTo size last body rounds i s =
      some <$> (List.range' i (last + 1 - i)).foldlM body s := by
  induction rounds generalizing i s with
  | zero => omega
  | succ rounds ih =>
      by_cases hle : i ≤ last
      · have hnext : (i + 1) % size = i + 1 := Nat.mod_eq_of_lt (by omega)
        have hcount : last + 1 - i = (last + 1 - (i + 1)) + 1 := by omega
        rw [upTo, if_pos hle, hnext, hcount, List.range'_succ, List.foldlM_cons, map_bind]
        apply congrArg
        funext s'
        exact ih (by omega) (by omega) s'
      · have hcount : last + 1 - i = 0 := by omega
        rw [upTo, if_neg hle, hcount]
        simp

end

section

variable {σ : Type} {size last : Nat}

/-- Every value of the variable is in the interval, so a loop without effects has no result. -/
theorem upTo_eq_none (h : size ≤ last + 1) {body : σ → Nat → Id σ} {i : Nat} (hi : i < size)
    (rounds : Nat) (s : σ) : upTo size last body rounds i s = none := by
  induction rounds generalizing i s with
  | zero => rfl
  | succ rounds ih =>
      have hnext : (i + 1) % size < size := Nat.mod_lt _ (by omega)
      rw [upTo, if_pos (by omega)]
      exact ih hnext _

variable {Op : Type} {Res : Op → Type} {Exn α β : Type}

instance : LawfulMonad (Prog Op Res Exn) :=
  LawfulMonad.mk' _ Prog.bind_pure' (fun _ _ => rfl) Prog.bind_assoc'

/-- A program that may return goes on to what is bound after it. -/
theorem not_returns_bind {R : β → Prop} {p : Prog Op Res Exn α} {f : α → Prog Op Res Exn β}
    (hp : ¬p.Returns fun _ => False) (hf : ∀ a, ¬(f a).Returns R) : ¬(p >>= f).Returns R := by
  induction p with
  | pure a => exact hf a
  | throw e => exact absurd trivial hp
  | call o k ih =>
      obtain ⟨r, hr⟩ := not_forall.mp hp
      intro hall
      exact ih r hr (hall r)

theorem returns_map_some (p : Prog Op Res Exn α) :
    (some <$> p).Returns fun r => r.isSome = true := by
  induction p with
  | pure a => rfl
  | throw e => trivial
  | call o k ih => exact ih

/-- The same for a loop of calls: however many rounds it is given, it may use them up. -/
theorem not_returns_upTo (h : size ≤ last + 1) {body : σ → Nat → Prog Op Res Exn σ}
    (hbody : ∀ s i, ¬(body s i).Returns fun _ => False) {i : Nat} (hi : i < size) (rounds : Nat)
    (s : σ) : ¬(upTo size last body rounds i s).Returns fun r => r.isSome = true := by
  induction rounds generalizing i s with
  | zero => exact fun hsome => Bool.noConfusion hsome
  | succ rounds ih =>
      have hnext : (i + 1) % size < size := Nat.mod_lt _ (by omega)
      rw [upTo, if_pos (by omega)]
      exact not_returns_bind (hbody s i) fun s' => ih hnext s'

end

end WordLoop
