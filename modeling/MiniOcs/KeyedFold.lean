import Mathlib.Logic.Function.Basic
import Mathlib.Data.List.Perm.Basic

/-!
# Folds over keyed operations

An operation rewrites the entry of its key. What a run leaves at a key depends on the
operations of that key alone, and operations on different keys may change places.
-/
namespace KeyedFold

variable {κ α σ : Type} [DecidableEq κ] (key : α → κ) (step : α → σ → σ)

def apply (state : κ → σ) (op : α) : κ → σ :=
  Function.update state (key op) (step op (state (key op)))

def run (state : κ → σ) (ops : List α) : κ → σ := ops.foldl (apply key step) state

/-- The operations of one key, in their order. -/
def ofKey (k : κ) (ops : List α) : List α := ops.filter fun op => key op = k

@[simp] theorem run_nil (state : κ → σ) : run key step state [] = state := rfl

@[simp] theorem run_cons (state : κ → σ) (op : α) (ops : List α) :
    run key step state (op :: ops) = run key step (apply key step state op) ops := rfl

theorem run_at (state : κ → σ) (ops : List α) (k : κ) :
    run key step state ops k = (ofKey key k ops).foldl (fun s op => step op s) (state k) := by
  induction ops generalizing state with
  | nil => rfl
  | cons op ops ih =>
      rw [run_cons, ih, ofKey, ofKey, List.filter_cons]
      by_cases hk : key op = k
      · subst hk
        simp [apply]
      · simp [apply, hk, Function.update_of_ne (Ne.symm hk)]

/-- A key without operations keeps its entry. -/
theorem run_of_untouched {state : κ → σ} {ops : List α} {k : κ} (h : ∀ op ∈ ops, key op ≠ k) :
    run key step state ops k = state k := by
  have hnone : ofKey key k ops = [] := by simpa [ofKey, List.filter_eq_nil_iff] using h
  rw [run_at, hnone]
  rfl

/-- Neighbours that may change places, and have different keys, change places. -/
inductive Reordered (mayPass : α → α → Prop) : List α → List α → Prop
  | refl (ops : List α) : Reordered mayPass ops ops
  | swap {before after : List α} {a b : α} : mayPass a b → key a ≠ key b →
      Reordered mayPass (before ++ a :: b :: after) (before ++ b :: a :: after)
  | trans {a b c : List α} : Reordered mayPass a b → Reordered mayPass b c →
      Reordered mayPass a c

variable {key} {mayPass : α → α → Prop} {ops ops' : List α}

omit [DecidableEq κ] in
theorem Reordered.perm (h : Reordered key mayPass ops ops') : ops.Perm ops' := by
  induction h with
  | refl => exact .refl _
  | swap => exact (List.Perm.swap _ _ _).append_left _
  | trans _ _ ih ih' => exact ih.trans ih'

theorem Reordered.ofKey_eq (h : Reordered key mayPass ops ops') (k : κ) :
    ofKey key k ops = ofKey key k ops' := by
  induction h with
  | refl => rfl
  | @swap before after a b _ hne =>
      by_cases ha : key a = k
      · have hb : key b ≠ k := fun hb => hne (ha.trans hb.symm)
        simp [ofKey, List.filter_append, ha, hb]
      · simp [ofKey, List.filter_append, List.filter_cons, ha]
  | trans _ _ ih ih' => exact ih.trans ih'

theorem Reordered.run_eq (h : Reordered key mayPass ops ops') (state : κ → σ) :
    run key step state ops = run key step state ops' := by
  funext k
  rw [run_at, run_at, h.ofKey_eq]

end KeyedFold
