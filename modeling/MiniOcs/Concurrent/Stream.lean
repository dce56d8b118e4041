import Mathlib.Tactic.Common

/-!
# Consumer groups over a log

A group delivers the entries of an append-only log in order and keeps each delivered
entry pending until it is acknowledged. A new entry is delivered only while nothing is
pending, so at most one entry is in flight, however many consumers compete for it.
-/
namespace Concurrent

/-- An entry of a log that was appended to is an old one or the new one. -/
theorem getElem?_concat {α : Type} {log : List α} {x y : α} {n : Nat}
    (h : (log ++ [x])[n]? = some y) : log[n]? = some y ∨ (n = log.length ∧ y = x) := by
  rw [List.getElem?_append] at h
  split_ifs at h with hlt
  · exact .inl h
  · cases hk : n - log.length with
    | zero =>
        rw [hk] at h
        exact .inr ⟨by omega, (Option.some.inj h).symm⟩
    | succ k =>
        rw [hk] at h
        cases h

structure Group where
  delivered : Nat := 0
  pending : List Nat := []
  deriving DecidableEq, Repr

namespace Group

/-- The pending entry that a scan of at most `bound` entries picks. -/
def candidate (g : Group) (bound choice : Nat) : Option Nat :=
  if choice < bound then g.pending[choice]? else none

/-- Deliver the next entry of a log of the given length, if nothing is pending. -/
def read (g : Group) (length : Nat) : Option Nat × Group :=
  if g.pending = [] ∧ g.delivered < length then
    (some g.delivered, ⟨g.delivered + 1, [g.delivered]⟩)
  else (none, g)

def ack (g : Group) (n : Nat) : Bool × Group :=
  (decide (n ∈ g.pending), { g with pending := g.pending.filter (· ≠ n) })

/-- The entry was delivered and acknowledged. -/
def Acked (g : Group) (n : Nat) : Prop := n < g.delivered ∧ n ∉ g.pending

instance (g : Group) (n : Nat) : Decidable (g.Acked n) :=
  inferInstanceAs (Decidable (_ ∧ _))

/-- At most the last delivered entry is pending. -/
def Serial (g : Group) : Prop := ∀ n ∈ g.pending, g.pending = [n] ∧ g.delivered = n + 1

theorem serial_init : Serial {} := by
  intro n hn
  cases hn

theorem read_eq_some {g g' : Group} {length n : Nat} (h : g.read length = (some n, g')) :
    g.pending = [] ∧ n = g.delivered ∧ n < length ∧ g' = ⟨n + 1, [n]⟩ := by
  unfold read at h
  split_ifs at h with hc
  · simp only [Prod.mk.injEq, Option.some.injEq] at h
    obtain ⟨rfl, rfl⟩ := h
    exact ⟨hc.1, rfl, hc.2, rfl⟩
  · simp at h

theorem Serial.read {g : Group} (h : Serial g) (length : Nat) : Serial (g.read length).2 := by
  unfold Group.read
  split_ifs
  · intro n hn
    cases List.mem_singleton.mp hn
    exact ⟨rfl, rfl⟩
  · exact h

theorem Serial.ack {g : Group} (h : Serial g) (n : Nat) : Serial (g.ack n).2 := by
  intro m hm
  simp only [Group.ack, ne_eq, decide_not, List.mem_filter, Bool.not_eq_eq_eq_not, Bool.not_true,
    decide_eq_false_iff_not] at hm
  obtain ⟨hp, hd⟩ := h m hm.1
  refine ⟨?_, hd⟩
  simp [Group.ack, hp, hm.2]

theorem acked_ack {g : Group} {m n : Nat} :
    (g.ack m).2.Acked n ↔ g.Acked n ∨ (n = m ∧ n < g.delivered) := by
  unfold Acked ack
  simp only [ne_eq, decide_not, List.mem_filter, Bool.not_eq_eq_eq_not, Bool.not_true,
    decide_eq_false_iff_not, not_and, not_not]
  constructor
  · rintro ⟨hlt, himp⟩
    by_cases hmem : n ∈ g.pending
    · exact .inr ⟨himp hmem, hlt⟩
    · exact .inl ⟨hlt, hmem⟩
  · rintro (⟨hlt, hmem⟩ | ⟨rfl, hlt⟩)
    · exact ⟨hlt, fun hm => absurd hm hmem⟩
    · exact ⟨hlt, fun _ => rfl⟩

theorem acked_read {g : Group} {length n : Nat} : (g.read length).2.Acked n ↔ g.Acked n := by
  unfold read
  split_ifs with h
  · simp only [Acked, List.mem_singleton, h.1, List.not_mem_nil, not_false_eq_true, and_true]
    omega
  · rfl

end Group

/-! ## Logs behind markers -/

/-- At most one entry of the log is of the kind, and none before its marker is set. -/
def BehindMarker {α : Type} (kind : α → Bool) (log : List α) (marker : Bool) : Prop :=
  log.countP kind ≤ marker.toNat

section BehindMarker

variable {α : Type} {kind : α → Bool} {log : List α} {marker : Bool}

theorem BehindMarker.le_one (h : BehindMarker kind log marker) : log.countP kind ≤ 1 :=
  Nat.le_trans h (Bool.toNat_le marker)

theorem BehindMarker.append (h : BehindMarker kind log marker) {extra : List α}
    (hextra : ∀ a ∈ extra, kind a = false) : BehindMarker kind (log ++ extra) marker := by
  have hnone : extra.countP kind = 0 := by
    apply List.countP_eq_zero.mpr
    intro a ha
    rw [hextra a ha]
    exact Bool.false_ne_true
  unfold BehindMarker
  rw [List.countP_append, hnone]
  exact h

theorem BehindMarker.mark (h : BehindMarker kind log false) (a : α) :
    BehindMarker kind (log ++ [a]) true := by
  have hone : [a].countP kind ≤ 1 := List.countP_le_length
  unfold BehindMarker at h ⊢
  rw [List.countP_append]
  simp only [Bool.toNat_false, Bool.toNat_true] at h ⊢
  omega

theorem BehindMarker.set (h : BehindMarker kind log marker) : BehindMarker kind log true := h.le_one

end BehindMarker

end Concurrent
