import Mathlib.Data.List.Nodup

/-!
# Bounded first-in first-out caches

Entries in the order they were stored, oldest first. A full cache gives up its oldest entry
for a new one, so an entry stays for as many new keys as there are places behind it.
-/
namespace Fifo

variable {κ α : Type}

/-- Store an entry as the newest one, in the place of the oldest when the cache is full. -/
def record (capacity : Nat) (entries : List (κ × α)) (k : κ) (v : α) : List (κ × α) :=
  (if entries.length < capacity then entries else entries.tail) ++ [(k, v)]

def keys (entries : List (κ × α)) : List κ := entries.map Prod.fst

theorem keys_record (capacity : Nat) (entries : List (κ × α)) (k : κ) (v : α) :
    keys (record capacity entries k v) =
      (if entries.length < capacity then keys entries else (keys entries).tail) ++ [k] := by
  unfold record keys
  split_ifs <;> simp [List.map_tail]

theorem length_record_le {capacity : Nat} (hpos : 0 < capacity) {entries : List (κ × α)}
    (hlen : entries.length ≤ capacity) (k : κ) (v : α) :
    (record capacity entries k v).length ≤ capacity := by
  unfold record
  split_ifs with hfull
  · simp only [List.length_append, List.length_singleton]
    omega
  · simp only [List.length_append, List.length_tail, List.length_singleton]
    omega

theorem nodup_record {capacity : Nat} {entries : List (κ × α)} (h : (keys entries).Nodup) {k : κ}
    (hk : k ∉ keys entries) (v : α) : (keys (record capacity entries k v)).Nodup := by
  rw [keys_record]
  split_ifs
  · exact List.nodup_append.mpr ⟨h, List.nodup_singleton k, by
      rintro a ha b hb rfl
      exact hk (List.mem_singleton.mp hb ▸ ha)⟩
  · refine List.nodup_append.mpr ⟨h.sublist (List.tail_sublist _), List.nodup_singleton k, ?_⟩
    rintro a ha b hb rfl
    exact hk (List.mem_singleton.mp hb ▸ List.mem_of_mem_tail ha)

/-- The cache is the end of the whole history of stored keys. -/
theorem keys_record_drop {capacity : Nat} (hpos : 0 < capacity) {entries : List (κ × α)}
    {history : List κ} (h : keys entries = history.drop (history.length - capacity))
    (k : κ) (v : α) :
    keys (record capacity entries k v) =
      (history ++ [k]).drop ((history ++ [k]).length - capacity) := by
  have hlen : entries.length = history.length - (history.length - capacity) := by
    have hlen := congrArg List.length h
    simpa [keys] using hlen
  rw [keys_record, h]
  simp only [List.length_append, List.length_singleton]
  split_ifs with hfull
  · rw [List.drop_append_of_le_length (by omega)]
    congr 2
    omega
  · rw [List.drop_append_of_le_length (by omega), List.tail_drop]
    congr 2
    omega

/-- The entry of a key with at most `n` newer ones behind it. -/
def Held (entries : List (κ × α)) (k : κ) (v : α) (n : Nat) : Prop :=
  ∃ older newer, entries = older ++ (k, v) :: newer ∧ newer.length ≤ n

theorem held_record (capacity : Nat) (entries : List (κ × α)) (k : κ) (v : α) :
    Held (record capacity entries k v) k v 0 :=
  ⟨_, [], rfl, Nat.le_refl 0⟩

/-- One more new key leaves an entry in place while there is room behind it. -/
theorem Held.record {capacity n : Nat} {entries : List (κ × α)} {k : κ} {v : α}
    (h : Held entries k v n) (hn : n + 1 < capacity) (k' : κ) (v' : α) :
    Held (record capacity entries k' v') k v (n + 1) := by
  obtain ⟨older, newer, rfl, hnewer⟩ := h
  unfold Fifo.record
  split_ifs with hfull
  · refine ⟨older, newer ++ [(k', v')], by simp, ?_⟩
    simp only [List.length_append, List.length_singleton]
    omega
  · cases older with
    | nil =>
        simp only [List.nil_append, List.length_cons] at hfull
        omega
    | cons oldest older =>
        refine ⟨older, newer ++ [(k', v')], by simp, ?_⟩
        simp only [List.length_append, List.length_singleton]
        omega

theorem Held.lookup [DecidableEq κ] {n : Nat} {entries : List (κ × α)} {k : κ} {v : α}
    (h : Held entries k v n) (hnodup : (keys entries).Nodup) : entries.lookup k = some v := by
  obtain ⟨older, newer, rfl, -⟩ := h
  simp only [keys, List.map_append, List.map_cons] at hnodup
  have hfresh : k ∉ older.map Prod.fst := by
    intro hmem
    exact (List.nodup_append.mp hnodup).2.2 k hmem k (by simp) rfl
  have hnone : older.lookup k = none := by
    rw [List.lookup_eq_none_iff]
    intro entry hentry
    rw [bne_iff_ne]
    rintro rfl
    exact hfresh (List.mem_map_of_mem hentry)
  simp [List.lookup_append, hnone]

end Fifo
