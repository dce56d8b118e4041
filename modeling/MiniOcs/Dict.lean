import Mathlib.Data.List.Nodup

/-!
# Insertion-ordered dictionaries

A dictionary keeps its keys in the order they were first stored, and a key that is
removed and stored again moves to the end. Iteration sees the entries in that order.
-/

/-- Entries in insertion order, at most one for each key. -/
structure Dict (κ α : Type) where
  entries : List (κ × α)
  nodup : (entries.map Prod.fst).Nodup

namespace Dict

variable {κ α : Type}

def empty : Dict κ α := ⟨[], List.nodup_nil⟩

def keys (d : Dict κ α) : List κ := d.entries.map Prod.fst

variable [DecidableEq κ]

def get? (d : Dict κ α) (k : κ) : Option α := d.entries.lookup k

def replace (k : κ) (v : α) (entry : κ × α) : κ × α := if entry.1 = k then (k, v) else entry

theorem fst_replace (k : κ) (v : α) (entry : κ × α) : (replace k v entry).1 = entry.1 := by
  unfold replace
  split_ifs with h
  · exact h.symm
  · rfl

def set (d : Dict κ α) (k : κ) (v : α) : Dict κ α :=
  if h : k ∈ d.keys then
    ⟨d.entries.map (replace k v), by
      have hfst : Prod.fst ∘ replace k v = (Prod.fst : κ × α → κ) := funext (fst_replace k v)
      rw [List.map_map, hfst]
      exact d.nodup⟩
  else
    ⟨d.entries ++ [(k, v)], by
      rw [List.map_append]
      exact List.nodup_append.mpr ⟨d.nodup, List.nodup_singleton _, fun a ha b hb hab => by
        rw [hab, List.mem_singleton.mp hb] at ha
        exact h ha⟩⟩

def pop (d : Dict κ α) (k : κ) : Dict κ α :=
  ⟨d.entries.filter fun entry => entry.1 ≠ k, d.nodup.sublist (List.filter_sublist.map _)⟩

/-- Keep the first value stored under a key. -/
def setDefault (d : Dict κ α) (k : κ) (v : α) : Dict κ α :=
  if (d.get? k).isSome then d else d.set k v

theorem lookup_eq_some {entries : List (κ × α)} (h : (entries.map Prod.fst).Nodup) {k : κ} {v : α} :
    entries.lookup k = some v ↔ (k, v) ∈ entries := by
  induction entries with
  | nil => simp
  | cons entry rest ih =>
      obtain ⟨a, b⟩ := entry
      simp only [List.map_cons, List.nodup_cons, List.mem_map, not_exists, not_and] at h
      by_cases hk : k = a
      · subst hk
        simp only [List.lookup_cons_self, Option.some.injEq, List.mem_cons, Prod.mk.injEq, true_and]
        constructor
        · rintro rfl; exact .inl rfl
        · rintro (rfl | hv)
          · rfl
          · exact absurd rfl (h.1 (k, v) hv)
      · have hbeq : (k == a) = false := by simpa using hk
        simp only [List.lookup_cons, hbeq, ih h.2, List.mem_cons, Prod.mk.injEq, hk, false_and,
          false_or]

theorem get?_eq_some {d : Dict κ α} {k : κ} {v : α} : d.get? k = some v ↔ (k, v) ∈ d.entries :=
  lookup_eq_some d.nodup

theorem mem_keys {d : Dict κ α} {k : κ} : k ∈ d.keys ↔ ∃ v, d.get? k = some v := by
  simp only [keys, List.mem_map, get?_eq_some]
  constructor
  · rintro ⟨entry, hmem, rfl⟩; exact ⟨entry.2, hmem⟩
  · rintro ⟨v, hv⟩; exact ⟨(k, v), hv, rfl⟩

theorem get?_eq_none {d : Dict κ α} {k : κ} : d.get? k = none ↔ k ∉ d.keys := by
  rw [mem_keys]
  cases d.get? k <;> simp

theorem ext_get? {d : Dict κ α} {k : κ} {o : Option α}
    (h : ∀ v, (k, v) ∈ d.entries ↔ o = some v) : d.get? k = o := by
  cases ho : o with
  | some v => exact get?_eq_some.mpr ((h v).mpr ho)
  | none =>
      rw [get?_eq_none, mem_keys]
      rintro ⟨v, hv⟩
      have := (h v).mp (get?_eq_some.mp hv)
      rw [ho] at this
      cases this

@[simp] theorem get?_empty (k : κ) : (empty : Dict κ α).get? k = none := rfl

@[simp] theorem get?_set (d : Dict κ α) (k : κ) (v : α) (k' : κ) :
    (d.set k v).get? k' = if k' = k then some v else d.get? k' := by
  refine ext_get? fun w => ?_
  unfold set
  split_ifs with hmem hk hk
  · subst hk
    simp only [List.mem_map, replace, Option.some.injEq]
    constructor
    · rintro ⟨⟨a, b⟩, hab, heq⟩
      split_ifs at heq with ha
      · exact (Prod.mk.inj heq).2
      · exact absurd (Prod.mk.inj heq).1 ha
    · rintro rfl
      obtain ⟨w, hw⟩ := mem_keys.mp hmem
      exact ⟨(k', w), get?_eq_some.mp hw, if_pos rfl⟩
  · simp only [List.mem_map, replace, get?_eq_some]
    constructor
    · rintro ⟨⟨a, b⟩, hab, heq⟩
      split_ifs at heq with ha
      · exact absurd (Prod.mk.inj heq).1.symm hk
      · exact heq ▸ hab
    · intro hw
      exact ⟨(k', w), hw, if_neg hk⟩
  · subst hk
    simp only [List.mem_append, List.mem_singleton, Prod.mk.injEq, true_and, Option.some.injEq]
    constructor
    · rintro (hw | rfl)
      · exact absurd (mem_keys.mpr ⟨w, get?_eq_some.mpr hw⟩) hmem
      · rfl
    · rintro rfl; exact .inr rfl
  · simp only [List.mem_append, List.mem_singleton, Prod.mk.injEq, hk, false_and, or_false,
      get?_eq_some]

@[simp] theorem get?_pop (d : Dict κ α) (k : κ) (k' : κ) :
    (d.pop k).get? k' = if k' = k then none else d.get? k' := by
  refine ext_get? fun w => ?_
  simp only [pop, List.mem_filter, decide_eq_true_eq]
  split_ifs with hk
  · simp [hk]
  · rw [get?_eq_some]
    exact ⟨fun h => h.1, fun h => ⟨h, hk⟩⟩

theorem get?_setDefault (d : Dict κ α) (k : κ) (v : α) (k' : κ) :
    (d.setDefault k v).get? k' = if k' = k then some ((d.get? k).getD v) else d.get? k' := by
  unfold setDefault
  cases hd : d.get? k with
  | some w =>
      simp only [Option.isSome_some, ↓reduceIte, Option.getD_some]
      split_ifs with hk
      · rw [hk, hd]
      · rfl
  | none => simp

theorem mem_keys_setDefault (d : Dict κ α) (k : κ) (v : α) (k' : κ) :
    k' ∈ (d.setDefault k v).keys ↔ k' = k ∨ k' ∈ d.keys := by
  simp only [mem_keys, get?_setDefault]
  split_ifs with hk <;> simp [hk]

/-- Map the values and keep the order. -/
def mapValues {β : Type} (d : Dict κ α) (f : α → β) : Dict κ β :=
  ⟨d.entries.map fun entry => (entry.1, f entry.2), by
    rw [List.map_map]
    exact d.nodup⟩

@[simp] theorem get?_mapValues {β : Type} (d : Dict κ α) (f : α → β) (k : κ) :
    (d.mapValues f).get? k = (d.get? k).map f := by
  refine ext_get? fun w => ?_
  simp only [mapValues, List.mem_map, Prod.mk.injEq, Prod.exists, Option.map_eq_some_iff,
    get?_eq_some]
  constructor
  · rintro ⟨a, b, hab, rfl, rfl⟩; exact ⟨b, hab, rfl⟩
  · rintro ⟨b, hb, rfl⟩; exact ⟨k, b, hb, rfl, rfl⟩

theorem mapValues_set {β : Type} (d : Dict κ α) (f : α → β) (k : κ) (v : α) :
    (d.set k v).mapValues f = (d.mapValues f).set k (f v) := by
  have hkeys : (d.mapValues f).keys = d.keys := by
    simp only [keys, mapValues, List.map_map, Function.comp_def]
  unfold set
  by_cases hk : k ∈ d.keys
  · rw [dif_pos hk, dif_pos (hkeys ▸ hk)]
    simp only [mapValues, mk.injEq, List.map_map]
    refine List.map_congr_left fun entry _ => ?_
    simp only [Function.comp, replace]
    split_ifs <;> rfl
  · rw [dif_neg hk, dif_neg (hkeys ▸ hk)]
    simp [mapValues]

theorem mapValues_pop {β : Type} (d : Dict κ α) (f : α → β) (k : κ) :
    (d.pop k).mapValues f = (d.mapValues f).pop k := by
  simp only [mapValues, pop, List.filter_map, Function.comp_def]

end Dict
