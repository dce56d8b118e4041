import Mathlib.Data.List.Basic

/-!
# Separated fields

Texts that are composed of fields with a separator between them. As long as no field has the
separator, the text determines the fields, what it begins with up to a separator are whole fields,
and what follows its last separator is its last field.
-/
namespace Separated

/-! ## Lists -/

section Lists

variable {α : Type} {sep : α} {xs ys : List (List α)}

/-- No field has the separator. -/
def Clear (sep : α) (fields : List (List α)) : Prop := ∀ field ∈ fields, sep ∉ field

theorem intercalate_append (hxs : xs ≠ []) (hys : ys ≠ []) :
    [sep].intercalate (xs ++ ys) = [sep].intercalate xs ++ sep :: [sep].intercalate ys := by
  induction xs with
  | nil => exact absurd rfl hxs
  | cons x rest ih =>
      cases rest with
      | nil => simp [List.intercalate_cons_of_ne_nil hys]
      | cons y rest =>
          rw [List.cons_append, List.cons_append, List.intercalate_cons_cons,
            List.intercalate_cons_cons, ← List.cons_append, ih (by simp)]
          simp

variable [DecidableEq α]

theorem intercalate_inj (hxs : xs ≠ []) (hys : ys ≠ []) (hx : Clear sep xs) (hy : Clear sep ys)
    (h : [sep].intercalate xs = [sep].intercalate ys) : xs = ys := by
  rw [← List.splitOn_intercalate sep hx hxs, h, List.splitOn_intercalate sep hy hys]

theorem count_intercalate (hxs : xs ≠ []) : ([sep].intercalate xs).count sep + 1 =
    xs.length + xs.flatten.count sep := by
  induction xs with
  | nil => exact absurd rfl hxs
  | cons x rest ih =>
      cases rest with
      | nil => simp [Nat.add_comm]
      | cons y rest =>
          have hrest := ih (by simp)
          rw [List.intercalate_cons_cons, List.flatten_cons]
          simp only [List.count_append, List.count_cons_self, List.count_nil,
            List.length_cons] at hrest ⊢
          omega

/-- Fields that are not known to be without separators have none if they make the same text as
as few fields without. -/
theorem intercalate_inj_of_length_le (hxs : xs ≠ []) (hys : ys ≠ []) (hy : Clear sep ys)
    (hlength : ys.length ≤ xs.length) (h : [sep].intercalate xs = [sep].intercalate ys) :
    xs = ys := by
  have hzero : ys.flatten.count sep = 0 := by
    rw [List.count_eq_zero]
    intro hsep
    obtain ⟨field, hfield, hin⟩ := List.mem_flatten.mp hsep
    exact hy field hfield hin
  have hcount : ([sep].intercalate xs).count sep + 1 = xs.length + xs.flatten.count sep :=
    count_intercalate hxs
  rw [h, count_intercalate hys, hzero] at hcount
  have hnone : xs.flatten.count sep = 0 := by omega
  apply intercalate_inj hxs hys _ hy h
  intro field hfield hsep
  exact List.count_eq_zero.mp hnone (List.mem_flatten.mpr ⟨field, hfield, hsep⟩)

/-- A text that begins with fields and a separator has these fields, and more. -/
theorem prefix_iff (hxs : xs ≠ []) (hys : ys ≠ []) (hx : Clear sep xs) (hy : Clear sep ys) :
    [sep].intercalate xs ++ [sep] <+: [sep].intercalate ys ↔ ∃ zs ≠ [], ys = xs ++ zs := by
  constructor
  · rintro ⟨text, htext⟩
    refine ⟨text.splitOn sep, List.splitOn_ne_nil _ _, ?_⟩
    rw [List.append_assoc, List.singleton_append] at htext
    rw [← List.splitOn_intercalate sep hy hys, ← htext, List.splitOn_append_cons_self,
      List.splitOn_intercalate sep hx hxs]
  · rintro ⟨zs, hzs, rfl⟩
    rw [intercalate_append hxs hzs]
    exact ⟨[sep].intercalate zs, by simp⟩

/-- What follows the last separator. -/
def lastField (sep : α) (text : List α) : List α :=
  (text.reverse.takeWhile fun a => decide (a ≠ sep)).reverse

theorem takeWhile_ne {field rest : List α} (h : sep ∉ field) :
    (field ++ sep :: rest).takeWhile (fun a => decide (a ≠ sep)) = field := by
  induction field with
  | nil => simp
  | cons a field ih =>
      rw [List.mem_cons, not_or] at h
      rw [List.cons_append, List.takeWhile_cons_of_pos (by simpa using Ne.symm h.1), ih h.2]

theorem lastField_intercalate {field : List α} (hxs : xs ≠ []) (h : sep ∉ field) :
    lastField sep ([sep].intercalate (xs ++ [field])) = field := by
  rw [intercalate_append hxs (by simp)]
  simp only [lastField, List.intercalate_singleton, List.reverse_append, List.reverse_cons,
    List.append_assoc, List.singleton_append]
  rw [takeWhile_ne (by simpa using h), List.reverse_reverse]

end Lists

/-! ## Texts -/

section Texts

variable {sep : Char} {xs ys : List String}

/-- The fields with the separator between them. -/
def join (sep : Char) (fields : List String) : String := (String.singleton sep).intercalate fields

def split (sep : Char) (text : String) : List String := (text.toList.splitOn sep).map String.ofList

/-- No field has the separator. -/
def Free (sep : Char) (field : String) : Prop := sep ∉ field.toList

instance (sep : Char) (field : String) : Decidable (Free sep field) :=
  inferInstanceAs (Decidable (sep ∉ field.toList))

@[simp] theorem free_append {c : Char} {a b : String} : Free c (a ++ b) ↔ Free c a ∧ Free c b := by
  simp [Free]

theorem toList_join (fields : List String) :
    (join sep fields).toList = [sep].intercalate (fields.map String.toList) := by
  simp [join]

@[simp] theorem join_singleton (field : String) : join sep [field] = field := by
  apply String.toList_inj.mp
  rw [toList_join]
  simp

theorem join_append (hxs : xs ≠ []) (hys : ys ≠ []) :
    join sep (xs ++ ys) = join sep xs ++ String.singleton sep ++ join sep ys := by
  apply String.toList_inj.mp
  rw [toList_join, List.map_append, intercalate_append (by simpa using hxs) (by simpa using hys),
    String.toList_append, String.toList_append, toList_join, toList_join]
  simp

/-- Another character is in a text only where it is in a field. -/
theorem free_join {c : Char} (hc : c ≠ sep) (h : ∀ field ∈ xs, Free c field) :
    Free c (join sep xs) := by
  induction xs with
  | nil => simp [Free, join]
  | cons x rest ih =>
      cases rest with
      | nil =>
          rw [join_singleton]
          exact h x List.mem_cons_self
      | cons y rest =>
          rw [← List.singleton_append, join_append (by simp) (by simp), join_singleton]
          have hrest := ih fun field hfield => h field (List.mem_cons_of_mem _ hfield)
          simp only [Free, String.toList_append, List.mem_append, not_or] at hrest ⊢
          exact ⟨⟨h x List.mem_cons_self, by simpa using hc⟩, hrest⟩

theorem clear_of_free (h : ∀ field ∈ xs, Free sep field) : Clear sep (xs.map String.toList) := by
  intro field hfield
  obtain ⟨text, htext, rfl⟩ := List.mem_map.mp hfield
  exact h text htext

theorem map_toList_inj (h : xs.map String.toList = ys.map String.toList) : xs = ys :=
  List.map_injective_iff.mpr (fun _ _ => String.toList_inj.mp) h

theorem join_inj (hxs : xs ≠ []) (hys : ys ≠ []) (hx : ∀ field ∈ xs, Free sep field)
    (hy : ∀ field ∈ ys, Free sep field) (h : join sep xs = join sep ys) : xs = ys := by
  have hlists := congrArg String.toList h
  rw [toList_join, toList_join] at hlists
  exact map_toList_inj (intercalate_inj (by simpa using hxs) (by simpa using hys)
    (clear_of_free hx) (clear_of_free hy) hlists)

/-- What is filled into a template cannot bring in fields. -/
theorem join_inj_of_length_le (hxs : xs ≠ []) (hys : ys ≠ [])
    (hy : ∀ field ∈ ys, Free sep field) (hlength : ys.length ≤ xs.length)
    (h : join sep xs = join sep ys) : xs = ys := by
  have hlists := congrArg String.toList h
  rw [toList_join, toList_join] at hlists
  exact map_toList_inj (intercalate_inj_of_length_le (by simpa using hxs) (by simpa using hys)
    (clear_of_free hy) (by simpa using hlength) hlists)

/-- The text after the last separator, whatever stands before. -/
theorem last_of_join {field field' : String} (hxs : xs ≠ []) (hys : ys ≠ [])
    (hfield : Free sep field) (hfield' : Free sep field')
    (h : join sep (xs ++ [field]) = join sep (ys ++ [field'])) : field = field' := by
  have hlists := congrArg (fun text => lastField sep text.toList) h
  simp only [toList_join, List.map_append, List.map_singleton] at hlists
  rw [lastField_intercalate (by simpa using hxs) hfield,
    lastField_intercalate (by simpa using hys) hfield'] at hlists
  exact String.toList_inj.mp hlists

theorem split_join (hxs : xs ≠ []) (hx : ∀ field ∈ xs, Free sep field) :
    split sep (join sep xs) = xs := by
  rw [split, toList_join, List.splitOn_intercalate sep (clear_of_free hx) (by simpa using hxs)]
  simp

theorem join_split (text : String) : join sep (split sep text) = text := by
  apply String.toList_inj.mp
  rw [toList_join, split, List.map_map]
  simp

end Texts

end Separated
