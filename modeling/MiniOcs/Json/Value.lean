import Mathlib.Data.String.Basic
import Mathlib.Order.Basic

/-!
# JSON values

Objects are maps: their members are kept sorted by key, and a member that is stored again
replaces the first one. A floating-point number is the number that it stands for.
-/

inductive Json where
  | null
  | bool (b : Bool)
  | int (n : Int)
  | real (q : Rat)
  | str (s : String)
  | arr (items : List Json)
  | obj (members : List (String × Json))

namespace Json

/-! ## Members of an object -/

/-- Store a member in its place. -/
def insertMember (key : String) (value : Json) : List (String × Json) → List (String × Json)
  | [] => [(key, value)]
  | (k, v) :: rest =>
      if key = k then (key, value) :: rest
      else if key < k then (key, value) :: (k, v) :: rest
      else (k, v) :: insertMember key value rest

def storeMembers (members : List (String × Json)) : List (String × Json) :=
  members.foldl (fun stored member => insertMember member.1 member.2 stored) []

/-- The object with the given members. -/
def object (members : List (String × Json)) : Json := .obj (storeMembers members)

theorem lookup_insertMember (key : String) (value : Json) (members : List (String × Json))
    (k : String) :
    (insertMember key value members).lookup k =
      if k = key then some value else members.lookup k := by
  induction members with
  | nil =>
      by_cases hk : k = key
      · simp [insertMember, hk]
      · have hne : (k == key) = false := by simpa using hk
        simp [insertMember, List.lookup_cons, hne, hk]
  | cons member rest ih =>
      obtain ⟨k', v'⟩ := member
      unfold insertMember
      by_cases hk : k = key
      · subst hk
        rw [if_pos rfl] at ih ⊢
        split_ifs with heq hlt
        · simp
        · simp
        · have hne : (k == k') = false := by simpa using heq
          simp [List.lookup_cons, hne, ih]
      · have hne : (k == key) = false := by simpa using hk
        rw [if_neg hk] at ih ⊢
        split_ifs with heq hlt
        · simp [List.lookup_cons, hne, ← heq]
        · rw [List.lookup_cons, hne]
        · rw [List.lookup_cons, List.lookup_cons, ih]

theorem lookup_foldl_insertMember (members stored : List (String × Json))
    (hnodup : (members.map Prod.fst).Nodup) (k : String) :
    (members.foldl (fun stored member => insertMember member.1 member.2 stored) stored).lookup k =
      (members.lookup k).or (stored.lookup k) := by
  induction members generalizing stored with
  | nil => simp
  | cons member rest ih =>
      obtain ⟨key, value⟩ := member
      simp only [List.map_cons, List.nodup_cons] at hnodup
      rw [List.foldl_cons, ih _ hnodup.2, lookup_insertMember, List.lookup_cons]
      by_cases hk : k = key
      · have hnone : rest.lookup k = none := by
          rw [List.lookup_eq_none_iff]
          intro member hmember
          rw [bne_iff_ne]
          rintro rfl
          exact hnodup.1 (hk ▸ List.mem_map_of_mem hmember)
        simp [hk, hk ▸ hnone]
      · have hne : (k == key) = false := by simpa using hk
        simp [hk, hne]

/-- A member of an object is the one it was built with. -/
theorem lookup_storeMembers {members : List (String × Json)}
    (hnodup : (members.map Prod.fst).Nodup) (k : String) :
    (storeMembers members).lookup k = members.lookup k := by
  unfold storeMembers
  rw [lookup_foldl_insertMember members [] hnodup]
  cases members.lookup k <;> rfl

/-! ## Values that a text gives back -/

def Sorted (members : List (String × Json)) : Prop := members.Pairwise fun a b => a.1 < b.1

theorem mem_insertMember {key : String} {value : Json} {members : List (String × Json)}
    {member : String × Json} (h : member ∈ insertMember key value members) :
    member = (key, value) ∨ member ∈ members := by
  induction members with
  | nil => simpa [insertMember] using h
  | cons first rest ih =>
      obtain ⟨k, v⟩ := first
      unfold insertMember at h
      split_ifs at h
      · rcases List.mem_cons.mp h with h | h
        · exact .inl h
        · exact .inr (by simp [h])
      · rcases List.mem_cons.mp h with h | h
        · exact .inl h
        · exact .inr h
      · rcases List.mem_cons.mp h with h | h
        · exact .inr (by simp [h])
        · rcases ih h with h | h
          · exact .inl h
          · exact .inr (by simp [h])

theorem sorted_insertMember {members : List (String × Json)} (h : Sorted members) (key : String)
    (value : Json) : Sorted (insertMember key value members) := by
  induction members with
  | nil => exact List.pairwise_singleton _ _
  | cons first rest ih =>
      obtain ⟨k, v⟩ := first
      obtain ⟨hfirst, hrest⟩ := List.pairwise_cons.mp h
      unfold insertMember
      split_ifs with heq hlt
      · subst heq
        exact List.pairwise_cons.mpr ⟨hfirst, hrest⟩
      · refine List.pairwise_cons.mpr ⟨?_, h⟩
        intro member hmember
        rcases List.mem_cons.mp hmember with rfl | hmember
        · exact hlt
        · exact lt_trans hlt (hfirst member hmember)
      · refine List.pairwise_cons.mpr ⟨?_, ih hrest⟩
        intro member hmember
        rcases mem_insertMember hmember with rfl | hmember
        · exact lt_of_le_of_ne (not_lt.mp hlt) fun hk => heq hk.symm
        · exact hfirst member hmember

theorem sorted_storeMembers (members : List (String × Json)) : Sorted (storeMembers members) := by
  have hfold : ∀ stored, Sorted stored → Sorted
      (members.foldl (fun stored member => insertMember member.1 member.2 stored) stored) := by
    induction members with
    | nil => exact fun stored h => h
    | cons member rest ih =>
        intro stored h
        exact ih _ (sorted_insertMember h _ _)
  exact hfold [] List.Pairwise.nil

theorem mem_storeMembers {members : List (String × Json)} {member : String × Json}
    (h : member ∈ storeMembers members) : member ∈ members := by
  have hfold : ∀ stored : List (String × Json), member ∈
      members.foldl (fun stored member => insertMember member.1 member.2 stored) stored →
      member ∈ members ∨ member ∈ stored := by
    clear h
    induction members with
    | nil => exact fun stored h => .inr h
    | cons first rest ih =>
        intro stored h
        rcases ih _ h with h | h
        · exact .inl (by simp [h])
        · rcases mem_insertMember h with rfl | h
          · exact .inl (by simp)
          · exact .inr h
  rcases hfold [] h with h | h
  · exact h
  · cases h

theorem insertMember_of_lt {members : List (String × Json)} {key : String}
    (h : ∀ member ∈ members, member.1 < key) (value : Json) :
    insertMember key value members = members ++ [(key, value)] := by
  induction members with
  | nil => rfl
  | cons first rest ih =>
      obtain ⟨k, v⟩ := first
      have hlt : k < key := h (k, v) (by simp)
      unfold insertMember
      rw [if_neg (ne_of_gt hlt), if_neg (lt_asymm hlt), ih fun member hm => h member (by simp [hm])]
      rfl

/-- Storing sorted members one by one stores them as they are. -/
theorem storeMembers_of_sorted {members : List (String × Json)} (h : Sorted members) :
    storeMembers members = members := by
  have hfold : ∀ stored, Sorted (stored ++ members) →
      members.foldl (fun stored member => insertMember member.1 member.2 stored) stored =
        stored ++ members := by
    clear h
    induction members with
    | nil => simp
    | cons first rest ih =>
        intro stored h
        have hlt : ∀ member ∈ stored, member.1 < first.1 := fun member hm =>
          (List.pairwise_append.mp h).2.2 member hm first (by simp)
        rw [List.foldl_cons, insertMember_of_lt hlt]
        have hnext := ih (stored ++ [(first.1, first.2)]) (by simpa using h)
        simpa using hnext
  exact hfold [] h

mutual

/-- Every object inside has its members in order, and every number fits its 64-bit type. No
service writes a fraction. -/
def Normal : Json → Prop
  | .int n => -9223372036854775808 ≤ n ∧ n < 18446744073709551616
  | .real q => q.den = 1 ∧ -9007199254740992 ≤ q.num ∧ q.num ≤ 9007199254740992
  | .arr items => NormalItems items
  | .obj members => Sorted members ∧ NormalMembers members
  | _ => True

def NormalItems : List Json → Prop
  | [] => True
  | item :: rest => Normal item ∧ NormalItems rest

def NormalMembers : List (String × Json) → Prop
  | [] => True
  | (_, value) :: rest => Normal value ∧ NormalMembers rest

end

theorem normalItems_iff {items : List Json} : NormalItems items ↔ ∀ item ∈ items, Normal item := by
  induction items with
  | nil => simp [NormalItems]
  | cons item rest ih => simp [NormalItems, ih]

theorem normalMembers_iff {members : List (String × Json)} :
    NormalMembers members ↔ ∀ member ∈ members, Normal member.2 := by
  induction members with
  | nil => simp [NormalMembers]
  | cons member rest ih => simp [NormalMembers, ih]

theorem normal_bool (b : Bool) : Normal (.bool b) := by
  rw [Normal] <;> simp

theorem normal_str (s : String) : Normal (.str s) := by
  rw [Normal] <;> simp

theorem normal_nat {n : Nat} (h : n < 18446744073709551616) : Normal (.int n) := by
  rw [Normal]
  omega

theorem normal_arr {items : List Json} (h : ∀ item ∈ items, Normal item) : Normal (.arr items) := by
  rw [Normal]
  exact normalItems_iff.mpr h

theorem normal_object {members : List (String × Json)} (h : ∀ member ∈ members, Normal member.2) :
    Normal (object members) := by
  rw [object, Normal]
  exact ⟨sorted_storeMembers members,
    normalMembers_iff.mpr fun member hm => h member (mem_storeMembers hm)⟩

end Json
