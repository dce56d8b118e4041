import Mathlib.Data.List.Induction
import Mathlib.Tactic.Common

/-!
# Journals

A list of entries, each about at most one key. The last entry about a key gives its value: a table
that is written together with its journal can be read off the journal alone.
-/
namespace Concurrent

variable {Entry Key Value : Type} [DecidableEq Key]

section

variable (about : Entry → Option Key) (gives : Entry → Option Value)

/-- What a journal says of a key once an entry is added to it. -/
def amend (key : Key) (value : Option Value) (entry : Entry) : Option Value :=
  if about entry = some key then gives entry else value

/-- What a journal says last of a key. -/
def lastSaid (journal : List Entry) (key : Key) : Option Value :=
  journal.foldl (amend about gives key) none

end

variable {about : Entry → Option Key} {gives : Entry → Option Value} {journal extra : List Entry}
  {entry : Entry} {key : Key}

@[simp] theorem lastSaid_nil : lastSaid about gives [] key = none := rfl

theorem lastSaid_concat : lastSaid about gives (journal ++ [entry]) key =
    if about entry = some key then gives entry else lastSaid about gives journal key := by
  simp [lastSaid, List.foldl_append, amend]

theorem lastSaid_concat_self (h : about entry = some key) :
    lastSaid about gives (journal ++ [entry]) key = gives entry := by
  rw [lastSaid_concat, if_pos h]

theorem lastSaid_concat_other (h : about entry ≠ some key) :
    lastSaid about gives (journal ++ [entry]) key = lastSaid about gives journal key := by
  rw [lastSaid_concat, if_neg h]

/-- A value that the journal gives was written by one of its entries. -/
theorem mem_of_lastSaid {value : Value} (h : lastSaid about gives journal key = some value) :
    ∃ entry ∈ journal, about entry = some key ∧ gives entry = some value := by
  induction journal using List.reverseRecOn with
  | nil => cases h
  | append_singleton rest entry ih =>
      rw [lastSaid_concat] at h
      split_ifs at h with habout
      · exact ⟨entry, by simp, habout, h⟩
      · obtain ⟨found, hmem, hfound⟩ := ih h
        exact ⟨found, by simp [hmem], hfound⟩

end Concurrent
