import Mathlib

/-!
# Optimistic transactions

The hashes and streams of one Redis database, the commands that a transaction queues, and
`WATCH`: a transaction is executed as a whole, and only if no watched key was written since it
was watched. Hashes and streams have different names, and a hash without fields does not exist.
-/
namespace MiniOcs.Redis
open Std

abbrev Fields := ExtTreeMap String String

structure Db where
  hash : String → Fields := fun _ => ∅
  stream : String → List (List (String × String)) := fun _ => []

namespace Db

def setHash (db : Db) (key : String) (fields : Fields) : Db :=
  { db with hash := Function.update db.hash key fields }

/-- `EXISTS`. -/
def has (db : Db) (key : String) : Bool := !(db.hash key).isEmpty

theorem setHash_hash_self (db : Db) (key : String) (fields : Fields) :
    (db.setHash key fields).hash key = fields := by
  simp [setHash]

theorem setHash_hash_of_ne (db : Db) {key key' : String} (fields : Fields) (h : key' ≠ key) :
    (db.setHash key fields).hash key' = db.hash key' := by
  simp [setHash, Function.update_of_ne h]

end Db

/-! ## Numbers in hashes -/

def int64Range (n : Int) : Bool := decide (-2 ^ 63 ≤ n) && decide (n < 2 ^ 63)

/-- The texts that Redis takes for integers: no sign but a minus, no leading zeros. -/
def integerText (text : String) : Option Int :=
  text.toInt?.filter fun n => toString n = text && int64Range n

/-- The new text of a field after `HINCRBY`; `none` where the command fails. -/
def incremented (field : Option String) (increment : Int) : Option String := do
  let value ← match field with
    | none => some 0
    | some text => integerText text
  if int64Range (value + increment) then some (toString (value + increment)) else none

/-- The digits that a number starts with. -/
def leadingDigits (text : List Char) : Option Nat :=
  let digits := text.takeWhile Char.isDigit
  if digits = [] then none
  else some (digits.foldl (fun value digit => value * 10 + (digit.toNat - 48)) 0)

/-- `isspace` of the C locale. -/
def isSpace (c : Char) : Bool := c == ' ' || (decide (9 ≤ c.toNat) && decide (c.toNat ≤ 13))

/-- Sign and magnitude of what `std::stoull` and `std::stoll` read: white space, a sign, digits,
and anything behind them. -/
def signedPrefix (text : String) : Option (Bool × Nat) :=
  match text.toList.dropWhile isSpace with
  | '-' :: rest => (leadingDigits rest).map fun value => (true, value)
  | '+' :: rest => (leadingDigits rest).map fun value => (false, value)
  | rest => (leadingDigits rest).map fun value => (false, value)

/-- `std::stoull`: a minus wraps around. `none` where it throws. -/
def stoull (text : String) : Option Nat := do
  let (negative, value) ← signedPrefix text
  if 2 ^ 64 ≤ value then none
  else some (if negative then (2 ^ 64 - value) % 2 ^ 64 else value)

/-- `std::stoll`. -/
def stoll (text : String) : Option Int := do
  let (negative, value) ← signedPrefix text
  let signed : Int := if negative then -value else value
  if int64Range signed then some signed else none

/-! ## Commands -/

inductive Command where
  | del (key : String)
  | hmset (key : String) (fields : Fields)
  | hincrby (key : String) (field : String) (increment : Int)
  | xadd (stream : String) (fields : List (String × String))

namespace Command

def run (db : Db) : Command → Db
  | .del key => db.setHash key ∅
  | .hmset key fields => db.setHash key (db.hash key ∪ fields)
  | .hincrby key field increment =>
      match incremented (db.hash key)[field]? increment with
      | some value => db.setHash key ((db.hash key).insert field value)
      | none => db
  | .xadd stream fields =>
      { db with stream := Function.update db.stream stream (db.stream stream ++ [fields]) }

/-- The command writes the key. -/
def touches (db : Db) (key : String) : Command → Bool
  | .del key' => decide (key' = key) && db.has key'
  | .hmset key' _ => decide (key' = key)
  | .hincrby key' field increment => decide (key' = key) &&
      (incremented (db.hash key')[field]? increment).isSome
  | .xadd _ _ => false

/-- The hash that a command names. -/
def key? : Command → Option String
  | .del key => some key
  | .hmset key _ => some key
  | .hincrby key _ _ => some key
  | .xadd _ _ => none

theorem run_hash_of_not_touches {db : Db} {key : String} {c : Command}
    (h : c.touches db key = false) : (c.run db).hash key = db.hash key := by
  cases c with
  | del key' =>
      by_cases heq : key' = key
      · subst heq
        have hempty : db.hash key' = ∅ := by simpa [touches, Db.has] using h
        rw [run, Db.setHash_hash_self, hempty]
      · exact Db.setHash_hash_of_ne _ _ (Ne.symm heq)
  | hmset key' fields =>
      have heq : key' ≠ key := by simpa [touches] using h
      exact Db.setHash_hash_of_ne _ _ heq.symm
  | hincrby key' field increment =>
      simp only [run]
      split
      · rename_i value hvalue
        have heq : key' ≠ key := by simpa [touches, hvalue] using h
        exact Db.setHash_hash_of_ne _ _ heq.symm
      · rfl
  | xadd stream fields => rfl

theorem touches_of_key?_ne {db : Db} {key : String} {c : Command} (h : c.key? ≠ some key) :
    c.touches db key = false := by
  cases c with
  | del key' => simp_all [touches, key?]
  | hmset key' fields => simp_all [touches, key?]
  | hincrby key' field increment => simp_all [touches, key?]
  | xadd stream fields => rfl

theorem run_hash_of_key?_ne {db : Db} {key : String} {c : Command} (h : c.key? ≠ some key) :
    (c.run db).hash key = db.hash key :=
  run_hash_of_not_touches (touches_of_key?_ne h)

end Command

/-- A whole queue, in order. -/
def Db.runAll (db : Db) (queue : List Command) : Db := queue.foldl Command.run db

/-! ## Watched keys -/

/-- `stamps` counts the writes to each key, and `watched` holds the stamps that a client saw at
its `WATCH`. -/
structure Server (ι : Type) where
  db : Db := {}
  stamps : String → Nat := fun _ => 0
  watched : ι → List (String × Nat) := fun _ => []

namespace Server

variable {ι : Type}

def setWatched [DecidableEq ι] (s : Server ι) (i : ι) (keys : List (String × Nat)) : Server ι :=
  { s with watched := Function.update s.watched i keys }

def watch [DecidableEq ι] (s : Server ι) (i : ι) (key : String) : Server ι :=
  s.setWatched i (s.watched i ++ [(key, s.stamps key)])

/-- No watched key was written since its `WATCH`. -/
def clean (s : Server ι) (i : ι) : Bool :=
  (s.watched i).all fun entry => decide (s.stamps entry.1 = entry.2)

def execute (s : Server ι) (c : Command) : Server ι where
  db := c.run s.db
  stamps key := if c.touches s.db key then s.stamps key + 1 else s.stamps key
  watched := s.watched

def executeAll (s : Server ι) (queue : List Command) : Server ι := queue.foldl execute s

/-- A later server: stamps grow, and a hash whose stamp stands is the same. -/
structure Later (s t : Server ι) : Prop where
  stamps : ∀ key, s.stamps key ≤ t.stamps key
  same : ∀ key, t.stamps key = s.stamps key → t.db.hash key = s.db.hash key

theorem Later.refl (s : Server ι) : Later s s := ⟨fun _ => Nat.le_refl _, fun _ _ => rfl⟩

theorem Later.trans {a b c : Server ι} (h₁ : Later a b) (h₂ : Later b c) : Later a c where
  stamps key := Nat.le_trans (h₁.stamps key) (h₂.stamps key)
  same key h := by
    have hle := h₁.stamps key
    have hle' := h₂.stamps key
    rw [h₂.same key (by omega), h₁.same key (by omega)]

theorem later_execute (s : Server ι) (c : Command) : Later s (s.execute c) where
  stamps key := by
    simp only [execute]
    split_ifs <;> omega
  same key h := by
    refine Command.run_hash_of_not_touches ?_
    by_contra htouch
    simp only [execute, Bool.not_eq_false] at h htouch
    rw [htouch] at h
    simp at h

theorem later_executeAll (s : Server ι) (queue : List Command) : Later s (s.executeAll queue) := by
  induction queue generalizing s with
  | nil => exact Later.refl s
  | cons c rest ih => exact (later_execute s c).trans (ih (s.execute c))

@[simp] theorem executeAll_db (s : Server ι) (queue : List Command) :
    (s.executeAll queue).db = s.db.runAll queue := by
  induction queue generalizing s with
  | nil => rfl
  | cons c rest ih => exact ih (s.execute c)

@[simp] theorem executeAll_watched (s : Server ι) (queue : List Command) :
    (s.executeAll queue).watched = s.watched := by
  induction queue generalizing s with
  | nil => rfl
  | cons c rest ih => exact ih (s.execute c)

/-! ### What a watched key promises -/

/-- The client watches the keys since some moment before this one. -/
def Watching (s : Server ι) (i : ι) (keys : List String) : Prop :=
  ∀ key ∈ keys, ∃ stamp, (key, stamp) ∈ s.watched i ∧ stamp ≤ s.stamps key

/-- If the transaction of the client is executed, then at a database with the property. -/
def Held (s : Server ι) (i : ι) (P : Db → Prop) : Prop :=
  ∀ t : Server ι, Later s t → t.watched i = s.watched i → t.clean i = true → P t.db

theorem Watching.later {s t : Server ι} {i : ι} {keys : List String} (h : s.Watching i keys)
    (hst : Later s t) (hw : t.watched i = s.watched i) : t.Watching i keys := by
  intro key hkey
  obtain ⟨stamp, hmem, hle⟩ := h key hkey
  exact ⟨stamp, by rw [hw]; exact hmem, Nat.le_trans hle (hst.stamps key)⟩

theorem Held.later {s t : Server ι} {i : ι} {P : Db → Prop} (h : s.Held i P) (hst : Later s t)
    (hw : t.watched i = s.watched i) : t.Held i P :=
  fun u hu hwu hclean => h u (hst.trans hu) (hwu.trans hw) hclean

theorem Held.imp {s : Server ι} {i : ι} {P Q : Db → Prop} (h : s.Held i P) (himp : ∀ db, P db → Q db) :
    s.Held i Q :=
  fun t ht hw hclean => himp _ (h t ht hw hclean)

theorem Held.and {s : Server ι} {i : ι} {P Q : Db → Prop} (hP : s.Held i P) (hQ : s.Held i Q) :
    s.Held i fun db => P db ∧ Q db :=
  fun t ht hw hclean => ⟨hP t ht hw hclean, hQ t ht hw hclean⟩

/-- What is read from a watched key still holds when the transaction is executed. -/
theorem Watching.held {s : Server ι} {i : ι} {keys : List String} (h : s.Watching i keys)
    {key : String} (hkey : key ∈ keys) : s.Held i fun db => db.hash key = s.db.hash key := by
  intro t hst hw hclean
  obtain ⟨stamp, hmem, hle⟩ := h key hkey
  have hstamp : t.stamps key = stamp := by
    have hall := List.all_eq_true.mp hclean (key, stamp) (by rw [hw]; exact hmem)
    simpa using hall
  have hmono := hst.stamps key
  exact hst.same key (by omega)

end Server

end MiniOcs.Redis
