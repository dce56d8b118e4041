import MiniOcs.Json.Value

/-!
# Reading values

The accessors of a JSON library that throws: `at`, `value`, `get` and the loop over the elements.
An exception is its text.
-/
namespace Json

def typeName : Json → String
  | .null => "null"
  | .bool _ => "boolean"
  | .int _ => "number"
  | .real _ => "number"
  | .str _ => "string"
  | .arr _ => "array"
  | .obj _ => "object"

def typeError (expected : String) (v : Json) : String :=
  "[json.exception.type_error.302] type must be " ++ expected ++ ", but is " ++ v.typeName

def atKey (v : Json) (key : String) : Except String Json :=
  match v with
  | .obj members => match members.lookup key with
      | some x => .ok x
      | none => .error ("[json.exception.out_of_range.403] key '" ++ key ++ "' not found")
  | v => .error ("[json.exception.type_error.304] cannot use at() with " ++ v.typeName)

def getString : Json → Except String String
  | .str s => .ok s
  | v => .error (typeError "string" v)

def getBool : Json → Except String Bool
  | .bool b => .ok b
  | v => .error (typeError "boolean" v)

def getDouble : Json → Except String Rat
  | .int n => .ok n
  | .real q => .ok q
  | v => .error (typeError "number" v)

/-- `static_cast` of a number to an integer type that holds it. A cast that drops a fraction goes
toward zero. -/
def getNumber : Json → Except String Int
  | .int n => .ok n
  | .real q => .ok (q.num.tdiv q.den)
  | v => .error (typeError "number" v)

def getUInt64 (v : Json) : Except String Nat :=
  v.getNumber.map fun n => (n % 18446744073709551616).toNat

def getInt64 (v : Json) : Except String Int :=
  v.getNumber.map fun n => Int.bmod n 18446744073709551616

/-- The narrower integers also read a boolean. -/
def getUInt16 : Json → Except String Nat
  | .bool b => .ok b.toNat
  | v => v.getNumber.map fun n => (n % 65536).toNat

/-- The member under a key, or the default. -/
def valueOr (v : Json) (key default : String) : Except String String :=
  match v with
  | .obj members => match members.lookup key with
      | some x => x.getString
      | none => .ok default
  | v => .error ("[json.exception.type_error.306] cannot use value() with " ++ v.typeName)

/-- What a loop over a value runs through. -/
def elements : Json → List Json
  | .null => []
  | .arr items => items
  | .obj members => members.map Prod.snd
  | v => [v]

/-! ## Values that were written -/

@[simp] theorem ok_bind {ε α β : Type} (a : α) (f : α → Except ε β) : (Except.ok a >>= f) = f a := rfl

@[simp] theorem map_ok {ε α β : Type} (f : α → β) (a : α) :
    f <$> (Except.ok a : Except ε α) = .ok (f a) := rfl

@[simp] theorem pure_ok {ε α : Type} (a : α) : (pure a : Except ε α) = .ok a := rfl

/-- The members of an object are read in the order they were given. -/
@[simp] theorem atKey_object {members : List (String × Json)}
    (hnodup : (members.map Prod.fst).Nodup) (key : String) :
    (object members).atKey key = (obj members).atKey key := by
  simp only [object, atKey, lookup_storeMembers hnodup]

@[simp] theorem valueOr_object {members : List (String × Json)}
    (hnodup : (members.map Prod.fst).Nodup) (key default : String) :
    (object members).valueOr key default = (obj members).valueOr key default := by
  simp only [object, valueOr, lookup_storeMembers hnodup]

@[simp] theorem atKey_head (key : String) (x : Json) (rest : List (String × Json)) :
    (obj ((key, x) :: rest)).atKey key = .ok x := by
  simp [atKey]

@[simp] theorem atKey_tail {k key : String} (h : key ≠ k) (x : Json)
    (rest : List (String × Json)) :
    (obj ((k, x) :: rest)).atKey key = (obj rest).atKey key := by
  have hne : (key == k) = false := by simpa using h
  simp [atKey, List.lookup_cons, hne]

@[simp] theorem valueOr_head (key default : String) (x : Json) (rest : List (String × Json)) :
    (obj ((key, x) :: rest)).valueOr key default = x.getString := by
  simp [valueOr]

@[simp] theorem valueOr_tail {k key : String} (h : key ≠ k) (default : String) (x : Json)
    (rest : List (String × Json)) :
    (obj ((k, x) :: rest)).valueOr key default = (obj rest).valueOr key default := by
  have hne : (key == k) = false := by simpa using h
  simp [valueOr, List.lookup_cons, hne]

@[simp] theorem valueOr_nil (key default : String) : (obj []).valueOr key default = .ok default := rfl

@[simp] theorem getString_str (s : String) : getString (.str s) = .ok s := rfl

@[simp] theorem getBool_bool (b : Bool) : getBool (.bool b) = .ok b := rfl

@[simp] theorem elements_arr (items : List Json) : elements (.arr items) = items := rfl

theorem getUInt64_nat {n : Nat} (h : n < 18446744073709551616) : getUInt64 (.int n) = .ok n := by
  show Except.ok ((n : Int) % 18446744073709551616).toNat = _
  congr 1
  omega

theorem getUInt16_nat {n : Nat} (h : n < 65536) : getUInt16 (.int n) = .ok n := by
  show Except.ok ((n : Int) % 65536).toNat = _
  congr 1
  omega

theorem getInt64_int {n : Int} (hlow : -9223372036854775808 ≤ n) (hhigh : n < 9223372036854775808) :
    getInt64 (.int n) = .ok n := by
  show Except.ok _ = _
  congr 1
  exact Int.bmod_eq_of_le (by omega) (by omega)

/-- Reading each of a list of written elements gives what each of them stands for. -/
theorem mapM_map_ok {ε α β : Type} {write : α → Json} {read : Json → Except ε β} {g : α → β}
    {xs : List α} (h : ∀ x ∈ xs, read (write x) = .ok (g x)) :
    (xs.map write).mapM read = .ok (xs.map g) := by
  induction xs with
  | nil => rfl
  | cons x xs ih =>
      rw [List.map_cons, List.mapM_cons, h x (by simp), ih fun y hy => h y (by simp [hy])]
      rfl

/-! ## Numbers that were read -/

/-- The number that a value writes. -/
def number? : Json → Option Rat
  | .int n => some (n : Rat)
  | .real q => some q
  | _ => none

def Writes (v : Json) (n : Nat) : Prop := v.number? = some (n : Rat)

/-- The value writes an integer of the type with `bound` values. -/
def Fits (bound : Nat) (v : Json) : Prop := ∃ n < bound, v.Writes n

/-- The number that an integer type reads is the written one if and only if it fits. -/
theorem writes_iff_fits {v : Json} {bound n : Nat} (hbound : 0 < bound) {m : Int}
    (hread : v.getNumber = .ok m) (hn : (m % bound).toNat = n) : v.Writes n ↔ v.Fits bound := by
  have hlt : n < bound := by
    have hpos := Int.emod_nonneg m (show (bound : Int) ≠ 0 by omega)
    have hlt := Int.emod_lt_of_pos m (show (0 : Int) < bound by omega)
    omega
  constructor
  · exact fun h => ⟨n, hlt, h⟩
  · rintro ⟨k, hk, hwrites⟩
    have hm : m = k := by
      cases v with
      | int i =>
          cases hread
          exact Rat.intCast_inj.mp (Option.some.inj hwrites)
      | real q =>
          cases hread
          cases Option.some.inj hwrites
          simp
      | _ => cases hread
    have hkn : k = n := by
      rw [← hn, hm, Int.emod_eq_of_lt (by omega) (by omega)]
      omega
    rwa [← hkn]

theorem getUInt64_writes {v : Json} {n : Nat} (h : v.getUInt64 = .ok n) :
    v.Writes n ↔ v.Fits 18446744073709551616 := by
  unfold getUInt64 at h
  cases hread : v.getNumber with
  | error e => rw [hread] at h; cases h
  | ok m =>
      rw [hread] at h
      cases h
      exact writes_iff_fits (by decide) hread rfl

theorem getUInt16_writes {v : Json} {n : Nat} (h : v.getUInt16 = .ok n) :
    v.Writes n ↔ v.Fits 65536 := by
  cases v with
  | bool b =>
      constructor
      · exact nofun
      · rintro ⟨k, -, hk⟩
        cases hk
  | int i =>
      cases h
      exact writes_iff_fits (by decide) rfl rfl
  | real q =>
      cases h
      exact writes_iff_fits (by decide) rfl rfl
  | _ => cases h

/-- The member under a key writes a number. -/
def HasNumber (v : Json) (key : String) (n : Nat) : Prop := ∃ x, v.atKey key = .ok x ∧ x.Writes n

def FieldFits (bound : Nat) (v : Json) (key : String) : Prop :=
  ∃ x, v.atKey key = .ok x ∧ x.Fits bound

theorem bind_eq_ok {ε α β : Type} {x : Except ε α} {f : α → Except ε β} {b : β} :
    (x >>= f) = .ok b ↔ ∃ a, x = .ok a ∧ f a = .ok b := by
  cases x with
  | error e => exact ⟨nofun, fun ⟨_, h, _⟩ => nomatch h⟩
  | ok a => exact ⟨fun h => ⟨a, rfl, h⟩, fun ⟨_, h, hf⟩ => by cases h; exact hf⟩

theorem hasNumber_iff_fieldFits {v x : Json} {key : String} {bound n : Nat}
    (hx : v.atKey key = .ok x) (h : x.Writes n ↔ x.Fits bound) :
    v.HasNumber key n ↔ v.FieldFits bound key := by
  simp only [HasNumber, FieldFits, hx, Except.ok.injEq, exists_eq_left', h]

/-- Elements that are read one by one. -/
theorem forall₂_of_mapM {ε α β : Type} {read : α → Except ε β} {xs : List α} {ys : List β}
    (h : xs.mapM read = .ok ys) : List.Forall₂ (fun x y => read x = .ok y) xs ys := by
  induction xs generalizing ys with
  | nil =>
      cases h
      exact .nil
  | cons x xs ih =>
      rw [List.mapM_cons] at h
      obtain ⟨y, hy, h⟩ := bind_eq_ok.mp h
      obtain ⟨rest, hrest, h⟩ := bind_eq_ok.mp h
      cases h
      exact .cons hy (ih hrest)

theorem getUInt64_lt {v : Json} {n : Nat} (h : v.getUInt64 = .ok n) : n < 18446744073709551616 := by
  unfold getUInt64 at h
  cases hread : v.getNumber with
  | error e => rw [hread] at h; cases h
  | ok m =>
      rw [hread] at h
      cases h
      have hlt := Int.emod_lt_of_pos m (show (0 : Int) < 18446744073709551616 by decide)
      dsimp only
      omega

theorem getUInt16_lt {v : Json} {n : Nat} (h : v.getUInt16 = .ok n) : n < 65536 := by
  have hcast : ∀ m : Int, (m % 65536).toNat < 65536 := by
    intro m
    have hlt := Int.emod_lt_of_pos m (show (0 : Int) < 65536 by decide)
    omega
  cases v with
  | bool b =>
      cases h
      cases b <;> decide
  | int i =>
      cases h
      exact hcast i
  | real q =>
      cases h
      exact hcast _
  | _ => cases h

theorem getInt64_lt {v : Json} {n : Int} (h : v.getInt64 = .ok n) : n < 9223372036854775808 := by
  unfold getInt64 at h
  cases hread : v.getNumber with
  | error e => rw [hread] at h; cases h
  | ok m =>
      rw [hread] at h
      cases h
      exact Int.bmod_lt (by decide)

end Json
