import Mathlib.Data.List.Induction
import Mathlib.Data.Nat.Bitwise
import Mathlib.Tactic.Ring

/-!
# Big-endian numbers

A number of `n` bytes, most significant byte first, and its value.
-/
namespace BigEndian

/-- The value of a byte string. -/
def value (bytes : List (BitVec 8)) : Nat := bytes.foldl (fun acc byte => acc * 256 + byte.toNat) 0

/-- The last `n` bytes of a number. -/
def bytes : Nat → Nat → List (BitVec 8)
  | 0, _ => []
  | n + 1, v => BitVec.ofNat 8 (v / 256 ^ n) :: bytes n v

@[simp] theorem length_bytes (n v : Nat) : (bytes n v).length = n := by
  induction n with
  | zero => rfl
  | succ n ih => rw [bytes, List.length_cons, ih]

theorem value_concat (bs : List (BitVec 8)) (b : BitVec 8) :
    value (bs ++ [b]) = value bs * 256 + b.toNat := by
  simp only [value, List.foldl_append, List.foldl_cons, List.foldl_nil]

theorem value_cons (b : BitVec 8) (bs : List (BitVec 8)) :
    value (b :: bs) = b.toNat * 256 ^ bs.length + value bs := by
  induction bs using List.reverseRecOn with
  | nil => simp [value]
  | append_singleton bs last ih =>
      rw [← List.cons_append, value_concat, value_concat, ih, List.length_append,
        List.length_singleton]
      ring

theorem value_lt (bs : List (BitVec 8)) : value bs < 256 ^ bs.length := by
  induction bs with
  | nil => simp [value]
  | cons b bs ih =>
      have hb : b.toNat < 256 := b.isLt
      have hmul : (b.toNat + 1) * 256 ^ bs.length ≤ 256 * 256 ^ bs.length :=
        Nat.mul_le_mul_right _ hb
      rw [value_cons, List.length_cons, Nat.pow_succ']
      rw [Nat.add_mul, Nat.one_mul] at hmul
      omega

theorem value_bytes (n v : Nat) : value (bytes n v) = v % 256 ^ n := by
  induction n with
  | zero => simp [bytes, value, Nat.mod_one]
  | succ n ih =>
      have hdigit : (BitVec.ofNat 8 (v / 256 ^ n)).toNat = v / 256 ^ n % 256 := by
        rw [BitVec.toNat_ofNat]
      rw [bytes, value_cons, length_bytes, ih, hdigit, Nat.pow_succ, Nat.mod_mul]
      ring

theorem value_bytes_of_lt {n v : Nat} (h : v < 256 ^ n) : value (bytes n v) = v := by
  rw [value_bytes, Nat.mod_eq_of_lt h]

theorem bytes_add_mul (n v k : Nat) : bytes n (k * 256 ^ n + v) = bytes n v := by
  induction n generalizing k with
  | zero => rfl
  | succ n ih =>
      have hpow : k * 256 ^ (n + 1) + v = (k * 256) * 256 ^ n + v := by
        rw [Nat.pow_succ']
        ring
      rw [bytes, bytes, hpow, ih]
      congr 1
      apply BitVec.eq_of_toNat_eq
      rw [BitVec.toNat_ofNat, BitVec.toNat_ofNat, Nat.mul_comm, Nat.add_comm,
        Nat.add_mul_div_left _ _ (Nat.pow_pos (by decide))]
      exact Nat.add_mul_mod_self_right ..

theorem bytes_value (bs : List (BitVec 8)) : bytes bs.length (value bs) = bs := by
  induction bs with
  | nil => rfl
  | cons b bs ih =>
      have hdiv : (b.toNat * 256 ^ bs.length + value bs) / 256 ^ bs.length = b.toNat := by
        rw [Nat.mul_comm, Nat.add_comm, Nat.add_mul_div_left _ _ (Nat.pow_pos (by decide)),
          Nat.div_eq_of_lt (value_lt bs), Nat.zero_add]
      rw [value_cons, List.length_cons, bytes, bytes_add_mul, ih, hdiv, BitVec.ofNat_toNat,
        BitVec.setWidth_eq]

end BigEndian
