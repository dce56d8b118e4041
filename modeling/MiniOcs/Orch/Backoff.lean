import Mathlib.Tactic.Ring
import MiniOcs.Orch.Service

/-!
# The delay of a retry

`retryAtNs` in the arithmetic of its types: signed 64-bit milliseconds, unsigned 64-bit
nanoseconds. No policy that the constructor accepts makes it overflow. The loop compares the delay
with half of the cap before it doubles, and an odd cap has no integer half.
-/
namespace MiniOcs.Orch

/-- A retry policy as it is configured. -/
structure RetrySettings where
  maxRetries : Nat
  baseBackoff : Int
  maxBackoff : Int
  deriving DecidableEq, Repr

/-- The checks of the constructor. -/
def RetrySettings.accepted (settings : RetrySettings) : Bool :=
  !(decide (100 < settings.maxRetries) || decide (settings.baseBackoff < 0) ||
    decide (settings.maxBackoff < settings.baseBackoff) ||
    decide (3600000 < settings.maxBackoff))

/-- The policy that a service runs with. -/
def RetrySettings.policy (settings : RetrySettings) : ApplyRetryPolicy where
  maxRetries := settings.maxRetries
  baseBackoffMs := settings.baseBackoff.toNat
  maxBackoffMs := settings.maxBackoff.toNat

/-- Signed 64-bit arithmetic: an overflow has no result. -/
def int64 (n : Int) : Option Int :=
  if -9223372036854775808 ≤ n ∧ n ≤ 9223372036854775807 then some n else none

/-- The doubling loop. -/
def doubleDelay (maxBackoff : Int) : Nat → Int → Option Int
  | 0, delay => some delay
  | rounds + 1, delay =>
      if delay = 0 then some delay
      else if maxBackoff.tdiv 2 ≤ delay then some maxBackoff
      else (int64 (delay * 2)).bind (doubleDelay maxBackoff rounds)

/-- The conversion, the product and the sum are unsigned, and wrap. -/
def retryAtNs64 (nowNs retryAttempt : Nat) (settings : RetrySettings) : Option Nat :=
  (doubleDelay settings.maxBackoff (retryAttempt - 1) settings.baseBackoff).map fun delay =>
    let count := (min delay settings.maxBackoff % 18446744073709551616).toNat
    (nowNs + count * 1000000 % 18446744073709551616) % 18446744073709551616

theorem RetrySettings.accepted_iff {settings : RetrySettings} : settings.accepted = true ↔
    settings.maxRetries ≤ 100 ∧ 0 ≤ settings.baseBackoff ∧
      settings.baseBackoff ≤ settings.maxBackoff ∧ settings.maxBackoff ≤ 3600000 := by
  unfold RetrySettings.accepted
  simp only [Bool.not_eq_true', Bool.or_eq_false_iff, decide_eq_false_iff_not]
  omega

/-! ## No overflow -/

/-- Below the cap the machine loop is the loop over natural numbers. -/
theorem doubleDelay_eq {policy : ApplyRetryPolicy} (hmax : policy.maxBackoffMs ≤ 3600000)
    (rounds : Nat) {delay : Nat} (hdelay : delay ≤ policy.maxBackoffMs) :
    doubleDelay policy.maxBackoffMs rounds delay = some (backoff policy rounds delay : Int) := by
  induction rounds generalizing delay with
  | zero => rfl
  | succ rounds ih =>
      have hhalf : (policy.maxBackoffMs : Int).tdiv 2 = (policy.maxBackoffMs / 2 : Nat) := by
        rw [Int.tdiv_eq_ediv_of_nonneg (Int.natCast_nonneg _)]
        rfl
      unfold doubleDelay backoff
      rw [hhalf]
      by_cases hzero : delay = 0
      · simp [hzero]
      by_cases hcap : policy.maxBackoffMs / 2 ≤ delay
      · rw [if_neg (by omega), if_pos (by omega), if_neg hzero, if_pos hcap]
      · have hfits : int64 ((delay : Int) * 2) = some ((delay * 2 : Nat) : Int) := by
          unfold int64
          rw [if_pos (by omega)]
          rfl
        rw [if_neg (by omega), if_neg (by omega), if_neg hzero, if_neg hcap, hfits]
        exact ih (by omega)

theorem backoff_le {policy : ApplyRetryPolicy} (rounds : Nat) {delay : Nat}
    (hdelay : delay ≤ policy.maxBackoffMs) : backoff policy rounds delay ≤ policy.maxBackoffMs := by
  induction rounds generalizing delay with
  | zero => exact hdelay
  | succ rounds ih =>
      unfold backoff
      split_ifs
      · exact hdelay
      · exact Nat.le_refl _
      · exact ih (by omega)

/-- The service computes with natural numbers what the code computes with machine words. -/
theorem retryAtNs64_eq {settings : RetrySettings} (h : settings.accepted = true) {nowNs : Nat}
    (hnow : nowNs ≤ 9223372036854775808) (retryAttempt : Nat) :
    retryAtNs64 nowNs retryAttempt settings =
      some (retryAtNs settings.policy nowNs retryAttempt) := by
  obtain ⟨-, hbase, hle, hmax⟩ := RetrySettings.accepted_iff.mp h
  have hpolicy : settings.policy.maxBackoffMs ≤ 3600000 := by
    simp only [RetrySettings.policy]
    omega
  have hdelay : settings.policy.baseBackoffMs ≤ settings.policy.maxBackoffMs := by
    simp only [RetrySettings.policy]
    omega
  have hloop := doubleDelay_eq hpolicy (retryAttempt - 1) hdelay
  have hcast : (settings.policy.maxBackoffMs : Int) = settings.maxBackoff ∧
      (settings.policy.baseBackoffMs : Int) = settings.baseBackoff := by
    simp only [RetrySettings.policy]
    omega
  rw [hcast.1, hcast.2] at hloop
  unfold retryAtNs64 retryAtNs
  rw [hloop, ← hcast.1]
  have hbound := backoff_le (retryAttempt - 1) hdelay
  generalize backoff settings.policy (retryAttempt - 1) settings.policy.baseBackoffMs = delay at *
  generalize settings.policy.maxBackoffMs = cap at *
  simp only [Option.map_some, Option.some.injEq]
  omega

/-! ## Rounding -/

/-- An odd cap that the doubled delay would stay one millisecond below. -/
def RoundedUp (base cap rounds : Nat) : Prop := 0 < rounds ∧ 0 < base ∧ base * 2 ^ rounds + 1 = cap

instance (base cap rounds : Nat) : Decidable (RoundedUp base cap rounds) :=
  inferInstanceAs (Decidable (_ ∧ _))

/-- What the loop comes to: the capped double, but for the rounding of the half of the cap. -/
theorem min_backoff {policy : ApplyRetryPolicy} (rounds : Nat) {delay : Nat}
    (hdelay : delay ≤ policy.maxBackoffMs) :
    min (backoff policy rounds delay) policy.maxBackoffMs =
      if RoundedUp delay policy.maxBackoffMs rounds then policy.maxBackoffMs
      else min (delay * 2 ^ rounds) policy.maxBackoffMs := by
  induction rounds generalizing delay with
  | zero =>
      rw [if_neg fun hround => absurd hround.1 (Nat.lt_irrefl 0)]
      simp [backoff]
  | succ rounds ih =>
      have hpow : delay * 2 ^ (rounds + 1) = delay * 2 * 2 ^ rounds := by
        rw [Nat.pow_succ, Nat.mul_assoc, Nat.mul_comm 2]
      have hone : 1 ≤ 2 ^ rounds := Nat.one_le_two_pow
      unfold backoff
      by_cases hzero : delay = 0
      · subst hzero
        rw [if_pos rfl, if_neg fun hround => absurd hround.2.1 (Nat.lt_irrefl 0)]
        simp
      by_cases hcap : policy.maxBackoffMs / 2 ≤ delay
      · -- the loop jumps to the cap: the next double reaches it, or is one short of an odd cap
        rw [if_neg hzero, if_pos hcap, Nat.min_self]
        split_ifs with hround
        · rfl
        · have hreach : policy.maxBackoffMs ≤ delay * 2 ^ (rounds + 1) := by
            rw [hpow]
            cases rounds with
            | zero =>
                have hne : delay * 2 + 1 ≠ policy.maxBackoffMs := fun heq =>
                  hround ⟨Nat.zero_lt_one, by omega, by simpa using heq⟩
                simp only [Nat.pow_zero, Nat.mul_one]
                omega
            | succ n =>
                have htwo : 2 ≤ 2 ^ (n + 1) := by
                  rw [Nat.pow_succ]
                  exact Nat.le_mul_of_pos_left 2 (Nat.two_pow_pos n)
                have hmul := Nat.mul_le_mul_left (delay * 2) htwo
                omega
          omega
      · rw [if_neg hzero, if_neg hcap, ih (by omega), ← hpow]
        have hiff : RoundedUp (delay * 2) policy.maxBackoffMs rounds ↔
            RoundedUp delay policy.maxBackoffMs (rounds + 1) := by
          unfold RoundedUp
          rw [← hpow]
          refine ⟨fun h => ⟨by omega, by omega, h.2.2⟩, fun h => ⟨?_, by omega, h.2.2⟩⟩
          rcases Nat.eq_zero_or_pos rounds with rfl | hpos
          · have hodd := h.2.2
            simp only [Nat.zero_add, Nat.pow_one] at hodd
            omega
          · exact hpos
        by_cases hround : RoundedUp (delay * 2) policy.maxBackoffMs rounds
        · rw [if_pos hround, if_pos (hiff.mp hround)]
        · rw [if_neg hround, if_neg fun h => hround (hiff.mpr h)]

/-- One more round does not shorten the delay. -/
theorem backoff_le_succ {policy : ApplyRetryPolicy} (rounds : Nat) {delay : Nat}
    (hdelay : delay ≤ policy.maxBackoffMs) :
    backoff policy rounds delay ≤ backoff policy (rounds + 1) delay := by
  induction rounds generalizing delay with
  | zero =>
      unfold backoff backoff
      split_ifs <;> omega
  | succ rounds ih =>
      rw [backoff, backoff]
      split_ifs
      · exact Nat.le_refl _
      · exact Nat.le_refl _
      · exact ih (by omega)

theorem backoff_mono {policy : ApplyRetryPolicy} {rounds later : Nat} (h : rounds ≤ later)
    {delay : Nat} (hdelay : delay ≤ policy.maxBackoffMs) :
    backoff policy rounds delay ≤ backoff policy later delay := by
  induction h with
  | refl => exact Nat.le_refl _
  | step _ ih => exact Nat.le_trans ih (backoff_le_succ _ hdelay)

/-! ## The contract -/

/-- The capped double of the base, in milliseconds. -/
def cappedDouble (settings : RetrySettings) (retryAttempt : Nat) : Nat :=
  min (settings.baseBackoff.toNat * 2 ^ (retryAttempt - 1)) settings.maxBackoff.toNat

/-- The time of a retry is exactly the capped double away, within 64 bits; later attempts do not
wait less, and none waits longer than the cap. -/
structure ExactBackoff (settings : RetrySettings) (nowNs retryAttempt : Nat) : Prop where
  exact : retryAtNs64 nowNs retryAttempt settings =
    some (nowNs + cappedDouble settings retryAttempt * 1000000)
  fits : nowNs + cappedDouble settings retryAttempt * 1000000 < 18446744073709551616
  nondecreasing : ∀ later, retryAttempt ≤ later → ∀ t ∈ retryAtNs64 nowNs retryAttempt settings,
    ∀ t' ∈ retryAtNs64 nowNs later settings, t ≤ t'
  bounded : ∀ t ∈ retryAtNs64 nowNs retryAttempt settings,
    t ≤ nowNs + settings.maxBackoff.toNat * 1000000

/-- The delay is exact unless it doubles to one millisecond below an odd cap. -/
theorem backoff_exact_iff {settings : RetrySettings} (h : settings.accepted = true)
    {retryAttempt : Nat} (hattempt : 1 ≤ retryAttempt) {nowNs : Nat}
    (hnow : nowNs ≤ 9223372036854775808) : ExactBackoff settings nowNs retryAttempt ↔
      ¬(2 ≤ retryAttempt ∧ 0 < settings.baseBackoff ∧
        settings.baseBackoff * 2 ^ (retryAttempt - 1) + 1 = settings.maxBackoff) := by
  obtain ⟨-, hbase, hle, hmax⟩ := RetrySettings.accepted_iff.mp h
  have hdelay : settings.policy.baseBackoffMs ≤ settings.policy.maxBackoffMs := by
    simp only [RetrySettings.policy]
    omega
  have hround : (2 ≤ retryAttempt ∧ 0 < settings.baseBackoff ∧
      settings.baseBackoff * 2 ^ (retryAttempt - 1) + 1 = settings.maxBackoff) ↔
        RoundedUp settings.policy.baseBackoffMs settings.policy.maxBackoffMs
          (retryAttempt - 1) := by
    obtain ⟨base, hb⟩ := Int.eq_ofNat_of_zero_le hbase
    obtain ⟨cap, hcap⟩ := Int.eq_ofNat_of_zero_le (Int.le_trans hbase hle)
    simp only [RoundedUp, RetrySettings.policy]
    rw [hb, hcap, Int.toNat_natCast, Int.toNat_natCast]
    refine and_congr (by omega) (and_congr (by omega) ?_)
    norm_cast
  have hvalue : ∀ n, retryAtNs64 nowNs n settings = some (nowNs +
      min (backoff settings.policy (n - 1) settings.policy.baseBackoffMs)
        settings.policy.maxBackoffMs * 1000000) := retryAtNs64_eq h hnow
  have hmin := min_backoff (retryAttempt - 1) hdelay
  have hdouble : cappedDouble settings retryAttempt = min (settings.policy.baseBackoffMs *
      2 ^ (retryAttempt - 1)) settings.policy.maxBackoffMs := rfl
  have hcapped : cappedDouble settings retryAttempt ≤ settings.maxBackoff.toNat :=
    Nat.min_le_right _ _
  rw [hround]
  constructor
  · intro hexact hrounded
    have heq := hexact.exact
    rw [hvalue, hmin, if_pos hrounded, hdouble] at heq
    have hcap : settings.policy.baseBackoffMs * 2 ^ (retryAttempt - 1) + 1 =
        settings.policy.maxBackoffMs := hrounded.2.2
    simp only [Option.some.injEq] at heq
    omega
  · intro hrounded
    have hvalue' : retryAtNs64 nowNs retryAttempt settings =
        some (nowNs + cappedDouble settings retryAttempt * 1000000) := by
      rw [hvalue, hmin, if_neg hrounded, hdouble]
    refine ⟨hvalue', by omega, fun later hlater t ht t' ht' => ?_, fun t ht => ?_⟩
    · rw [hvalue] at ht ht'
      cases ht
      cases ht'
      have hmono := backoff_mono (Nat.sub_le_sub_right hlater 1) hdelay
      omega
    · rw [hvalue'] at ht
      cases ht
      omega

/-- The defaults double 100 ms to 5000 ms. -/
theorem backoff_exact_iff_defaults : ExactBackoff ⟨3, 100, 5000⟩ 0 4 ↔
    ¬(2 ≤ 4 ∧ (0 : Int) < 100 ∧ (100 : Int) * 2 ^ (4 - 1) + 1 = 5000) := by
  have haccepted : RetrySettings.accepted ⟨3, 100, 5000⟩ = true := by decide
  exact backoff_exact_iff haccepted (by decide) (by decide)

/-- From 3 ms with a cap of 7 ms, the second attempt waits 7 ms and not 6. -/
theorem odd_cap_rounded_up : RetrySettings.accepted ⟨3, 3, 7⟩ = true ∧
    cappedDouble ⟨3, 3, 7⟩ 2 = 6 ∧ retryAtNs64 0 2 ⟨3, 3, 7⟩ = some 7000000 ∧
      ¬ExactBackoff ⟨3, 3, 7⟩ 0 2 := by
  refine ⟨by decide, by decide, by decide, fun hexact => ?_⟩
  have heq : retryAtNs64 0 2 ⟨3, 3, 7⟩ = some 6000000 := hexact.exact
  exact absurd heq (by decide)

end MiniOcs.Orch
