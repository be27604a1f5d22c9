import Mathlib.Algebra.Group.Nat.Defs
import StreamSql.Proofs.Client.Attempts

/-!
# Waits between attempts

A wait is doubled from attempt to attempt, up to a limit. The power and the product are each made in
64 bits, where they may not fit, and a delay of nothing is set apart. Main result: `backoff_exact`
says that all of this comes to one formula over the natural numbers.
-/
namespace StreamSql.Client

section Words

theorem twoPower?_eq_some_iff {n : UInt32} {p : UInt64} :
    twoPower? n = some p ↔ p.toNat = 2 ^ n.toNat := by
  have hbound : p.toNat < 2 ^ 64 := p.toNat_lt
  unfold twoPower?
  by_cases h : n < 64
  · have hn : n.toNat < 64 := UInt32.lt_iff_toNat_lt.mp h
    have hsize : n.toNat < UInt64.size := by
      have : UInt64.size = 2 ^ 64 := rfl
      omega
    have hpow : 2 ^ n.toNat < 2 ^ 64 := Nat.pow_lt_pow_right (by decide) hn
    have hshift : (1 <<< UInt64.ofNat n.toNat : UInt64).toNat = 2 ^ n.toNat := by
      rw [UInt64.toNat_shiftLeft, UInt64.toNat_ofNat_of_lt' hsize, Nat.mod_eq_of_lt hn,
        UInt64.toNat_one, Nat.shiftLeft_eq, Nat.one_mul, Nat.mod_eq_of_lt hpow]
    rw [if_pos h, Option.some.injEq, ← UInt64.toNat_inj, hshift, eq_comm]
  · have hn : 64 ≤ n.toNat := by
      rw [UInt32.lt_iff_toNat_lt] at h
      exact Nat.le_of_not_lt h
    have hpow : 2 ^ 64 ≤ 2 ^ n.toNat := Nat.pow_le_pow_right (by decide) hn
    rw [if_neg h]
    constructor
    · intro hnone
      cases hnone
    · intro hp
      omega

theorem product?_eq_some_iff {a b p : UInt64} :
    product? a b = some p ↔ p.toNat = a.toNat * b.toNat := by
  have hbound : p.toNat < UInt64.size := p.toNat_lt_size
  unfold product?
  by_cases h : a.toNat * b.toNat < UInt64.size
  · rw [if_pos h, Option.some.injEq, ← UInt64.toNat_inj, UInt64.toNat_mul, Nat.mod_eq_of_lt h,
      eq_comm]
  · rw [if_neg h]
    constructor
    · intro hnone
      cases hnone
    · intro hp
      omega

/-- A result that is exact wherever there is one is missed only beyond 64 bits. -/
theorem size_le_of_eq_none {result? : Option UInt64} {n : Nat}
    (h : ∀ p, result? = some p ↔ p.toNat = n) (hnone : result? = none) : UInt64.size ≤ n := by
  by_contra hlt
  have hsome : result? = some (UInt64.ofNat n) :=
    (h _).mpr (UInt64.toNat_ofNat_of_lt' (Nat.lt_of_not_le hlt))
  rw [hnone] at hsome
  cases hsome

end Words

section Waits

theorem backoff_toNat (delay : UInt64) (attempt : UInt32) :
    (backoff delay attempt).toNat = min 60000 (delay.toNat * 2 ^ attempt.toNat) := by
  have hlimit : longestDelay.toNat = 60000 := rfl
  have hsize : 60000 ≤ UInt64.size := by decide
  unfold backoff
  by_cases hzero : delay = 0
  · rw [if_pos hzero, hzero, UInt64.toNat_zero, Nat.zero_mul, Nat.min_zero]
  · have hpositive : 1 ≤ delay.toNat := by
      rw [← UInt64.toNat_inj, UInt64.toNat_zero] at hzero
      exact Nat.one_le_iff_ne_zero.mpr hzero
    rw [if_neg hzero]
    cases hpower : twoPower? attempt with
    | none =>
      have hlarge : UInt64.size ≤ 2 ^ attempt.toNat :=
        size_le_of_eq_none (fun _ => twoPower?_eq_some_iff) hpower
      have hproduct : 2 ^ attempt.toNat ≤ delay.toNat * 2 ^ attempt.toNat :=
        Nat.le_mul_of_pos_left _ hpositive
      rw [Option.bind_none, hlimit, Nat.min_eq_left (by omega)]
    | some power =>
      have hexact : power.toNat = 2 ^ attempt.toNat := twoPower?_eq_some_iff.mp hpower
      rw [Option.bind_some, ← hexact]
      cases hproduct : product? delay power with
      | none =>
        have hlarge : UInt64.size ≤ delay.toNat * power.toNat :=
          size_le_of_eq_none (fun _ => product?_eq_some_iff) hproduct
        rw [hlimit, Nat.min_eq_left (by omega)]
      | some wait =>
        have hwait : wait.toNat = delay.toNat * power.toNat := product?_eq_some_iff.mp hproduct
        rw [UInt64.toNat_min, hlimit, hwait, Nat.min_comm]

theorem backoff_le_backoff {delay delay' : UInt64} {attempt attempt' : UInt32}
    (hdelay : delay ≤ delay') (hattempt : attempt ≤ attempt') :
    backoff delay attempt ≤ backoff delay' attempt' := by
  rw [UInt64.le_iff_toNat_le] at hdelay ⊢
  rw [UInt32.le_iff_toNat_le] at hattempt
  have hproduct : delay.toNat * 2 ^ attempt.toNat ≤ delay'.toNat * 2 ^ attempt'.toNat :=
    Nat.mul_le_mul hdelay (Nat.pow_le_pow_right (by decide) hattempt)
  rw [backoff_toNat, backoff_toNat]
  omega

/-- The wait is the delay times a power of two, up to a minute, whatever their sizes. What is made
on the way is exact in 64 bits or known to leave them. So a wait grows with the delay and with the
number of the attempt, and is never longer than a minute. -/
theorem backoff_exact :
    (∀ delay attempt, (backoff delay attempt).toNat =
      min 60000 (delay.toNat * 2 ^ attempt.toNat)) ∧
    (∀ n p, twoPower? n = some p ↔ p.toNat = 2 ^ n.toNat) ∧
    (∀ a b p, product? a b = some p ↔ p.toNat = a.toNat * b.toNat) ∧
    (∀ delay delay' attempt attempt', delay ≤ delay' → attempt ≤ attempt' →
      backoff delay attempt ≤ backoff delay' attempt') ∧
    ∀ delay attempt, backoff delay attempt ≤ longestDelay := by
  refine ⟨backoff_toNat, fun _ _ => twoPower?_eq_some_iff, fun _ _ _ => product?_eq_some_iff,
    fun _ _ _ _ => backoff_le_backoff, fun delay attempt => ?_⟩
  have hlimit : longestDelay.toNat = 60000 := rfl
  rw [UInt64.le_iff_toNat_le, backoff_toNat, hlimit]
  exact Nat.min_le_left _ _

/-- A power that does not fit, with a delay for which it does not matter any more. -/
theorem backoff_exact_beyond :
    (1000 : UInt64) ≤ 1001 ∧ (54 : UInt32) ≤ 64 ∧ backoff 1000 54 ≤ backoff 1001 64 ∧
      twoPower? 64 = none ∧ (backoff 1001 64).toNat = min 60000 (1001 * 2 ^ 64) := by
  obtain ⟨hexact, -, -, hmono, -⟩ := backoff_exact
  exact ⟨by decide, by decide, hmono 1000 1001 54 64 (by decide) (by decide), rfl, hexact 1001 64⟩

/-- The number of an attempt is never too large for its word, so that the waits of an exchange are
doubled one after the other. -/
theorem exchange_waits_doubled (config : Config) (request : Request) (c : Connection) :
    ∃ again ≤ config.maxRetries.toNat,
      ((exchange config request).run c).2.waits.map UInt64.toNat =
        c.waits.map UInt64.toNat ++
          (List.range again).map fun i => min 60000 (config.retryDelay.toNat * 2 ^ i) := by
  obtain ⟨again, ⟨-, hleast⟩, hrun⟩ := attempts_run config request config.maxRetries.toNat 0 c
  have hagain : again ≤ config.maxRetries.toNat := hleast (.inl rfl)
  have hwait : ∀ i ∈ List.range again,
      (delay config i).toNat = min 60000 (config.retryDelay.toNat * 2 ^ i) := by
    intro i hi
    have hi : i < UInt32.size := by
      have := List.mem_range.mp hi
      have := config.maxRetries.toNat_lt_size
      omega
    rw [delay, backoff_toNat, UInt32.toNat_ofNat_of_lt' hi]
  refine ⟨again, hagain, ?_⟩
  rw [exchange, hrun, Connection.waits_afterAttempts, List.map_append, List.map_map]
  exact congrArg _ (List.map_congr_left hwait)

end Waits

end StreamSql.Client
