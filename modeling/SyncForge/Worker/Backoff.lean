import SyncForge.Worker.Process

/-!
# `Worker.Backoff` — the delay before a retry

`ComputeDelay` of `internal/backoff` before the jitter. The doubled base wraps around at 64 bits, and a result
is taken for an overflow only if it is not positive or above the cap: what is left of a product may be a small
positive number, and the delays get shorter.
-/

namespace SyncForge

/-- The delay of `ComputeDelay` before the jitter. -/
def unjittered (failures : Int) (base max : Duration) : Int :=
  let failures := if failures < 1 then 1 else failures
  let base := if base ≤ 0 then 1000000000 else base
  let max := if max ≤ 0 then 60000000000 else max
  let exp := int64 (base * int64 (2 ^ (failures - 1).toNat))
  if exp > max ∨ exp ≤ 0 then max else exp

/-- What the jitter makes of it. -/
theorem computeDelay_eq (failures : Int) (base max : Duration) (jitter : Nat) :
    computeDelay failures base max jitter = (let cap := if max ≤ 0 then 60000000000 else max
     let delay := unjittered failures base max * (7 * 2 ^ 53 + 6 * (jitter % 2 ^ 53 : Nat)) / (10 * 2 ^ 53)
     if delay > cap then cap else delay) := rfl

/-- The doubled base, over the integers. -/
def doubled (failures base : Int) : Int := base * 2 ^ (failures - 1).toNat

/-- The doubled base fits 64 bits, or nothing of it is left, or at least the cap. -/
def Fits (failures base max : Int) : Prop :=
  doubled failures base < 2 ^ 63 ∨ doubled failures base % 2 ^ 64 = 0 ∨ max ≤ doubled failures base % 2 ^ 64

variable {failures failures' base max : Int}

theorem unjittered_eq (hf : 1 ≤ failures) (hbase : 0 < base) (hmax : 0 < max) : unjittered failures base max =
    if int64 (doubled failures base) > max ∨ int64 (doubled failures base) ≤ 0 then max else int64 (doubled failures base) := by
  have hwrap : int64 (base * int64 (2 ^ (failures - 1).toNat)) = int64 (doubled failures base) :=
    Int.mul_bmod_bmod
  simp only [unjittered, if_neg (not_lt.mpr hf), if_neg (not_le.mpr hbase), if_neg (not_le.mpr hmax), hwrap]

theorem int64_cases (n : Int) : (n % 2 ^ 64 < 2 ^ 63 ∧ int64 n = n % 2 ^ 64) ∨
    (2 ^ 63 ≤ n % 2 ^ 64 ∧ int64 n = n % 2 ^ 64 - 2 ^ 64) := by
  unfold int64
  rw [Int.bmod_def]
  norm_num
  omega

theorem doubled_pos (hbase : 0 < base) : 0 < doubled failures base := by
  unfold doubled
  positivity

theorem doubled_mono (hbase : 0 < base) (hle : failures ≤ failures') :
    doubled failures base ≤ doubled failures' base := by
  have hexp : (failures - 1).toNat ≤ (failures' - 1).toNat := by omega
  unfold doubled
  gcongr
  decide

/-- The delay is that of the integers, or what is left of a product that wrapped around. -/
theorem unjittered_cases (hf : 1 ≤ failures) (hbase : 0 < base) (hmax : 0 < max) (h64 : max < 2 ^ 63) :
    (Fits failures base max ∧ unjittered failures base max = min (doubled failures base) max) ∨
      (¬ Fits failures base max ∧ 0 < unjittered failures base max ∧ unjittered failures base max < max ∧ max ≤ doubled failures base) := by
  have hpos : 0 < doubled failures base := doubled_pos hbase
  rw [unjittered_eq hf hbase hmax]
  unfold Fits
  generalize doubled failures base = n at *
  have hcases := int64_cases n
  generalize int64 n = m at *
  split_ifs <;> omega

/-- **The delay doubles up to the cap** exactly if the product fits. It is always positive and within the cap,
    and no shorter than after fewer failures if the product fits. -/
theorem backoff_capped (hf : 1 ≤ failures) (hbase : 0 < base) (hmax : 0 < max) (h64 : max < 2 ^ 63) :
    (unjittered failures base max = min (base * 2 ^ (failures - 1).toNat) max ↔ Fits failures base max) ∧
      0 < unjittered failures base max ∧ unjittered failures base max ≤ max ∧
      ∀ failures' ≥ failures, Fits failures' base max →
      unjittered failures base max ≤ unjittered failures' base max := by
  have hpos : 0 < doubled failures base := doubled_pos hbase
  have hcases := unjittered_cases hf hbase hmax h64
  refine ⟨?_, ?_, ?_, fun failures' hle hfits => ?_⟩
  · change unjittered failures base max = min (doubled failures base) max ↔ _
    constructor
    · intro heq
      rcases hcases with h | h
      · exact h.1
      · omega
    · intro hfits
      exact (hcases.resolve_right (fun h => h.1 hfits)).2
  · omega
  · omega
  · have hmono : doubled failures base ≤ doubled failures' base := doubled_mono hbase hle
    have hlater := (unjittered_cases (hf.trans hle) hbase hmax h64).resolve_right (fun h => h.1 hfits)
    omega

theorem backoff_capped_third : unjittered 3 1000000000 60000000000 ≤ 60000000000 ∧
    Fits 3 1000000000 60000000000 := by
  have h := @backoff_capped 3 1000000000 60000000000 (by decide) (by decide) (by decide) (by decide)
  exact ⟨h.2.2.1, h.1.mp (by decide)⟩

/-- **The delay wraps around**: after 33 failures the product is `2 ^ 64 + 2 ^ 32`, and the delay four seconds
    instead of a minute. -/
theorem delay_wraps : unjittered 32 4294967297 60000000000 = 60000000000 ∧
    unjittered 33 4294967297 60000000000 = 4294967296 ∧
    min (4294967297 * 2 ^ (33 - 1)) 60000000000 = 60000000000 := by decide

end SyncForge
