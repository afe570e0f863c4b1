import Mathlib.Algebra.Ring.Int.Defs
import Mathlib.Order.Bounds.Defs
import Mathlib.Order.Lattice
import ShaderStruct.Layout

/-!
# Rounding and powers of two

Rounding up gives the least multiple, and of two powers of two the smaller divides the larger. The
second is why the strictest of several alignments is a multiple of all of them.
-/

namespace ShaderStruct

/-! ### Rounding -/

section Rounding

variable {step n m : Int}

theorem dvd_roundUp (step n : Int) : step ∣ roundUp step n :=
  Int.dvd_mul_left _ _

theorem roundUp_eq_ediv (hstep : 0 < step) (n : Int) : roundUp step n = -((-n) / step) * step := by
  rw [roundUp, Int.fdiv_eq_ediv_of_nonneg _ (Int.le_of_lt hstep)]

theorem le_roundUp (hstep : 0 < step) (n : Int) : n ≤ roundUp step n := by
  have hfloor := Int.ediv_mul_le (-n) (Int.ne_of_gt hstep)
  rw [roundUp_eq_ediv hstep, Int.neg_mul]
  omega

theorem roundUp_le (hstep : 0 < step) (hdvd : step ∣ m) (hle : n ≤ m) : roundUp step n ≤ m := by
  obtain ⟨k, rfl⟩ := hdvd
  have hfloor : -k ≤ (-n) / step := by
    apply Int.le_ediv_of_mul_le hstep
    rw [Int.neg_mul, Int.mul_comm k step]
    omega
  rw [roundUp_eq_ediv hstep, Int.mul_comm step k]
  apply Int.mul_le_mul_of_nonneg_right _ (Int.le_of_lt hstep)
  omega

theorem isLeast_roundUp (hstep : 0 < step) (n : Int) :
    IsLeast {m | step ∣ m ∧ n ≤ m} (roundUp step n) :=
  ⟨⟨dvd_roundUp step n, le_roundUp hstep n⟩, fun _ h => roundUp_le hstep h.1 h.2⟩

theorem roundUp_eq_self (hstep : 0 < step) (hdvd : step ∣ n) : roundUp step n = n :=
  Int.le_antisymm (roundUp_le hstep hdvd (Int.le_refl n)) (le_roundUp hstep n)

theorem roundUp_add (hstep : 0 < step) (hdvd : step ∣ n) (m : Int) :
    roundUp step (n + m) = n + roundUp step m := by
  have hsum : step ∣ n + roundUp step m := Int.dvd_add hdvd (dvd_roundUp step m)
  have hdiff : step ∣ roundUp step (n + m) - n := Int.dvd_sub (dvd_roundUp step _) hdvd
  have hle := le_roundUp hstep m
  have hle' := le_roundUp hstep (n + m)
  have hupper := roundUp_le hstep hsum (n := n + m) (by omega)
  have hlower := roundUp_le hstep hdiff (n := m) (by omega)
  omega

theorem roundUp_zero (step : Int) : roundUp step 0 = 0 := by
  rw [roundUp, Int.neg_zero, Int.zero_fdiv, Int.neg_zero, Int.zero_mul]

theorem roundUp?_eq_ok_iff {result : Int} :
    roundUp? step n = .ok result ↔ step ≠ 0 ∧ roundUp step n = result := by
  rw [roundUp?]
  by_cases hstep : step = 0
  · rw [if_pos hstep]
    constructor
    · rintro ⟨⟩
    · intro h
      exact absurd hstep h.1
  · rw [if_neg hstep, Except.ok.injEq]
    exact ⟨fun h => ⟨hstep, h⟩, fun h => h.2⟩

end Rounding

/-! ### Powers of two -/

def IsAlign (n : Int) : Prop := ∃ k : Nat, n = 2 ^ k

namespace IsAlign

variable {a b : Int}

theorem pos (h : IsAlign a) : 0 < a := by
  obtain ⟨k, rfl⟩ := h
  exact Int.pow_pos (by decide)

theorem dvd_of_le (ha : IsAlign a) (hb : IsAlign b) (hle : a ≤ b) : a ∣ b := by
  obtain ⟨k, rfl⟩ := ha
  obtain ⟨l, rfl⟩ := hb
  have hpow : 2 ^ k ≤ 2 ^ l := by exact_mod_cast hle
  have hexponent : k ≤ l := (Nat.pow_le_pow_iff_right (by decide)).1 hpow
  exact_mod_cast Nat.pow_dvd_pow 2 hexponent

theorem of_isPowerOfTwo (h : isPowerOfTwo a = true) : IsAlign a := by
  simp only [isPowerOfTwo, Bool.and_eq_true, decide_eq_true_eq, beq_iff_eq] at h
  obtain ⟨hpos, hand⟩ := h
  have hne : a.toNat ≠ 0 := by omega
  obtain ⟨k, hk⟩ := (Nat.and_sub_one_eq_zero_iff_isPowerOfTwo hne).1 hand
  refine ⟨k, ?_⟩
  calc
    a = (a.toNat : Int) := (Int.toNat_of_nonneg (Int.le_of_lt hpos)).symm
    _ = ((2 ^ k : Nat) : Int) := by rw [hk]
    _ = 2 ^ k := Int.natCast_pow 2 k

theorem isPowerOfTwo_iff : isPowerOfTwo a = true ↔ IsAlign a := by
  refine ⟨of_isPowerOfTwo, ?_⟩
  rintro ⟨k, rfl⟩
  have hne : 2 ^ k ≠ 0 := Nat.ne_of_gt (Nat.two_pow_pos k)
  have hnat : ((2 : Int) ^ k).toNat = 2 ^ k := by
    rw [← Int.toNat_natCast (2 ^ k), Int.natCast_pow]
    rfl
  simp only [isPowerOfTwo, hnat, Bool.and_eq_true, decide_eq_true_eq, beq_iff_eq]
  exact ⟨Int.pow_pos (by decide), (Nat.and_sub_one_eq_zero_iff_isPowerOfTwo hne).2 ⟨k, rfl⟩⟩

end IsAlign

end ShaderStruct
