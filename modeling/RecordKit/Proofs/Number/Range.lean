import Mathlib.Data.Int.ModEq
import RecordKit.Number.IntType

/-!
# Wrapping into the range of an integer type

The range of an integer type has as many numbers as its modulus, so exactly one of them is
congruent to a given number (`IntType.eq_wrap_iff`).  That one is the number itself if it
lies in the range (`IntType.wrap_eq_self_iff`), and a detour through a type of at least
as many bits does not change it (`IntType.wrap_wrap`).
-/

namespace RecordKit

namespace IntType

variable (t u : IntType) (n : Int)

theorem modulus_eq_two_pow : (t.modulus : Int) = 2 ^ t.bits := by
  simp [modulus]

theorem wrap_modEq : t.wrap n ≡ n [ZMOD 2 ^ t.bits] := by
  have h : (n - t.least) % t.modulus + t.least ≡ n - t.least + t.least [ZMOD t.modulus] :=
    (Int.mod_modEq _ _).add_right _
  rwa [Int.sub_add_cancel, modulus_eq_two_pow] at h

variable {t u n}

/-- Two numbers of one range are congruent only if they are equal. -/
theorem Holds.eq_of_modEq {y z : Int} (hy : t.Holds y) (hz : t.Holds z)
    (h : y ≡ z [ZMOD 2 ^ t.bits]) : y = z := by
  unfold Holds greatest at hy hz
  rw [← modulus_eq_two_pow] at h
  have hdvd : (t.modulus : Int) ∣ y - z := h.symm.dvd
  have hsmall : |y - z| < t.modulus := by
    rw [abs_lt]
    omega
  have hzero : y - z = 0 := Int.eq_zero_of_abs_lt_dvd hdvd hsmall
  omega

theorem eq_wrap_iff {y : Int} : y = t.wrap n ↔ t.Holds y ∧ y ≡ n [ZMOD 2 ^ t.bits] := by
  constructor
  · rintro rfl
    exact ⟨t.wrap_holds n, t.wrap_modEq n⟩
  · rintro ⟨hy, hmod⟩
    exact hy.eq_of_modEq (t.wrap_holds n) (hmod.trans (t.wrap_modEq n).symm)

theorem wrap_eq_self_iff : t.wrap n = n ↔ t.Holds n := by
  constructor
  · intro h
    rw [← h]
    exact t.wrap_holds n
  · intro h
    exact (eq_wrap_iff.mpr ⟨h, Int.ModEq.refl n⟩).symm

/-- Bits above those of a type do not matter to it. -/
theorem wrap_wrap (h : t.bits ≤ u.bits) : t.wrap (u.wrap n) = t.wrap n := by
  have hdvd : (2 : Int) ^ t.bits ∣ 2 ^ u.bits := pow_dvd_pow 2 h
  rw [eq_wrap_iff]
  refine ⟨t.wrap_holds _, ?_⟩
  exact (t.wrap_modEq _).trans ((u.wrap_modEq n).of_dvd hdvd)

end IntType

end RecordKit
