import Salsa.Pcm.Setup

/-!
# The boundary

The loop of `snd_pcm_sw_params_default` doubles the boundary as long as a buffer still fits on top of it. The invariant
is that it fits now, so that the next double has no more than 64 bits.
-/

namespace Salsa.Pcm

/-- The values of the boundary that the loop tests. -/
def tested_boundaries (limit : Uframes) : Nat → Uframes → List Uframes
  | 0, _ => []
  | n + 1, boundary =>
    boundary :: if boundary * 2#64 ≤ limit then tested_boundaries limit n (boundary * 2#64) else []

/-- The boundary with which the loop ends was reached in steps that lose no bit, and the next one is too large. -/
structure Doubled (size boundary result : Uframes) (k : Nat) (tested : List Uframes) : Prop where
  power : result.toNat = boundary.toNat * 2 ^ k
  fits : result.toNat + size.toNat ≤ LONG_MAX_U.toNat
  maximal : LONG_MAX_U.toNat - size.toNat < 2 * result.toNat
  last : tested.getLast? = some result
  exact_double : ∀ b ∈ tested, 2 * b.toNat < 2 ^ 64

theorem double_fits (size boundary : Uframes) (hfits : boundary.toNat + size.toNat ≤ LONG_MAX_U.toNat) :
    2 * boundary.toNat < 2 ^ 64 ∧ (boundary * 2#64).toNat = 2 * boundary.toNat ∧
      (LONG_MAX_U - size).toNat = LONG_MAX_U.toNat - size.toNat := by
  have hmax : LONG_MAX_U.toNat = 2 ^ 63 - 1 := rfl
  refine ⟨by omega, ?_, BitVec.toNat_sub_of_le (BitVec.le_def.mpr (by omega))⟩
  rw [BitVec.toNat_mul, show (2#64).toNat = 2 from rfl, Nat.mod_eq_of_lt (by omega)]
  exact Nat.mul_comm _ _

/-- From a boundary that fits, `n` rounds are enough when `n` doublings would not fit. -/
theorem double_boundary_spec (size boundary : Uframes) (n : Nat)
    (hfits : boundary.toNat + size.toNat ≤ LONG_MAX_U.toNat) (hfuel : LONG_MAX_U.toNat < boundary.toNat * 2 ^ n) :
    ∃ result k, double_boundary (LONG_MAX_U - size) n boundary = some result ∧
      Doubled size boundary result k (tested_boundaries (LONG_MAX_U - size) n boundary) := by
  induction n generalizing boundary with
  | zero => omega
  | succ n ih =>
    obtain ⟨hexact, hdouble, hlimit⟩ := double_fits size boundary hfits
    unfold double_boundary tested_boundaries
    by_cases hle : boundary * 2#64 ≤ LONG_MAX_U - size
    · have hpower (m : Nat) : (boundary * 2#64).toNat * 2 ^ m = boundary.toNat * 2 ^ (m + 1) := by
        rw [hdouble, Nat.pow_succ, Nat.mul_comm 2, Nat.mul_assoc, Nat.mul_comm 2]
      rw [if_pos hle, if_pos hle]
      rw [BitVec.le_def, hdouble, hlimit] at hle
      obtain ⟨result, k, hresult, h⟩ := ih (boundary * 2#64) (by omega) (by rw [hpower]; exact hfuel)
      refine ⟨result, k + 1, hresult, h.power.trans (hpower k), h.fits, h.maximal, ?_, fun b hb => ?_⟩
      · rw [List.getLast?_cons, h.last]
        rfl
      · rcases List.mem_cons.mp hb with rfl | hb
        · exact hexact
        · exact h.exact_double b hb
    · rw [if_neg hle, if_neg hle]
      rw [BitVec.le_def, hdouble, hlimit, not_le] at hle
      refine ⟨boundary, 0, rfl, (Nat.mul_one _).symm, hfits, hle, rfl, fun b hb => ?_⟩
      rw [List.mem_singleton.mp hb]
      exact hexact

/-- The loop ends for every buffer that fits twice into a long, with the largest multiple of its size by a power of two
that leaves room for another buffer, and no double on the way is too large for an unsigned long. -/
theorem default_boundary_spec (pcm : SndPcm) (hpos : 1 ≤ pcm.buffer_size.toNat)
    (hmax : pcm.buffer_size.toNat ≤ LONG_MAX_U.toNat / 2) :
    ∃ params k, snd_pcm_sw_params_default pcm = some params ∧
      Doubled pcm.buffer_size pcm.buffer_size params.boundary k
        (tested_boundaries (LONG_MAX_U - pcm.buffer_size) 64 pcm.buffer_size) ∧
      ∀ j, pcm.buffer_size.toNat * 2 ^ j + pcm.buffer_size.toNat ≤ LONG_MAX_U.toNat → j ≤ k := by
  have hlong : LONG_MAX_U.toNat = 2 ^ 63 - 1 := rfl
  obtain ⟨result, k, hresult, h⟩ := double_boundary_spec pcm.buffer_size pcm.buffer_size 64 (by omega) (by omega)
  refine ⟨_, k, congrArg (Option.map _) hresult, h, fun j hj => ?_⟩
  by_contra hlt
  have hpower : 2 ^ (k + 1) ≤ 2 ^ j := Nat.pow_le_pow_right (by decide) (by omega)
  have hmul := Nat.mul_le_mul_left pcm.buffer_size.toNat hpower
  have hmaximal := h.maximal
  rw [h.power] at hmaximal
  rw [Nat.pow_succ, ← Nat.mul_assoc] at hmul
  omega

theorem default_boundary_spec_three :
    ∃ params k, snd_pcm_sw_params_default { snd_pcm_open .playback with buffer_size := 3#64 } = some params ∧
      Doubled 3#64 3#64 params.boundary k (tested_boundaries (LONG_MAX_U - 3#64) 64 3#64) ∧
      ∀ j, 3 * 2 ^ j + 3 ≤ LONG_MAX_U.toNat → j ≤ k :=
  default_boundary_spec { snd_pcm_open .playback with buffer_size := 3#64 } (by decide) (by decide)

end Salsa.Pcm
