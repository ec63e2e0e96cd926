import Salsa.Tlv.Db
import Mathlib.Tactic.Linarith

/-!
# The walk of the parser

The parser goes from TLV to TLV, and into a container without coming back from it. The walk is
stated over words, apart from the counters of the code.
-/

namespace Salsa.Tlv

open CInt

/-- The TLV at word `pos` fits into the `n` words that are left. -/
structure Fits (buf : Words) (pos n : Nat) : Prop where
  header : 2 ≤ n
  data : (buf.word (pos + 1)).toNat ≤ 4 * (n - 2)

/-- The walk over `n` words from `pos` on, and the dB block that it comes to, with its bytes. -/
inductive Walk (buf : Words) : Nat → Nat → Option (Nat × Nat) → Prop
  | done (pos : Nat) : Walk buf pos 0 none
  | misfit (pos n : Nat) (hn : 2 ≤ n) (hfits : ¬ Fits buf pos n) : Walk buf pos n none
  | enter (pos n : Nat) (r : Option (Nat × Nat)) (hfits : Fits buf pos n)
      (htype : buf.word pos = SND_CTL_TLVT_CONTAINER)
      (hwalk : Walk buf (pos + 2) (int_index (buf.word (pos + 1))) r) : Walk buf pos n r
  | found (pos n : Nat) (hfits : Fits buf pos n) (htype : is_dB_type (buf.word pos) = true) :
      Walk buf pos n (some (pos, (buf.word (pos + 1)).toNat + 8))
  | next (pos n : Nat) (r : Option (Nat × Nat)) (hfits : Fits buf pos n)
      (hcontainer : buf.word pos ≠ SND_CTL_TLVT_CONTAINER) (hdB : is_dB_type (buf.word pos) = false)
      (hwalk : Walk buf (pos + 2 + int_index (buf.word (pos + 1))) (n - (2 + int_index (buf.word (pos + 1)))) r) :
      Walk buf pos n r

theorem Fits.words {buf : Words} {pos n : Nat} (h : Fits buf pos n) : 2 + int_index (buf.word (pos + 1)) ≤ n := by
  have hheader := h.header
  have hdata := h.data
  unfold int_index
  omega

/-- A block that is found lies in the words of the walk. -/
theorem Walk.inside {buf : Words} {pos n start bytes : Nat} (h : Walk buf pos n (some (start, bytes))) :
    8 ≤ bytes ∧ pos ≤ start ∧ 4 * start + bytes ≤ 4 * (pos + n) := by
  generalize hr : some (start, bytes) = r at h
  induction h with
  | done => cases hr
  | misfit => cases hr
  | enter pos n r hfits _ _ ih =>
    have := hfits.words
    have := ih hr
    omega
  | found pos n hfits _ =>
    obtain ⟨rfl, rfl⟩ : start = pos ∧ bytes = (buf.word (pos + 1)).toNat + 8 := by simpa using hr
    have := hfits.header
    have := hfits.data
    omega
  | next pos n r hfits _ _ _ ih =>
    have := hfits.words
    have := ih hr
    omega

/-! ## The code -/

theorem bytes_toNat (n : Nat) (h : 4 * n < 4294967296) : (BitVec.ofNat 32 (n * 4)).toNat = n * 4 := by
  rw [BitVec.toNat_ofNat]
  omega

theorem bytes_pos (n : Nat) (h : 4 * n < 4294967296) (hn : n ≠ 0) : BitVec.ofNat 32 (n * 4) > 0#32 := by
  rw [gt_iff_lt, BitVec.lt_def, bytes_toNat n h]
  simp
  omega

theorem bytes_sub (n k : Nat) (h : 4 * n < 4294967296) (hk : k ≤ n) :
    BitVec.ofNat 32 (n * 4) - BitVec.ofNat 32 (k * 4) = BitVec.ofNat 32 ((n - k) * 4) := by
  apply BitVec.eq_of_toNat_eq
  rw [BitVec.toNat_sub, bytes_toNat n h, bytes_toNat k (by omega), bytes_toNat (n - k) (by omega)]
  omega

theorem fits_iff (buf : Words) (pos n : Nat) (hn : 2 ≤ n) (h : 4 * n < 4294967296) :
    ¬ buf.word (pos + 1) > BitVec.ofNat 32 (n * 4) - 8#32 ↔ Fits buf pos n := by
  have hsub : BitVec.ofNat 32 (n * 4) - 8#32 = BitVec.ofNat 32 ((n - 2) * 4) := bytes_sub n 2 h hn
  rw [hsub, gt_iff_lt, BitVec.lt_def, bytes_toNat _ (by omega)]
  constructor
  · intro hle
    exact ⟨hn, by omega⟩
  · intro hfits
    have := hfits.data
    omega

/-- A call on the TLV at `pos`, with `n` words left. -/
theorem parse_dB_info_eq (buf : Words) (fuel pos n : Nat) (hn : 2 ≤ n) (hsize : pos + n ≤ buf.size)
    (h32 : 4 * n < 4294967296) :
    parse_dB_info buf (fuel + 1) pos (BitVec.ofNat 32 (n * 4)) =
      if buf.word (pos + 1) > BitVec.ofNat 32 (n * 4) - 8#32 then .ok (-EINVAL, none)
      else if buf.word pos = SND_CTL_TLVT_CONTAINER then
        parse_container buf fuel (pos + 2) (BitVec.ofNat 32 (int_index (buf.word (pos + 1)) * 4))
      else if is_dB_type (buf.word pos) then .ok (cut ((buf.word (pos + 1)).toNat + 8), some pos)
      else .ok (0, none) := by
  rw [parse_dB_info, buf.read_ok pos (by omega), buf.read_ok (pos + 1) (by omega)]
  rfl

theorem parse_container_done (buf : Words) (fuel pos : Nat) :
    parse_container buf (fuel + 1) pos (BitVec.ofNat 32 (0 * 4)) = .ok (-EINVAL, none) := by
  rw [parse_container, if_neg (by decide)]
  rfl

/-- A round of the loop, with `n` words left. -/
theorem parse_container_round (buf : Words) (fuel pos n : Nat) (hn : 2 ≤ n) (hsize : pos + n ≤ buf.size)
    (h32 : 4 * n < 4294967296) (r : Int × Option Nat)
    (hcall : parse_dB_info buf fuel pos (BitVec.ofNat 32 (n * 4)) = .ok r) :
    parse_container buf (fuel + 1) pos (BitVec.ofNat 32 (n * 4)) =
      if r.1 ≠ 0 then .ok r
      else parse_container buf fuel (pos + 2 + int_index (buf.word (pos + 1)))
        (BitVec.ofNat 32 (n * 4) - BitVec.ofNat 32 ((2 + int_index (buf.word (pos + 1))) * 4)) := by
  rw [parse_container, if_pos (bytes_pos n h32 (by omega)), hcall, ok_bind, buf.read_ok (pos + 1) (by omega),
    Nat.add_assoc pos 2, Nat.add_comm 2]
  rfl

/-- What the parser returns for the outcome of a walk. -/
def walk_result : Option (Nat × Nat) → Int × Option Nat
  | none => (-EINVAL, none)
  | some (pos, bytes) => (cut bytes, some pos)

theorem cut_ne_zero (bytes : Nat) (h0 : 0 < bytes) (h32 : bytes < 4294967296) : cut bytes ≠ 0 := by
  rw [cut, BitVec.toInt_ofInt]
  simp only [Int.bmod]
  omega

theorem positive_cut (bytes : Nat) (h32 : bytes < 4294967296) (h : 0 < cut bytes) : cut bytes = bytes := by
  rw [cut, BitVec.toInt_ofInt] at h ⊢
  simp only [Int.bmod] at h ⊢
  omega

theorem walk_result_ne_zero (buf : Words) (pos n : Nat) (r : Option (Nat × Nat)) (h : Walk buf pos n r)
    (h32 : 4 * (pos + n) < 4294967296) : (walk_result r).1 ≠ 0 := by
  cases r with
  | none => decide
  | some block =>
    have hinside := h.inside
    exact cut_ne_zero block.2 (by omega) (by omega)

/-- The loop of the parser follows the walk. -/
theorem parse_container_of_walk (buf : Words) (pos n : Nat) (r : Option (Nat × Nat)) (h : Walk buf pos n r)
    (hsize : pos + n ≤ buf.size) (h32 : 4 * (pos + n) < 4294967296) (fuel : Nat) (hfuel : n + 1 ≤ fuel) :
    parse_container buf fuel pos (BitVec.ofNat 32 (n * 4)) = .ok (walk_result r) := by
  induction h generalizing fuel with
  | done pos =>
    obtain ⟨fuel, rfl⟩ : ∃ k, fuel = k + 1 := ⟨fuel - 1, by omega⟩
    exact parse_container_done buf fuel pos
  | misfit pos n hn hfits =>
    obtain ⟨fuel, rfl⟩ : ∃ k, fuel = k + 2 := ⟨fuel - 2, by omega⟩
    have hcall := parse_dB_info_eq buf fuel pos n hn hsize (by omega)
    rw [if_pos (by_contra fun hle => hfits ((fits_iff buf pos n hn (by omega)).mp hle))] at hcall
    rw [parse_container_round buf _ pos n hn hsize (by omega) _ hcall, if_pos (by decide)]
    rfl
  | enter pos n r hfits htype hwalk ih =>
    obtain ⟨fuel, rfl⟩ : ∃ k, fuel = k + 2 := ⟨fuel - 2, by have := hfits.header; omega⟩
    have hwords := hfits.words
    have hcall := parse_dB_info_eq buf fuel pos n hfits.header hsize (by omega)
    rw [if_neg ((fits_iff buf pos n hfits.header (by omega)).mpr hfits), if_pos htype,
      ih (by omega) (by omega) fuel (by omega)] at hcall
    rw [parse_container_round buf _ pos n hfits.header hsize (by omega) _ hcall,
      if_pos (walk_result_ne_zero buf _ _ r hwalk (by omega))]
  | found pos n hfits htype =>
    obtain ⟨fuel, rfl⟩ : ∃ k, fuel = k + 2 := ⟨fuel - 2, by have := hfits.header; omega⟩
    have hdata := hfits.data
    have hheader := hfits.header
    have hcontainer : buf.word pos ≠ SND_CTL_TLVT_CONTAINER := by
      intro heq
      rw [heq] at htype
      exact absurd htype (by decide)
    have hcall := parse_dB_info_eq buf fuel pos n hfits.header hsize (by omega)
    rw [if_neg ((fits_iff buf pos n hfits.header (by omega)).mpr hfits), if_neg hcontainer, if_pos htype] at hcall
    have hne := cut_ne_zero ((buf.word (pos + 1)).toNat + 8) (by omega) (by omega)
    rw [Nat.cast_add] at hne
    rw [parse_container_round buf _ pos n hfits.header hsize (by omega) _ hcall]
    exact if_pos hne
  | next pos n r hfits hcontainer hdB hwalk ih =>
    obtain ⟨fuel, rfl⟩ : ∃ k, fuel = k + 2 := ⟨fuel - 2, by have := hfits.header; omega⟩
    have hwords := hfits.words
    have hcall := parse_dB_info_eq buf fuel pos n hfits.header hsize (by omega)
    rw [if_neg ((fits_iff buf pos n hfits.header (by omega)).mpr hfits), if_neg hcontainer,
      if_neg (by simp [hdB])] at hcall
    rw [parse_container_round buf _ pos n hfits.header hsize (by omega) _ hcall, if_neg (by decide),
      bytes_sub n _ (by omega) (by omega), ih (by omega) (by omega) (fuel + 1) (by omega)]

end Salsa.Tlv
