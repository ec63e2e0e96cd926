import Salsa.Pcm.Phase
import Salsa.Lib.Overlay

/-!
# Silence of areas

Samples of one or more bytes are filled at once or one by one, by memset or by a pattern; what is written is
the same. Everything else goes to the loop over nibbles, other widths than 4 and formats without a width too.
-/

namespace Salsa.Pcm.Samples

open CInt Overlay

/-! ## Whole bytes -/

theorem memcpy_const_overlay (m : Mem) (dst : Nat) (src : Nat → BitVec 8) (n : Nat) :
    memcpy_const m dst src n = overlay (block src n dst) m := by
  funext a
  unfold memcpy_const overlay block
  split <;> rfl

theorem pattern_loop_overlay (pat : Nat → BitVec 8) (width samples dst : Nat) (m : Mem) :
    pattern_loop pat width samples dst m = overlay (blocks pat width width samples dst) m := by
  induction samples generalizing dst m with
  | zero => rfl
  | succ samples ih =>
    rw [pattern_loop, ih, memcpy_const_overlay, overlay_overlay]
    rfl

theorem memset_block (m : Mem) (dst : Nat) (c : BitVec 8) (n : Nat) :
    memset m dst c n = overlay (block (fun _ => c) n dst) m := by
  funext a
  unfold memset overlay block
  split <;> rfl

/-- One byte for all is a pattern of such bytes. -/
theorem memset_overlay (pat : Nat → BitVec 8) (width samples dst : Nat) (m : Mem) (c : BitVec 8) (hwidth : 0 < width)
    (hpat : ∀ i < width, pat i = c) :
    memset m dst c (samples * width) = overlay (blocks pat width width samples dst) m := by
  have hbytes : (fun i => pat (i % width)) = fun _ => c := funext fun i => hpat _ (Nat.mod_lt i hwidth)
  rw [blocks_packed hwidth, hbytes, memset_block]

/-- The widths that are not below 8; and memset is used where a pattern has equal bytes only. -/
theorem whole_bytes (fmt : SndPcmFormatData) (h : fmt ∈ _snd_pcm_formats) (hphys : 8 ≤ fmt.phys) :
    8 ∣ fmt.phys ∧ fmt.phys ≤ 64 ∧
      (fmt.signd = 1 ∨ fmt.phys ≤ 8 → ∀ i < (fmt.phys / 8).toNat, fmt.pat i = fmt.pat 0) := by
  have htable : ∀ fmt ∈ _snd_pcm_formats, 8 ≤ fmt.phys → 8 ∣ fmt.phys ∧ fmt.phys ≤ 64 ∧
      (fmt.signd = 1 ∨ fmt.phys ≤ 8 → ∀ i < (fmt.phys / 8).toNat, fmt.pat i = fmt.pat 0) := by decide
  exact htable fmt h hphys

section Bytes

variable {format : Int} {fmt : SndPcmFormatData} {width : Nat} (hfmt : format_data format = .ok fmt)
  (hphys : fmt.phys = (8 * width : Nat)) (hwidth : 0 < width)

include hfmt hphys hwidth

theorem set_silence_eq (m : Mem) (data : Nat) (samples : BitVec 32) (hsize : samples.toNat * (8 * width) < 4294967296) :
    snd_pcm_format_set_silence format m data samples =
      .ok (0, overlay (blocks fmt.pat width width samples.toNat data) m) := by
  obtain ⟨-, hle, hequal⟩ := whole_bytes fmt (format_data_mem format fmt hfmt) (by omega)
  have hbytes : (fmt.phys / 8).toNat = width := by omega
  rw [hbytes] at hequal
  unfold snd_pcm_format_set_silence
  by_cases hsamples : samples = 0#32
  · subst hsamples
    rfl
  · rw [if_neg hsamples, hfmt, ok_bind]
    dsimp only
    rw [if_neg (by omega), hbytes]
    split
    · rename_i hmemset
      have hint : (samples * BitVec.ofInt 32 fmt.phys / 8#32).toNat = samples.toNat * width := by
        rw [hphys, BitVec.ofInt_natCast, BitVec.toNat_udiv, BitVec.toNat_mul, BitVec.toNat_ofNat,
          Nat.mod_eq_of_lt (a := 8 * width) (by omega), Nat.mod_eq_of_lt hsize, Nat.mul_left_comm]
        exact Nat.mul_div_cancel_left _ (by decide)
      rw [hint, memset_overlay fmt.pat width samples.toNat data m _ hwidth (hequal hmemset)]
      rfl
    · rw [pattern_loop_overlay]
      rfl

theorem silence_loop_eq (dst_step samples dst : Nat) (m : Mem) :
    silence_loop format dst_step samples dst m =
      .ok (0, overlay (blocks fmt.pat width dst_step samples dst) m) := by
  have hle := (whole_bytes fmt (format_data_mem format fmt hfmt) (by omega)).2.1
  induction samples generalizing dst m with
  | zero => rfl
  | succ samples ih =>
    have hone : (1#32).toNat * (8 * width) < 4294967296 := by
      rw [show (1#32).toNat = 1 from rfl]
      omega
    have hblock : blocks fmt.pat width width (1#32).toNat dst = block fmt.pat width dst := blocks_one ..
    unfold silence_loop
    rw [set_silence_eq hfmt hphys hwidth m dst 1#32 hone, ok_bind]
    dsimp only
    rw [ih, hblock, overlay_overlay]
    rfl

/-- Packed areas and others are filled alike. -/
theorem area_silence_eq (m : Mem) (area : SndPcmChannelArea) (offset : BitVec 64) (samples : BitVec 32)
    (haddr : area.addr ≠ 0) (hsize : samples.toNat * (8 * width) < 4294967296) :
    snd_pcm_area_silence m area offset samples format =
      .ok (0, overlay (blocks fmt.pat width (area.step.toNat / 8) samples.toNat
        (snd_pcm_channel_area_addr area offset)) m) := by
  have hle := (whole_bytes fmt (format_data_mem format fmt hfmt) (by omega)).2.1
  unfold snd_pcm_area_silence snd_pcm_format_physical_width
  rw [if_neg haddr, hfmt, ok_bind]
  dsimp only
  rw [show (pure fmt.phys : C Int) = .ok fmt.phys from rfl, ok_bind, if_neg (by omega)]
  split
  · rename_i hpacked
    have hstep : area.step.toNat / 8 = width := by
      rw [hpacked, hphys, BitVec.ofInt_natCast, BitVec.toNat_ofNat]
      omega
    rw [set_silence_eq hfmt hphys hwidth m _ samples hsize, hstep]
    rfl
  · rw [silence_loop_eq hfmt hphys hwidth, div_eight_toNat]

end Bytes

/-! ## Nibbles -/

theorem clear_overlay (v : Nat → BitVec 4) (t : Nat) : clear v t = overlay (block (fun _ => 0#4) 1 t) v := by
  funext p
  unfold clear overlay block
  by_cases hp : p = t
  · rw [hp, Function.update_self, if_pos (by omega)]
    rfl
  · rw [Function.update_of_ne hp, if_neg (by omega)]
    rfl

theorem nibble_silence_loop (step samples a bit t : Nat) (m : Mem) (hstep : 4 ∣ step) (h : At a bit t) :
    nibble (silence_4bit_loop (step / 8) (step % 8) samples a bit m) =
      overlay (blocks (fun _ => 0#4) 1 (step / 4) samples t) (nibble m) := by
  induction samples generalizing a bit t m with
  | zero => rfl
  | succ samples ih =>
    have hclear := nibble_clear m a bit t h
    obtain ⟨hwrap, hnext⟩ := h.next hstep
    rw [clear_overlay] at hclear
    unfold silence_4bit_loop
    dsimp only
    by_cases hbit : bit + step % 8 = 8
    · rw [if_pos hbit, ih _ _ _ _ (hwrap hbit), hclear, overlay_overlay]
      rfl
    · rw [if_neg hbit, ih _ _ _ _ (hnext hbit), hclear, overlay_overlay]
      rfl

theorem high_getMsbD (b : BitVec 8) (i : Nat) (hi : i < 4) : (high b).getMsbD i = b.getMsbD i := by
  have h : ∀ b : BitVec 8, ∀ i < 4, (high b).getMsbD i = b.getMsbD i := by decide
  exact h b i hi

theorem low_getMsbD (b : BitVec 8) (i : Nat) (hi : i < 4) : (low b).getMsbD i = b.getMsbD (4 + i) := by
  have h : ∀ b : BitVec 8, ∀ i < 4, (low b).getMsbD i = b.getMsbD (4 + i) := by decide
  exact h b i hi

/-- The bits are the same, told by bytes or by nibbles. -/
theorem bits_nibble (m : Mem) : bits (nibble m) = bits m := by
  funext p
  unfold bits nibble
  rw [Nat.div_div_eq_div_mul]
  split
  · rw [high_getMsbD _ _ (Nat.mod_lt _ (by decide)), show p % 4 = p % 8 by omega]
  · rw [low_getMsbD _ _ (Nat.mod_lt _ (by decide)), show 4 + p % 4 = p % 8 by omega]

end Salsa.Pcm.Samples
