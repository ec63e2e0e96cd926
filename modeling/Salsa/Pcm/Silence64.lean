import Salsa.Pcm.Silence

/-!
# Silence as a number

A number that is stored on a little-endian host has its lowest byte first. `snd_pcm_format_silence_64` begins
with the highest one, and does not repeat the sample up to the 64 bits.
-/

namespace Salsa.Pcm.Samples

open CInt Overlay

/-- The inner loop of `snd_pcm_format_silence_64`, from byte `i` of the pattern on. -/
def silence_round (pat : Nat → BitVec 8) : Nat → Nat → BitVec 64 → BitVec 64
  | 0, _, silence => silence
  | n + 1, i, silence => silence_round pat n (i + 1) ((silence <<< 8) ||| (pat i).setWidth 64)

/-- The outer loop, which has reached byte `p`. -/
def silence_rounds (pat : Nat → BitVec 8) (w p : Nat) (silence : BitVec 64) : BitVec 64 :=
  if p < w then silence_rounds pat w (p + w) (silence_round pat w 0 silence) else silence
termination_by w - p

def snd_pcm_format_silence_64 (format : Int) : C (BitVec 64) := do
  let fmt ← format_data format
  if fmt.phys ≤ 0 then return 0#64
  else return silence_rounds fmt.pat (fmt.width / 8).toNat 0 0#64

def snd_pcm_format_silence_32 (format : Int) : C (BitVec 32) := do
  let silence ← snd_pcm_format_silence_64 format
  return silence.setWidth 32

def snd_pcm_format_silence_16 (format : Int) : C (BitVec 16) := do
  let silence ← snd_pcm_format_silence_64 format
  return silence.setWidth 16

def snd_pcm_format_silence (format : Int) : C (BitVec 8) := do
  let silence ← snd_pcm_format_silence_64 format
  return silence.setWidth 8

/-! ## Bytes of a number -/

/-- The byte of a number at place `i` of a little-endian memory. -/
def le_byte {u : Nat} (v : BitVec u) (i : Nat) : BitVec 8 := v.extractLsb' (8 * i) 8

/-- `n` stores of a number one behind the other. -/
def store_loop {u : Nat} (v : BitVec u) (n dst : Nat) (m : Mem) : Mem := pattern_loop (le_byte v) (u / 8) n dst m

theorem le_byte_setWidth (v : BitVec 64) (u i : Nat) (hi : 8 * i + 8 ≤ u) : le_byte (v.setWidth u) i = le_byte v i := by
  unfold le_byte
  apply BitVec.eq_of_getLsbD_eq
  intro j hj
  simp only [BitVec.getLsbD_extractLsb', BitVec.getLsbD_setWidth]
  rw [decide_eq_true (show 8 * i + j < u by omega), Bool.true_and]

theorem le_byte_shift (v : BitVec 64) (b : BitVec 8) (i : Nat) (hi : i < 8) :
    le_byte ((v <<< 8) ||| b.setWidth 64) i = if i = 0 then b else le_byte v (i - 1) := by
  unfold le_byte
  apply BitVec.eq_of_getLsbD_eq
  intro j hj
  rw [BitVec.getLsbD_extractLsb', BitVec.getLsbD_or, BitVec.getLsbD_shiftLeft, BitVec.getLsbD_setWidth]
  by_cases hzero : i = 0
  · subst hzero
    rw [if_pos rfl]
    simp [hj]
    omega
  · have hplace : 8 * (i - 1) + j = 8 * i + j - 8 := by omega
    rw [if_neg hzero, BitVec.getLsbD_extractLsb', BitVec.getLsbD_of_ge b (8 * i + j) (by omega), hplace]
    simp [hj]
    intro
    omega

/-- The bytes that are shifted in lie in memory the other way round. -/
theorem le_byte_round (pat : Nat → BitVec 8) (n i : Nat) (v : BitVec 64) (j : Nat) (hj : j < 8) :
    le_byte (silence_round pat n i v) j = if j < n then pat (i + (n - 1 - j)) else le_byte v (j - n) := by
  induction n generalizing i v j with
  | zero => rfl
  | succ n ih =>
    rw [silence_round, ih _ _ _ hj]
    rcases Nat.lt_trichotomy j n with hlt | rfl | hlt
    · rw [if_pos hlt, if_pos (by omega)]
      congr 1
      omega
    · rw [if_neg (Nat.lt_irrefl j), if_pos (Nat.lt_succ_self j), le_byte_shift _ _ _ (by omega), if_pos (by omega)]
      congr 1
      omega
    · rw [if_neg (by omega), if_neg (by omega), le_byte_shift _ _ _ (by omega), if_neg (by omega)]
      rfl

/-- The outer loop is gone through once. -/
theorem silence_rounds_eq (pat : Nat → BitVec 8) (w : Nat) (hw : 0 < w) :
    silence_rounds pat w 0 0#64 = silence_round pat w 0 0#64 := by
  unfold silence_rounds
  rw [if_pos hw]
  unfold silence_rounds
  rw [if_neg (by omega)]

/-! ## What is stored -/

/-- The pattern is the same from its end. -/
def Palindrome (pat : Nat → BitVec 8) (width : Nat) : Prop := ∀ i < width, pat i = pat (width - 1 - i)

theorem packed_overlay {pat : Nat → BitVec 8} {width samples dst : Nat} (hwidth : 0 < width) (m : Mem) :
    pattern_loop pat width samples dst m = overlay (block (fun i => pat (i % width)) (samples * width) dst) m := by
  rw [pattern_loop_overlay, blocks_packed hwidth]

instance nontrivial_byte : Nontrivial (BitVec 8) := ⟨0#8, 1#8, by decide⟩

/-- The bytes that `snd_pcm_format_set_silence` writes; for memset they are counted in 32 bits. -/
def silence_bytes (fmt : SndPcmFormatData) (width : Nat) (samples : BitVec 32) : Nat :=
  if fmt.signd = 1 ∨ fmt.phys ≤ 8 then samples.toNat * (8 * width) % 4294967296 / 8 else samples.toNat * width

section Bytes

variable {format : Int} {fmt : SndPcmFormatData} {width : Nat} (hfmt : format_data format = .ok fmt)
  (hphys : fmt.phys = (8 * width : Nat)) (hpos : 0 < width)

include hfmt hphys hpos

theorem set_silence_block (m : Mem) (data : Nat) (samples : BitVec 32) (hsamples : samples ≠ 0#32) :
    snd_pcm_format_set_silence format m data samples =
      .ok (0, overlay (block (fun i => fmt.pat (i % width)) (silence_bytes fmt width samples) data) m) := by
  obtain ⟨-, hle, hequal⟩ := whole_bytes fmt (format_data_mem format fmt hfmt) (by omega)
  have hbytes : (fmt.phys / 8).toNat = width := by omega
  rw [hbytes] at hequal
  unfold snd_pcm_format_set_silence silence_bytes
  rw [if_neg hsamples, hfmt, ok_bind]
  dsimp only
  rw [if_neg (by omega), hbytes]
  split
  · rename_i hmemset
    have hint : (samples * BitVec.ofInt 32 fmt.phys / 8#32).toNat = samples.toNat * (8 * width) % 4294967296 / 8 := by
      rw [hphys, BitVec.ofInt_natCast, BitVec.toNat_udiv, BitVec.toNat_mul, BitVec.toNat_ofNat,
        Nat.mod_eq_of_lt (a := 8 * width) (by omega)]
      rfl
    have hblock : block (fun _ => fmt.pat 0) (samples.toNat * (8 * width) % 4294967296 / 8) data =
        block (fun i => fmt.pat (i % width)) (samples.toNat * (8 * width) % 4294967296 / 8) data :=
      block_inj.mpr ⟨rfl, fun i _ => (hequal hmemset _ (Nat.mod_lt i hpos)).symm⟩
    rw [hint, memset_block, hblock]
    rfl
  · rw [packed_overlay hpos]
    rfl

theorem silence_64_eq (hwidth : fmt.width = fmt.phys) :
    ∃ silence : BitVec 64, snd_pcm_format_silence_64 format = .ok silence ∧
      ∀ i < 8, le_byte silence i = if i < width then fmt.pat (width - 1 - i) else 0#8 := by
  have hwords : (fmt.width / 8).toNat = width := by omega
  refine ⟨silence_round fmt.pat width 0 0#64, ?_, ?_⟩
  · unfold snd_pcm_format_silence_64
    rw [hfmt, ok_bind, if_neg (by omega), hwords, silence_rounds_eq _ _ hpos]
    rfl
  · intro i hi
    rw [le_byte_round _ _ _ _ _ hi, Nat.zero_add]
    congr 1
    unfold le_byte
    rw [BitVec.extractLsb'_zero]

theorem set_silence_block_iff (samples : BitVec 32) (hsamples : samples ≠ 0#32) (value : Nat → BitVec 8) (n : Nat) :
    (∀ m data, snd_pcm_format_set_silence format m data samples = .ok (0, overlay (block value n data) m)) ↔
      silence_bytes fmt width samples = n ∧ ∀ i < n, fmt.pat (i % width) = value i := by
  constructor
  · intro h
    have hoverlay (m : Mem) :
        overlay (block (fun i => fmt.pat (i % width)) (silence_bytes fmt width samples) 0) m =
          overlay (block value n 0) m := by
      have hm := h m 0
      rw [set_silence_block hfmt hphys hpos m 0 samples hsamples] at hm
      exact congrArg Prod.snd (Except.ok.inj hm)
    obtain ⟨hn, hvalue⟩ := block_inj.mp (overlay_inj hoverlay)
    exact ⟨hn, hn ▸ hvalue⟩
  · rintro ⟨rfl, hvalue⟩ m data
    rw [set_silence_block hfmt hphys hpos m data samples hsamples, block_inj.mpr ⟨rfl, hvalue⟩]

end Bytes

theorem silence_bytes_iff (fmt : SndPcmFormatData) (width : Nat) (samples : BitVec 32) :
    silence_bytes fmt width samples = samples.toNat * width ↔
      (fmt.signd = 1 ∨ fmt.phys ≤ 8 → samples.toNat * (8 * width) < 4294967296) := by
  unfold silence_bytes
  rw [Nat.mul_left_comm]
  split
  · rename_i hmemset
    simp only [hmemset, true_imp_iff]
    omega
  · rename_i hpattern
    simp only [hpattern, false_imp_iff]

/-- The bytes of all samples are told by those of one. -/
theorem all_samples_iff {samples width : Nat} (hsamples : 0 < samples) (hwidth : 0 < width) (P : Nat → Prop) :
    (∀ i < samples * width, P (i % width)) ↔ ∀ i < width, P i := by
  constructor
  · intro h i hi
    have hle : 1 * width ≤ samples * width := Nat.mul_le_mul_right width hsamples
    have hp := h i (by omega)
    rwa [Nat.mod_eq_of_lt hi] at hp
  · intro h i _
    exact h _ (Nat.mod_lt i hwidth)

/-! ## The two sources -/

/-- What is stored is what `snd_pcm_format_set_silence` writes, to any memory. -/
structure Agrees (format : Int) (silence : BitVec 64) (u : Nat) (samples : BitVec 32) : Prop where
  native : ∀ m data, snd_pcm_format_set_silence format m data samples =
    .ok (0, store_loop (silence.setWidth u) samples.toNat data m)
  words : 64 ∣ samples.toNat * u → ∀ m data, snd_pcm_format_set_silence format m data samples =
    .ok (0, store_loop silence (samples.toNat * u / 64) data m)

/-- The order of the bytes does not matter, memset is given the right size, and no sample is to be repeated. -/
structure Symmetric (fmt : SndPcmFormatData) (u : Nat) (samples : BitVec 32) : Prop where
  palindrome : Palindrome fmt.pat (u / 8)
  counted : fmt.signd = 1 ∨ fmt.phys ≤ 8 → samples.toNat * u < 4294967296
  zero : 64 ∣ samples.toNat * u → u < 64 → ∀ i < u / 8, fmt.pat i = 0#8

theorem agrees_none (format : Int) (silence : BitVec 64) (u : Nat) : Agrees format silence u 0#32 := by
  constructor
  · intro m data
    rfl
  · intro _ m data
    rw [show (0#32).toNat = 0 from rfl, Nat.zero_mul]
    rfl

section Agrees

variable {format : Int} {fmt : SndPcmFormatData} {width : Nat} {silence : BitVec 64}
  (hfmt : format_data format = .ok fmt) (hphys : fmt.phys = (8 * width : Nat)) (hpos : 0 < width)
  (hsilence : ∀ i < 8, le_byte silence i = if i < width then fmt.pat (width - 1 - i) else 0#8)
  (samples : BitVec 32) (hsamples : samples ≠ 0#32)

include hfmt hphys hpos hsilence hsamples

theorem native_iff :
    (∀ m data, snd_pcm_format_set_silence format m data samples =
        .ok (0, store_loop (silence.setWidth (8 * width)) samples.toNat data m)) ↔
      (fmt.signd = 1 ∨ fmt.phys ≤ 8 → samples.toNat * (8 * width) < 4294967296) ∧ Palindrome fmt.pat width := by
  have hle := (whole_bytes fmt (format_data_mem format fmt hfmt) (by omega)).2.1
  have hcount : 0 < samples.toNat := by
    rw [Nat.pos_iff_ne_zero]
    exact fun h => hsamples (BitVec.eq_of_toNat_eq h)
  unfold store_loop
  simp only [Nat.mul_div_cancel_left width (show 0 < 8 by decide), packed_overlay hpos]
  rw [set_silence_block_iff hfmt hphys hpos samples hsamples, silence_bytes_iff]
  refine and_congr_right fun _ => ?_
  rw [all_samples_iff hcount hpos fun i => fmt.pat i = le_byte (silence.setWidth (8 * width)) i]
  unfold Palindrome
  refine forall_congr' fun i => imp_congr_right fun hi => ?_
  rw [le_byte_setWidth _ _ _ (by omega), hsilence i (by omega), if_pos hi]

theorem words_iff (hwords : width = 8 ∨ width ≤ 4) (hdvd : 64 ∣ samples.toNat * (8 * width))
    (hcounted : fmt.signd = 1 ∨ fmt.phys ≤ 8 → samples.toNat * (8 * width) < 4294967296)
    (hpalindrome : Palindrome fmt.pat width) :
    (∀ m data, snd_pcm_format_set_silence format m data samples =
        .ok (0, store_loop silence (samples.toNat * (8 * width) / 64) data m)) ↔
      (8 * width < 64 → ∀ i < width, fmt.pat i = 0#8) := by
  have hcount : 0 < samples.toNat * width := by
    refine Nat.mul_pos (Nat.pos_of_ne_zero fun h => hsamples (BitVec.eq_of_toNat_eq h)) hpos
  have hmul : samples.toNat * (8 * width) = 8 * (samples.toNat * width) := Nat.mul_left_comm ..
  have hbytes : samples.toNat * (8 * width) / 64 * 8 = samples.toNat * width := by omega
  unfold store_loop
  simp only [packed_overlay (show 0 < 64 / 8 by decide)]
  rw [set_silence_block_iff hfmt hphys hpos samples hsamples, show 64 / 8 = 8 from rfl, hbytes, silence_bytes_iff,
    and_iff_right hcounted]
  constructor
  · intro h hshort i hi
    have hbyte := h (width + i) (by omega)
    rwa [Nat.add_mod_left, Nat.mod_eq_of_lt hi, Nat.mod_eq_of_lt (by omega), hsilence _ (by omega),
      if_neg (by omega)] at hbyte
  · intro h i hi
    rw [hsilence _ (Nat.mod_lt i (by decide))]
    by_cases hshort : 8 * width < 64
    · rw [h hshort _ (Nat.mod_lt i hpos)]
      split
      · exact (h hshort _ (by omega)).symm
      · rfl
    · obtain rfl : width = 8 := by omega
      rw [if_pos (Nat.mod_lt i (by decide)), ← hpalindrome _ (Nat.mod_lt i (by decide))]

end Agrees

/-- The number is right for the formats whose bytes are all equal, and a whole word for those of zeros only. -/
theorem silences_agree_iff (format : Int) (fmt : SndPcmFormatData) (u : Nat) (samples : BitVec 32)
    (hfmt : format_data format = .ok fmt) (hu : u = 8 ∨ u = 16 ∨ u = 32 ∨ u = 64) (hphys : fmt.phys = u)
    (hwidth : fmt.width = fmt.phys) :
    (∃ silence, snd_pcm_format_silence_64 format = .ok silence ∧ Agrees format silence u samples) ↔
      samples = 0#32 ∨ Symmetric fmt u samples := by
  obtain ⟨width, rfl⟩ : ∃ width, u = 8 * width := ⟨u / 8, by omega⟩
  have hpos : 0 < width := by omega
  obtain ⟨silence, heq, hsilence⟩ := silence_64_eq hfmt hphys hpos hwidth
  by_cases hsamples : samples = 0#32
  · subst hsamples
    exact iff_of_true ⟨silence, heq, agrees_none ..⟩ (.inl rfl)
  · have hnative := native_iff hfmt hphys hpos hsilence samples hsamples
    have hwords := words_iff hfmt hphys hpos hsilence samples hsamples (by omega)
    have hbytes : 8 * width / 8 = width := Nat.mul_div_cancel_left width (by decide)
    constructor
    · rintro ⟨v, hv, h⟩
      obtain rfl : silence = v := Except.ok.inj (heq.symm.trans hv)
      obtain ⟨hcounted, hpalindrome⟩ := hnative.mp h.native
      rw [← hbytes] at hpalindrome
      refine .inr ⟨hpalindrome, hcounted, fun hdvd => ?_⟩
      rw [hbytes] at hpalindrome ⊢
      exact (hwords hdvd hcounted hpalindrome).mp (h.words hdvd)
    · rintro (hnone | ⟨hpalindrome, hcounted, hzero⟩)
      · exact absurd hnone hsamples
      · rw [hbytes] at hpalindrome hzero
        exact ⟨silence, heq, hnative.mpr ⟨hcounted, hpalindrome⟩,
          fun hdvd => (hwords hdvd hcounted hpalindrome).mpr (hzero hdvd)⟩

/-- Three samples of SND_PCM_FORMAT_U8, which are 0x80, and four of SND_PCM_FORMAT_S16_LE. -/
theorem silences_agree_iff_u8 :
    (∃ silence, snd_pcm_format_silence_64 1 = .ok silence ∧ Agrees 1 silence 8 3#32) ∧
      ∃ silence, snd_pcm_format_silence_64 2 = .ok silence ∧ Agrees 2 silence 16 4#32 :=
  ⟨(silences_agree_iff 1 ⟨8, 8, -EINVAL, 0, [0x80]⟩ 8 3#32 rfl (.inl rfl) rfl rfl).mpr
      (.inr ⟨by unfold Palindrome; decide, by decide, by decide⟩),
    (silences_agree_iff 2 ⟨16, 16, 1, 1, []⟩ 16 4#32 rfl (.inr (.inl rfl)) rfl rfl).mpr
      (.inr ⟨by unfold Palindrome; decide, by decide, by decide⟩)⟩

/-- A sample of SND_PCM_FORMAT_U16_LE is 0x0080, and not 0x8000. -/
theorem silences_differ : ¬ ∃ silence, snd_pcm_format_silence_64 4 = .ok silence ∧ Agrees 4 silence 16 1#32 := by
  rintro ⟨v, hv, h⟩
  have hfmt : format_data 4 = .ok ⟨16, 16, 1, 0, [0x00, 0x80]⟩ := rfl
  obtain ⟨silence, heq, hsilence⟩ := @silence_64_eq 4 _ 2 hfmt rfl (by decide) rfl
  obtain rfl : silence = v := Except.ok.inj (heq.symm.trans hv)
  have hpalindrome := ((native_iff hfmt rfl (by decide) hsilence 1#32 (by decide)).mp h.native).2 0 (by decide)
  exact absurd hpalindrome (by decide)

end Salsa.Pcm.Samples
