import Salsa.Pcm.Silence

/-!
# What is silent afterwards

The bits of the samples that are addressed, and when these are the ones that are written.
-/

namespace Salsa.Pcm.Samples

open CInt Overlay

/-- A call of `snd_pcm_area_silence`. -/
structure Silencing where
  area : SndPcmChannelArea
  offset : BitVec 64
  samples : BitVec 32
  format : Int

namespace Silencing

def silence (x : Silencing) (m : Mem) : C (Int × Mem) := snd_pcm_area_silence m x.area x.offset x.samples x.format

/-- The place of a bit of a sample, where offsets are numbers. -/
def place (x : Silencing) (ki : Nat × Nat) : Nat := 8 * x.area.addr + x.area.bit (x.offset.toNat + ki.1) + ki.2

/-- The bits that are addressed. An area at NULL has none. -/
def addressed (x : Silencing) (fmt : SndPcmFormatData) : Set (Nat × Nat) :=
  {ki | x.area.addr ≠ 0 ∧ ki.1 < x.samples.toNat ∧ ki.2 < fmt.phys.toNat}

/-- The bits that are addressed are the ones of silence, and no other bit is changed. -/
def Silenced (x : Silencing) (fmt : SndPcmFormatData) (m m' : Mem) : Prop :=
  Written (x.addressed fmt) x.place (fun ki => bits fmt.pat ki.2) (bits m) (bits m')

def Whole (fmt : SndPcmFormatData) : Prop := 0 < fmt.phys ∧ 8 ∣ fmt.phys

/-- Any memory gets silence in formats of whole bytes, and in the one of nibbles where the samples begin with one.
Other formats are refused. -/
structure Silences (x : Silencing) : Prop where
  supported : ∀ fmt, format_data x.format = .ok fmt → Whole fmt ∨ fmt.phys = 4 ∧ x.area.Aligned →
    ∀ m, ∃ m', x.silence m = .ok (0, m') ∧ x.Silenced fmt m m'
  other : (∀ fmt, format_data x.format = .ok fmt → ¬ (Whole fmt ∨ fmt.phys = 4)) →
    ∀ m, ∃ err, x.silence m = .ok (err, m) ∧ err < 0

/-- Bit offsets and sizes fit into 32 bits. -/
structure Given (x : Silencing) : Prop where
  bit : ∀ k < x.samples.toNat, x.area.bit (x.offset.toNat + k) < 4294967296
  size : ∀ fmt, format_data x.format = .ok fmt → x.samples.toNat * fmt.phys < 4294967296

/-- There is nothing to be written. -/
def Idle (x : Silencing) : Prop := x.area.addr = 0 ∨ x.samples = 0#32

/-- The samples are bytes, and the pattern repeats itself where they overlap. -/
structure Bytes (x : Silencing) (fmt : SndPcmFormatData) : Prop where
  first : 8 ∣ x.area.bit x.offset.toNat
  step : 1 < x.samples.toNat → 8 ∣ x.area.step.toNat
  repeats : 1 < x.samples.toNat → ∀ i, x.area.step.toNat / 8 + i < (fmt.phys / 8).toNat →
    fmt.pat (x.area.step.toNat / 8 + i) = fmt.pat i

def Fits (x : Silencing) : Prop :=
  ∃ fmt, format_data x.format = .ok fmt ∧
    (Whole fmt ∧ (x.Idle ∨ x.Bytes fmt) ∨
      fmt.phys = 4 ∧ (x.area.Aligned → x.Idle ∨ 8 ∣ x.area.step.toNat * x.offset.toNat))

variable {x : Silencing} {fmt : SndPcmFormatData}

theorem place_eq (x : Silencing) :
    x.place = fun ki => (8 * x.area.addr + x.area.bit x.offset.toNat) + ki.1 * x.area.step.toNat + ki.2 := by
  funext ki
  unfold place
  rw [bit_add]
  omega

/-- Nothing is addressed, and nothing is written. -/
theorem silenced_idle (hidle : x.Idle) (m : Mem) : x.Silenced fmt m m := by
  refine ⟨fun ki hki => ?_, fun p _ => rfl⟩
  rcases hidle with haddr | hsamples
  · exact absurd haddr hki.1
  · have hk := hki.2.1
    rw [hsamples] at hk
    exact absurd hk (Nat.not_lt_zero ki.1)

theorem not_idle_iff : ¬ x.Idle ↔ x.area.addr ≠ 0 ∧ 0 < x.samples.toNat := by
  unfold Idle
  rw [not_or, Nat.pos_iff_ne_zero, ← BitVec.toNat_inj]
  rfl

theorem addressed_eq (haddr : x.area.addr ≠ 0) (u width : Nat) (hphys : fmt.phys = (u * width : Nat)) :
    x.addressed fmt = sample_bits u width x.samples.toNat := by
  ext ki
  unfold addressed sample_bits
  rw [hphys, Int.toNat_natCast]
  exact and_iff_right haddr

theorem silence_null (haddr : x.area.addr = 0) (m : Mem) : x.silence m = .ok (0, m) := if_pos haddr

/-- For a supported format with memory, `out` is what the call leaves. -/
theorem silences_iff_out (hfmt : format_data x.format = .ok fmt) (hsupported : Whole fmt ∨ fmt.phys = 4)
    (out : Mem → Mem) (hcall : x.area.addr ≠ 0 → ∀ m, x.silence m = .ok (0, out m))
    (hnone : x.samples = 0#32 → ∀ m, out m = m) :
    x.Silences ↔
      (Whole fmt ∨ fmt.phys = 4 ∧ x.area.Aligned → x.Idle ∨ ∀ m, x.Silenced fmt m (out m)) := by
  constructor
  · intro hsilences hfmt'
    rw [or_iff_not_imp_left, not_idle_iff]
    rintro ⟨haddr, -⟩ m
    obtain ⟨m', hm, hsilenced⟩ := hsilences.supported fmt hfmt hfmt' m
    rw [hcall haddr] at hm
    cases hm
    exact hsilenced
  · intro hfits
    refine ⟨fun fmt' hfmt' hdemand m => ?_, fun hother => absurd hsupported (hother fmt hfmt)⟩
    obtain rfl := Except.ok.inj (hfmt.symm.trans hfmt')
    by_cases haddr : x.area.addr = 0
    · exact ⟨m, silence_null haddr m, silenced_idle (.inl haddr) m⟩
    · refine ⟨out m, hcall haddr m, ?_⟩
      rcases hfits hdemand with hidle | hall
      · have hsamples := hidle.resolve_left haddr
        rw [hnone hsamples]
        exact silenced_idle (.inr hsamples) m
      · exact hall m

/-! ## Whole bytes -/

section Whole

variable (h : x.Given) (hwhole : Whole fmt)

include h hwhole

theorem Given.silence_bytes (hfmt : format_data x.format = .ok fmt) (haddr : x.area.addr ≠ 0) (m : Mem) :
    x.silence m = .ok (0, overlay (blocks fmt.pat (fmt.phys / 8).toNat (x.area.step.toNat / 8) x.samples.toNat
      (snd_pcm_channel_area_addr x.area x.offset)) m) := by
  obtain ⟨hpos, hdvd⟩ := hwhole
  have hphys : fmt.phys = (8 * (fmt.phys / 8).toNat : Nat) := by omega
  have hsize := h.size fmt hfmt
  rw [hphys, ← Int.natCast_mul] at hsize
  exact area_silence_eq hfmt hphys (by omega) m x.area x.offset x.samples haddr (by omega)

theorem Given.silenced_bytes_iff (haddr : x.area.addr ≠ 0) (hsamples : 0 < x.samples.toNat) :
    (∀ m, x.Silenced fmt m (overlay (blocks fmt.pat (fmt.phys / 8).toNat (x.area.step.toNat / 8) x.samples.toNat
      (snd_pcm_channel_area_addr x.area x.offset)) m)) ↔ x.Bytes fmt := by
  obtain ⟨hpos, hdvd⟩ := hwhole
  have hphys : fmt.phys = (8 * (fmt.phys / 8).toNat : Nat) := by omega
  have hwidth : 0 < (fmt.phys / 8).toNat := by omega
  have hbit : x.area.bit x.offset.toNat < 4294967296 := h.bit 0 hsamples
  have haddr' := area_addr_add x.area x.offset
  rw [(wrapped_eq_zero _ _).mpr hbit, Nat.add_zero] at haddr'
  unfold Silenced
  rw [addressed_eq haddr 8 _ hphys, place_eq, haddr', blocks_written_iff (by decide) hwidth hsamples]
  constructor
  · intro hfitting
    have hfirst := hfitting.first
    exact ⟨by omega, fun hone => ⟨_, hfitting.distance hone⟩, hfitting.repeats⟩
  · intro hbytes
    have hfirst := hbytes.first
    refine ⟨by omega, fun hone => ?_, hbytes.repeats⟩
    have hstep := hbytes.step hone
    omega

theorem Given.silences_bytes_iff (hfmt : format_data x.format = .ok fmt) : x.Silences ↔ x.Idle ∨ x.Bytes fmt := by
  rw [silences_iff_out hfmt (.inl hwhole) _ (h.silence_bytes hwhole hfmt), imp_iff_right (.inl hwhole),
    or_congr_right']
  · intro hidle
    obtain ⟨haddr, hsamples⟩ := not_idle_iff.mp hidle
    exact h.silenced_bytes_iff hwhole haddr hsamples
  · intro hsamples m
    rw [hsamples]
    rfl

end Whole

/-! ## Nibbles -/

/-- Formats of less than a byte, and the ones without a width. -/
theorem silence_below (hfmt : format_data x.format = .ok fmt) (hphys : fmt.phys < 8) (haddr : x.area.addr ≠ 0)
    (m : Mem) : x.silence m = .ok (area_silence_4bit m x.area x.offset x.samples) := by
  unfold silence snd_pcm_area_silence snd_pcm_format_physical_width
  rw [if_neg haddr, hfmt, ok_bind]
  dsimp only
  rw [show (pure fmt.phys : C Int) = .ok fmt.phys from rfl, ok_bind, if_pos hphys]
  rfl

theorem nibble_silence (haligned : x.area.Aligned) (m : Mem) :
    nibble (area_silence_4bit m x.area x.offset x.samples).2 =
      overlay (blocks (fun _ => 0#4) 1 (x.area.step.toNat / 4) x.samples.toNat (x.area.start x.offset)) (nibble m) := by
  unfold area_silence_4bit
  simp only [div_eight_toNat, mod_eight_toNat]
  exact nibble_silence_loop _ _ _ _ _ m haligned.step (start_at haligned x.offset)

/-- The bits of silence are those of an empty nibble. -/
theorem silenced_nibbles (hfmt : format_data x.format = .ok fmt) (hphys : fmt.phys = 4) (haddr : x.area.addr ≠ 0)
    (m m' : Mem) :
    x.Silenced fmt m m' ↔
      Written (sample_bits 4 1 x.samples.toNat)
        (fun ki => (8 * x.area.addr + x.area.bit x.offset.toNat) + ki.1 * x.area.step.toNat + ki.2)
        (fun ki => bits (fun _ => 0#4) ki.2) (bits (nibble m)) (bits (nibble m')) := by
  have hempty : ∀ fmt ∈ _snd_pcm_formats, fmt.phys = 4 → fmt.pat 0 = 0#8 := by decide
  have hpat (i : Nat) (hi : i < 4) : bits fmt.pat i = bits (fun _ => 0#4) i := by
    unfold bits
    rw [Nat.div_eq_of_lt (b := 8) (by omega), hempty fmt (format_data_mem _ _ hfmt) hphys]
    simp
  unfold Silenced
  rw [addressed_eq haddr 4 1 hphys, place_eq, bits_nibble, bits_nibble]
  constructor
  · exact fun h => ⟨fun ki hki => (h.value ki hki).trans (hpat ki.2 hki.2), h.kept⟩
  · exact fun h => ⟨fun ki hki => (h.value ki hki).trans (hpat ki.2 hki.2).symm, h.kept⟩

theorem Given.silenced_nibbles_iff (h : x.Given) (hfmt : format_data x.format = .ok fmt) (hphys : fmt.phys = 4)
    (haligned : x.area.Aligned) (haddr : x.area.addr ≠ 0) (hsamples : 0 < x.samples.toNat) :
    (∀ m, x.Silenced fmt m (area_silence_4bit m x.area x.offset x.samples).2) ↔
      8 ∣ x.area.step.toNat * x.offset.toNat := by
  rw [← start_eq_iff haligned x.offset (h.bit 0 hsamples)]
  have hwritten := @blocks_written_iff 4 (fun _ => 0#4) 1 (x.area.step.toNat / 4) x.samples.toNat
    (x.area.start x.offset) (8 * x.area.addr + x.area.bit x.offset.toNat) x.area.step.toNat (by decide) Nat.one_pos
    hsamples
  have hall : (∀ m, x.Silenced fmt m (area_silence_4bit m x.area x.offset x.samples).2) ↔
      Fitting (fun _ => 0#4) 1 (x.area.step.toNat / 4) x.samples.toNat (x.area.start x.offset)
        (8 * x.area.addr + x.area.bit x.offset.toNat) x.area.step.toNat := by
    simp only [silenced_nibbles hfmt hphys haddr, nibble_silence haligned]
    rw [← hwritten]
    constructor
    · intro hsilenced v
      have hv := hsilenced (of_nibbles v)
      rwa [nibble_of_nibbles] at hv
    · exact fun hv m => hv (nibble m)
  have hfirst := haligned.first
  have hstep := haligned.step
  have hbit : 4 ∣ x.area.bit x.offset.toNat := Nat.dvd_add hfirst (Nat.dvd_mul_right_of_dvd hstep _)
  rw [hall]
  unfold SndPcmChannelArea.nibble
  rw [Nat.add_zero]
  constructor
  · intro hfitting
    have hstart := hfitting.first
    omega
  · intro hstart
    exact ⟨by omega, fun _ => by omega, fun _ _ _ => rfl⟩

theorem Given.silences_nibbles_iff (h : x.Given) (hfmt : format_data x.format = .ok fmt) (hphys : fmt.phys = 4) :
    x.Silences ↔ (x.area.Aligned → x.Idle ∨ 8 ∣ x.area.step.toNat * x.offset.toNat) := by
  have hnot : ¬ Whole fmt := by
    rintro ⟨-, hdvd⟩
    omega
  rw [silences_iff_out hfmt (.inr hphys) (fun m => (area_silence_4bit m x.area x.offset x.samples).2)
    (silence_below hfmt (by omega)), or_iff_right hnot, and_iff_right hphys]
  · refine imp_congr_right fun haligned => or_congr_right' fun hidle => ?_
    obtain ⟨haddr, hsamples⟩ := not_idle_iff.mp hidle
    exact h.silenced_nibbles_iff hfmt hphys haligned haddr hsamples
  · intro hsamples m
    rw [hsamples]
    rfl

/-! ## Other formats -/

/-- No call is ever refused. -/
theorem not_refused (hother : ∀ fmt, format_data x.format = .ok fmt → ¬ (Whole fmt ∨ fmt.phys = 4)) (m m' : Mem)
    (err : Int) (hcall : x.silence m = .ok (err, m')) : err = 0 := by
  by_cases haddr : x.area.addr = 0
  · rw [silence_null haddr] at hcall
    cases hcall
    rfl
  · cases hfmt : format_data x.format with
    | error fault =>
      unfold silence snd_pcm_area_silence snd_pcm_format_physical_width at hcall
      rw [if_neg haddr, hfmt] at hcall
      cases hcall
    | ok fmt =>
      have hphys : fmt.phys < 8 := by
        by_contra hphys
        refine hother fmt hfmt (.inl ⟨by omega, ?_⟩)
        exact (whole_bytes fmt (format_data_mem _ _ hfmt) (by omega)).1
      rw [silence_below hfmt hphys haddr] at hcall
      cases hcall
      rfl

theorem not_silences (hother : ∀ fmt, format_data x.format = .ok fmt → ¬ (Whole fmt ∨ fmt.phys = 4)) :
    ¬ x.Silences := by
  intro hsilences
  obtain ⟨err, hcall, herr⟩ := hsilences.other hother fun _ => 0#8
  have hzero := not_refused hother _ _ err hcall
  omega

/-- Silence is right if and only if the format is supported, and there is nothing to write or the samples are where
whole bytes are, or where an even number of nibbles leads to. -/
theorem silences_iff (x : Silencing) (h : x.Given) : x.Silences ↔ x.Fits := by
  by_cases hother : ∀ fmt, format_data x.format = .ok fmt → ¬ (Whole fmt ∨ fmt.phys = 4)
  · refine iff_of_false (not_silences hother) ?_
    rintro ⟨fmt, hfmt, ⟨hwhole, -⟩ | ⟨hphys, -⟩⟩
    · exact hother fmt hfmt (.inl hwhole)
    · exact hother fmt hfmt (.inr hphys)
  · simp only [not_forall, not_not] at hother
    obtain ⟨fmt, hfmt, hsupported⟩ := hother
    have hunique {P : SndPcmFormatData → Prop} : (∃ fmt', format_data x.format = .ok fmt' ∧ P fmt') ↔ P fmt := by
      constructor
      · rintro ⟨fmt', hfmt', hP⟩
        rwa [Except.ok.inj (hfmt.symm.trans hfmt')]
      · exact fun hP => ⟨fmt, hfmt, hP⟩
    unfold Fits
    rw [hunique]
    rcases hsupported with hwhole | hphys
    · have hne : fmt.phys ≠ 4 := by
        obtain ⟨-, hdvd⟩ := hwhole
        omega
      simp only [h.silences_bytes_iff hwhole hfmt, hwhole, hne, true_and, false_and, or_false]
    · have hnot : ¬ Whole fmt := by
        rintro ⟨-, hdvd⟩
        omega
      simp only [h.silences_nibbles_iff hfmt hphys, hnot, hphys, true_and, false_and, false_or]

/-! One sample of an area that is packed for samples of 4 bits. -/

def single (format : Int) (offset : BitVec 64) : Silencing where
  area := ⟨4096, 0#32, 4#32⟩
  offset := offset
  samples := 1#32
  format := format

theorem single_given (format : Int) (offset : BitVec 64) (hoffset : offset.toNat < 8192) :
    (single format offset).Given where
  bit := by
    intro k hk
    have hk : k < 1 := hk
    show 0 + 4 * (offset.toNat + k) < 4294967296
    omega
  size := by
    intro fmt hfmt
    have htable : ∀ fmt ∈ _snd_pcm_formats, fmt.phys < 4294967296 := by decide
    have hphys := htable fmt (format_data_mem _ _ hfmt)
    show 1 * fmt.phys < 4294967296
    omega

/-- Five frames of one channel of two with samples of SND_PCM_FORMAT_U16_LE, of which the second byte is 0x80. -/
def second_channel : Silencing where
  area := ⟨4096, 16#32, 32#32⟩
  offset := 3#64
  samples := 5#32
  format := 4

theorem second_channel_given : second_channel.Given where
  bit := by
    intro k hk
    have hk : k < 5 := hk
    show 16 + 32 * (3 + k) < 4294967296
    omega
  size := by
    intro fmt hfmt
    cases hfmt
    decide

theorem silences_second_channel : second_channel.Silences ∧ (single 22 2#64).Silences := by
  refine ⟨(silences_iff second_channel second_channel_given).mpr ⟨_, rfl, .inl ⟨⟨by decide, by decide⟩, .inr ?_⟩⟩,
    (silences_iff (single 22 2#64) (single_given 22 2#64 (by decide))).mpr ⟨_, rfl, .inr ⟨rfl, fun _ => .inr ?_⟩⟩⟩
  · refine ⟨by decide, fun _ => by decide, fun _ i hi => ?_⟩
    have hi : 32 / 8 + i < 2 := hi
    omega
  · decide

/-- A nibble is cleared for SND_PCM_FORMAT_MPEG, which has no width. -/
theorem undefined_format_is_written : ¬ ∀ x : Silencing, x.Given → x.Silences := by
  intro h
  obtain ⟨fmt, hfmt, hfits⟩ := (silences_iff (single 23 0#64) (single_given 23 0#64 (by decide))).mp
    (h _ (single_given 23 0#64 (by decide)))
  cases hfmt
  revert hfits
  rintro (⟨⟨hpos, -⟩, -⟩ | ⟨hphys, -⟩)
  · exact absurd hpos (by decide)
  · exact absurd hphys (by decide)

end Silencing

end Salsa.Pcm.Samples
