import Salsa.Pcm.Silenced

/-!
# Silence of all channels

`snd_pcm_areas_silence` goes through the areas of the channels. Areas may share memory, as those of an interleaved
buffer do, and what one channel gets must not be spoilt by another.
-/

namespace Salsa.Pcm.Samples

open CInt Overlay

/-- The loop of `snd_pcm_areas_silence`; `frames` is cut to the `unsigned int` that `samples` is. -/
def areas_silence_loop (dst_offset frames : BitVec 64) (format : Int) : List SndPcmChannelArea → Mem → C Mem
  | [], m => .ok m
  | dst_area :: areas, m => do
    let (_, m) ← snd_pcm_area_silence m dst_area dst_offset (frames.setWidth 32) format
    areas_silence_loop dst_offset frames format areas m

/-- The areas of all channels are given. -/
def snd_pcm_areas_silence (m : Mem) (areas : List SndPcmChannelArea) (dst_offset frames : BitVec 64) (format : Int) :
    C (Int × Mem) := do
  let m ← areas_silence_loop dst_offset frames format areas m
  return (0, m)

/-- A call of `snd_pcm_areas_silence`. -/
structure AreasSilencing where
  areas : List SndPcmChannelArea
  offset : BitVec 64
  frames : BitVec 64
  format : Int

namespace AreasSilencing

def silence (x : AreasSilencing) (m : Mem) : C (Int × Mem) :=
  snd_pcm_areas_silence m x.areas x.offset x.frames x.format

/-- The call for one of the channels. -/
def channel (x : AreasSilencing) (area : SndPcmChannelArea) : Silencing where
  area := area
  offset := x.offset
  samples := x.frames.setWidth 32
  format := x.format

/-- A bit of a sample of an area. -/
abbrev AreaBit := SndPcmChannelArea × (Nat × Nat)

def place (x : AreasSilencing) (p : AreaBit) : Nat := (x.channel p.1).place p.2

def addressed_by (x : AreasSilencing) (fmt : SndPcmFormatData) (areas : List SndPcmChannelArea) : Set AreaBit :=
  {p | p.1 ∈ areas ∧ p.2 ∈ (x.channel p.1).addressed fmt}

/-- The bits that are addressed: in each area that is not at NULL, those of `frames` samples, modulo 2^32. -/
def addressed (x : AreasSilencing) (fmt : SndPcmFormatData) : Set AreaBit := x.addressed_by fmt x.areas

/-- The bits that are addressed are the ones of silence, and no other bit is changed. -/
def Silenced (x : AreasSilencing) (fmt : SndPcmFormatData) (m m' : Mem) : Prop :=
  Written (x.addressed fmt) x.place (fun p => bits fmt.pat p.2.2) (bits m) (bits m')

/-- Where samples share a bit, silence has the same bit for them. -/
def Agree (x : AreasSilencing) (fmt : SndPcmFormatData) : Prop :=
  ∀ p ∈ x.addressed fmt, ∀ q ∈ x.addressed fmt, x.place p = x.place q → bits fmt.pat p.2.2 = bits fmt.pat q.2.2

/-- The format is supported, and each area for itself is one that gets silence. -/
structure Placed (x : AreasSilencing) (fmt : SndPcmFormatData) : Prop where
  format : format_data x.format = .ok fmt
  given : ∀ area ∈ x.areas, (x.channel area).Given
  supported : ∀ area ∈ x.areas, Silencing.Whole fmt ∨ fmt.phys = 4 ∧ area.Aligned
  fits : ∀ area ∈ x.areas, (x.channel area).Fits

variable {x : AreasSilencing} {fmt : SndPcmFormatData}

/-! ## One channel -/

theorem Placed.silences (h : x.Placed fmt) (area : SndPcmChannelArea) (harea : area ∈ x.areas) :
    (x.channel area).Silences := by
  have hgiven := h.given area harea
  obtain ⟨fmt', hfmt', hfits⟩ := h.fits area harea
  rcases hfits with ⟨hwhole, hbytes⟩ | ⟨hphys, hnibbles⟩
  · exact (hgiven.silences_bytes_iff hwhole hfmt').mpr hbytes
  · exact (hgiven.silences_nibbles_iff hfmt' hphys).mpr hnibbles

/-- What an area gets, as a part of what all get. -/
theorem Placed.silence_channel (h : x.Placed fmt) (area : SndPcmChannelArea) (harea : area ∈ x.areas) (m : Mem) :
    ∃ m', (x.channel area).silence m = .ok (0, m') ∧
      Written (x.addressed_by fmt [area]) x.place (fun p => bits fmt.pat p.2.2) (bits m) (bits m') := by
  obtain ⟨m', hm, hsilenced⟩ := (h.silences area harea).supported fmt h.format (h.supported area harea) m
  refine ⟨m', hm, ?_⟩
  have himage : x.addressed_by fmt [area] = (fun ki => (area, ki)) '' (x.channel area).addressed fmt := by
    ext ⟨area', ki⟩
    constructor
    · rintro ⟨harea', hki⟩
      obtain rfl := List.mem_singleton.mp harea'
      exact ⟨ki, hki, rfl⟩
    · rintro ⟨ki', hki', heq⟩
      cases heq
      exact ⟨List.mem_singleton_self area, hki'⟩
  rw [himage]
  exact Written.image hsilenced

/-! ## The loop -/

theorem addressed_by_cons (area : SndPcmChannelArea) (areas : List SndPcmChannelArea) :
    x.addressed_by fmt (area :: areas) = x.addressed_by fmt [area] ∪ x.addressed_by fmt areas := by
  ext p
  show p.1 ∈ area :: areas ∧ _ ↔ p.1 ∈ [area] ∧ _ ∨ p.1 ∈ areas ∧ _
  rw [List.mem_cons, List.mem_singleton, or_and_right]

theorem addressed_by_subset (areas : List SndPcmChannelArea) (hsub : ∀ area ∈ areas, area ∈ x.areas) :
    x.addressed_by fmt areas ⊆ x.addressed fmt :=
  fun p hp => ⟨hsub p.1 hp.1, hp.2⟩

/-- The areas of what is left of the list, on top of what was done before. -/
theorem Placed.silence_loop (h : x.Placed fmt) (hagree : x.Agree fmt) (areas : List SndPcmChannelArea)
    (hsub : ∀ area ∈ areas, area ∈ x.areas) (m : Mem) :
    ∃ m', areas_silence_loop x.offset x.frames x.format areas m = .ok m' ∧
      Written (x.addressed_by fmt areas) x.place (fun p => bits fmt.pat p.2.2) (bits m) (bits m') := by
  induction areas generalizing m with
  | nil => exact ⟨m, rfl, fun p hp => absurd hp.1 List.not_mem_nil, fun p _ => rfl⟩
  | cons area areas ih =>
    have harea := hsub area List.mem_cons_self
    have hrest : ∀ area' ∈ areas, area' ∈ x.areas := fun area' h' => hsub area' (List.mem_cons_of_mem _ h')
    obtain ⟨m₁, hm₁, hfirst⟩ := h.silence_channel area harea m
    obtain ⟨m₂, hm₂, hlater⟩ := ih hrest m₁
    refine ⟨m₂, ?_, ?_⟩
    · unfold areas_silence_loop
      rw [show snd_pcm_area_silence m area x.offset (x.frames.setWidth 32) x.format = .ok (0, m₁) from hm₁, ok_bind]
      exact hm₂
    · rw [addressed_by_cons]
      refine hfirst.append hlater fun p hp q hq => hagree p ?_ q ?_
      · exact addressed_by_subset [area] (fun a ha => List.mem_singleton.mp ha ▸ harea) hp
      · exact addressed_by_subset areas hrest hq

/-- All channels get silence in any memory if and only if they agree on the bits that they share; then no other bit
is changed. -/
theorem areas_silenced_iff (x : AreasSilencing) (fmt : SndPcmFormatData) (h : x.Placed fmt) :
    (∀ m, ∃ m', x.silence m = .ok (0, m') ∧ x.Silenced fmt m m') ↔ x.Agree fmt := by
  constructor
  · intro hall p hp q hq hplace
    obtain ⟨m', -, hsilenced⟩ := hall fun _ => 0#8
    exact hsilenced.agree hp hq hplace
  · intro hagree m
    obtain ⟨m', hm, hwritten⟩ := h.silence_loop hagree x.areas (fun _ harea => harea) m
    refine ⟨m', ?_, hwritten⟩
    unfold silence snd_pcm_areas_silence
    rw [hm, ok_bind]
    rfl

/-! Two channels of 16 bits that take turns. Of 2^32 + 1 frames, one is left. -/

def interleaved : AreasSilencing where
  areas := [⟨4096, 0#32, 32#32⟩, ⟨4096, 16#32, 32#32⟩]
  offset := 3#64
  frames := 4294967297#64
  format := 2

theorem interleaved_samples (area : SndPcmChannelArea) : (interleaved.channel area).samples.toNat = 1 := by
  show ((4294967297#64).setWidth 32).toNat = 1
  decide

theorem interleaved_placed : interleaved.Placed ⟨16, 16, 1, 1, []⟩ where
  format := rfl
  given := by
    intro area harea
    have hfirst : area.first.toNat + area.step.toNat * 4 < 4294967296 := by
      revert area
      decide
    constructor
    · intro k hk
      rw [interleaved_samples] at hk
      have hle : area.step.toNat * (3 + k) ≤ area.step.toNat * 4 := Nat.mul_le_mul_left _ (by omega)
      show area.first.toNat + area.step.toNat * (3 + k) < 4294967296
      omega
    · intro fmt hfmt
      cases hfmt
      rw [interleaved_samples]
      decide
  supported := fun _ _ => .inl ⟨by decide, by decide⟩
  fits := by
    intro area harea
    have hone : ¬ 1 < (interleaved.channel area).samples.toNat := by
      rw [interleaved_samples]
      exact Nat.lt_irrefl 1
    refine ⟨_, rfl, .inl ⟨⟨by decide, by decide⟩, .inr ⟨?_, fun h => absurd h hone, fun h => absurd h hone⟩⟩⟩
    revert area
    decide

theorem interleaved_silenced : ∃ m', interleaved.silence (fun _ => 255#8) = .ok (0, m') ∧
    interleaved.Silenced ⟨16, 16, 1, 1, []⟩ (fun _ => 255#8) m' := by
  refine (areas_silenced_iff interleaved _ interleaved_placed).mpr ?_ _
  intro p _ q _ _
  unfold bits SndPcmFormatData.pat
  simp

end AreasSilencing

end Salsa.Pcm.Samples
