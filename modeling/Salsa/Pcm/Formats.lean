import Salsa.Lib.CInt
import Salsa.Errno

/-!
# Formats of samples

The table of `pcm_misc.c`, and the silence of a format.
-/

namespace Salsa.Pcm.Samples

open CInt

/-- `struct snd_pcm_format_data`; `silence` is filled up with zeros. -/
structure SndPcmFormatData where
  width : Int
  phys : Int
  le : Int
  signd : Int
  silence : List (BitVec 8)
deriving DecidableEq

/-- `_snd_pcm_formats`, in the order of the formats. -/
def _snd_pcm_formats : List SndPcmFormatData :=
  [
    -- SND_PCM_FORMAT_S8
    ⟨8, 8, -EINVAL, 1, []⟩, ⟨8, 8, -EINVAL, 0, [0x80]⟩,
    ⟨16, 16, 1, 1, []⟩, ⟨16, 16, 0, 1, []⟩, ⟨16, 16, 1, 0, [0x00, 0x80]⟩, ⟨16, 16, 0, 0, [0x80, 0x00]⟩,
    ⟨24, 32, 1, 1, []⟩, ⟨24, 32, 0, 1, []⟩,
    ⟨24, 32, 1, 0, [0x00, 0x00, 0x80, 0x00]⟩, ⟨24, 32, 0, 0, [0x00, 0x80, 0x00, 0x00]⟩,
    -- SND_PCM_FORMAT_S32_LE
    ⟨32, 32, 1, 1, []⟩, ⟨32, 32, 0, 1, []⟩,
    ⟨32, 32, 1, 0, [0x00, 0x00, 0x00, 0x80]⟩, ⟨32, 32, 0, 0, [0x80, 0x00, 0x00, 0x00]⟩,
    ⟨32, 32, 1, -EINVAL, []⟩, ⟨32, 32, 0, -EINVAL, []⟩, ⟨64, 64, 1, -EINVAL, []⟩, ⟨64, 64, 0, -EINVAL, []⟩,
    ⟨32, 32, 1, -EINVAL, []⟩, ⟨32, 32, 0, -EINVAL, []⟩,
    -- SND_PCM_FORMAT_MU_LAW
    ⟨8, 8, -EINVAL, -EINVAL, [0x7f]⟩, ⟨8, 8, -EINVAL, -EINVAL, [0x55]⟩, ⟨4, 4, -EINVAL, -EINVAL, []⟩] ++
  -- SND_PCM_FORMAT_MPEG to SND_PCM_FORMAT_SPECIAL
  List.replicate 9 ⟨-EINVAL, -EINVAL, -EINVAL, -EINVAL, []⟩ ++
  [
    -- SND_PCM_FORMAT_S24_3LE
    ⟨24, 24, 1, 1, []⟩, ⟨24, 24, 0, 1, []⟩, ⟨24, 24, 1, 0, [0x00, 0x00, 0x80]⟩, ⟨24, 24, 0, 0, [0x80, 0x00, 0x00]⟩,
    ⟨20, 24, 1, 1, []⟩, ⟨20, 24, 0, 1, []⟩, ⟨20, 24, 1, 0, [0x00, 0x00, 0x08]⟩, ⟨20, 24, 0, 0, [0x08, 0x00, 0x00]⟩,
    ⟨18, 24, 1, 1, []⟩, ⟨18, 24, 0, 1, []⟩, ⟨18, 24, 1, 0, [0x00, 0x00, 0x02]⟩, ⟨18, 24, 0, 0, [0x02, 0x00, 0x00]⟩,
    -- SND_PCM_FORMAT_G723_24, and SND_PCM_FORMAT_G723_24_1B without an entry
    ⟨3, 3, -1, -1, []⟩, ⟨0, 0, 0, 0, []⟩, ⟨5, 5, -1, -1, []⟩, ⟨0, 0, 0, 0, []⟩,
    -- SND_PCM_FORMAT_DSD_U8
    ⟨8, 8, 1, 0, [0x69]⟩, ⟨16, 16, 1, 0, [0x69, 0x69]⟩, ⟨32, 32, 1, 0, [0x69, 0x69, 0x69, 0x69]⟩,
    ⟨16, 16, 0, 0, [0x69, 0x69]⟩, ⟨32, 32, 0, 0, [0x69, 0x69, 0x69, 0x69]⟩]

/-- The entry of a format; there is none for SND_PCM_FORMAT_UNKNOWN or behind SND_PCM_FORMAT_LAST. -/
def format_data (format : Int) : C SndPcmFormatData :=
  if format < 0 then .error .read
  else
    match _snd_pcm_formats[format.toNat]? with
    | some fmt => .ok fmt
    | none => .error .read

def snd_pcm_format_physical_width (format : Int) : C Int := do
  let fmt ← format_data format
  return fmt.phys

theorem format_data_mem (format : Int) (fmt : SndPcmFormatData) (h : format_data format = .ok fmt) :
    fmt ∈ _snd_pcm_formats := by
  unfold format_data at h
  split at h
  · cases h
  · split at h
    · rename_i hget
      cases h
      exact List.mem_of_getElem? hget
    · cases h

/-- Byte `i` of the silence of the format. -/
def SndPcmFormatData.pat (fmt : SndPcmFormatData) (i : Nat) : BitVec 8 := fmt.silence.getD i 0#8

/-! ## Memory -/

abbrev Mem := Nat → BitVec 8

def memset (m : Mem) (dst : Nat) (c : BitVec 8) (n : Nat) : Mem :=
  fun a => if dst ≤ a ∧ a < dst + n then c else m a

/-- `memcpy` from memory that is not written to. -/
def memcpy_const (m : Mem) (dst : Nat) (src : Nat → BitVec 8) (n : Nat) : Mem :=
  fun a => if dst ≤ a ∧ a < dst + n then src (a - dst) else m a

/-- `memcpy`, which is not defined where the two parts overlap. -/
def memcpy (m : Mem) (dst src n : Nat) : C Mem :=
  if dst < src + n ∧ src < dst + n then .error .read
  else .ok fun a => if dst ≤ a ∧ a < dst + n then m (src + (a - dst)) else m a

/-! ## Silence -/

/-- The loop over `samples` samples of `width` bytes. -/
def pattern_loop (pat : Nat → BitVec 8) (width : Nat) : Nat → Nat → Mem → Mem
  | 0, _, m => m
  | samples + 1, dst, m => pattern_loop pat width samples (dst + width) (memcpy_const m dst pat width)

def snd_pcm_format_set_silence (format : Int) (m : Mem) (data : Nat) (samples : BitVec 32) : C (Int × Mem) :=
  if samples = 0#32 then return (0, m)
  else do
    let fmt ← format_data format
    let width := fmt.phys
    if width ≤ 0 then return (-EINVAL, m)
    else if fmt.signd = 1 ∨ width ≤ 8 then
      let bytes := samples * BitVec.ofInt 32 width / 8#32
      return (0, memset m data (fmt.pat 0) bytes.toNat)
    else return (0, pattern_loop fmt.pat (width / 8).toNat samples.toNat data m)

example : snd_pcm_format_physical_width 22 = .ok 4 := rfl
example : snd_pcm_format_physical_width 52 = .ok 32 := rfl
example : snd_pcm_format_physical_width 53 = .error .read := rfl

end Salsa.Pcm.Samples
