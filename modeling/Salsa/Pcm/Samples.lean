import Salsa.Pcm.Formats
import Mathlib.Logic.Function.Basic

/-!
# Silence and copies of areas

The samples of a channel lie in an area, from its first bit on and with its step of bits from one to the
next. The functions of `pcm.c` that work on them, with the support of 4-bit samples.
-/

namespace Salsa.Pcm.Samples

open CInt

/-- `snd_pcm_channel_area_t`, with address 0 for NULL. -/
structure SndPcmChannelArea where
  addr : Nat
  first : BitVec 32
  step : BitVec 32

/-- The bit offset is cut to an unsigned int. -/
def snd_pcm_channel_area_addr (area : SndPcmChannelArea) (offset : BitVec 64) : Nat :=
  let bitofs := (area.first.setWidth 64 + area.step.setWidth 64 * offset).setWidth 32
  area.addr + (bitofs / 8#32).toNat

def Mem.set (m : Mem) (a : Nat) (v : BitVec 8) : Mem := Function.update m a v

/-- The loop of `area_silence_4bit`, from the byte `dst` and its bit `dstbit` on. -/
def silence_4bit_loop (dst_step dstbit_step : Nat) : Nat → Nat → Nat → Mem → Mem
  | 0, _, _, m => m
  | samples + 1, dst, dstbit, m =>
    let m := m.set dst (if dstbit ≠ 0 then m dst &&& 0xf0#8 else m dst &&& 0x0f#8)
    let dst := dst + dst_step
    let dstbit := dstbit + dstbit_step
    if dstbit = 8 then silence_4bit_loop dst_step dstbit_step samples (dst + 1) 0 m
    else silence_4bit_loop dst_step dstbit_step samples dst dstbit m

def area_silence_4bit (m : Mem) (dst_area : SndPcmChannelArea) (dst_offset : BitVec 64) (samples : BitVec 32) :
    Int × Mem :=
  let dst := snd_pcm_channel_area_addr dst_area dst_offset
  let dst_step := (dst_area.step / 8#32).toNat
  let dstbit := (dst_area.first % 8#32).toNat
  let dstbit_step := (dst_area.step % 8#32).toNat
  (0, silence_4bit_loop dst_step dstbit_step samples.toNat dst dstbit m)

/-- The loop of `snd_pcm_area_silence`, from the byte `dst` on. -/
def silence_loop (format : Int) (dst_step : Nat) : Nat → Nat → Mem → C (Int × Mem)
  | 0, _, m => return (0, m)
  | samples + 1, dst, m => do
    let (_, m) ← snd_pcm_format_set_silence format m dst 1#32
    silence_loop format dst_step samples (dst + dst_step) m

def snd_pcm_area_silence (m : Mem) (dst_area : SndPcmChannelArea) (dst_offset : BitVec 64) (samples : BitVec 32)
    (format : Int) : C (Int × Mem) :=
  if dst_area.addr = 0 then return (0, m)
  else do
    let width ← snd_pcm_format_physical_width format
    if width < 8 then return area_silence_4bit m dst_area dst_offset samples
    else
      let dst := snd_pcm_channel_area_addr dst_area dst_offset
      if dst_area.step = BitVec.ofInt 32 width then
        let (_, m) ← snd_pcm_format_set_silence format m dst samples
        return (0, m)
      else silence_loop format (dst_area.step / 8#32).toNat samples.toNat dst m

/-- The loop of `area_copy_4bit`, from the bytes `src` and `dst` and their bits on. -/
def copy_4bit_loop (src_step srcbit_step dst_step dstbit_step : Nat) : Nat → Nat → Nat → Nat → Nat → Mem → Mem
  | 0, _, _, _, _, m => m
  | samples + 1, src, srcbit, dst, dstbit, m =>
    let srcval := if srcbit ≠ 0 then m src &&& 0x0f#8 else m src &&& 0xf0#8
    let m := m.set dst (if dstbit ≠ 0 then m dst &&& 0xf0#8 else m dst &&& 0x0f#8)
    let m := m.set dst (m dst ||| srcval)
    let src := src + src_step
    let srcbit := srcbit + srcbit_step
    let (src, srcbit) := if srcbit = 8 then (src + 1, 0) else (src, srcbit)
    let dst := dst + dst_step
    let dstbit := dstbit + dstbit_step
    let (dst, dstbit) := if dstbit = 8 then (dst + 1, 0) else (dst, dstbit)
    copy_4bit_loop src_step srcbit_step dst_step dstbit_step samples src srcbit dst dstbit m

def area_copy_4bit (m : Mem) (dst_area : SndPcmChannelArea) (dst_offset : BitVec 64) (src_area : SndPcmChannelArea)
    (src_offset : BitVec 64) (samples : BitVec 32) : Int × Mem :=
  let srcbit := (src_area.first % 8#32).toNat
  let srcbit_step := (src_area.step % 8#32).toNat
  let dstbit := (dst_area.first % 8#32).toNat
  let dstbit_step := (dst_area.step % 8#32).toNat
  let src := snd_pcm_channel_area_addr src_area src_offset
  let dst := snd_pcm_channel_area_addr dst_area dst_offset
  let src_step := (src_area.step / 8#32).toNat
  let dst_step := (dst_area.step / 8#32).toNat
  (0, copy_4bit_loop src_step srcbit_step dst_step dstbit_step samples.toNat src srcbit dst dstbit m)

/-- The loop of `snd_pcm_area_copy`, with `width` in bytes. -/
def copy_loop (width src_step dst_step : Nat) : Nat → Nat → Nat → Mem → C Mem
  | 0, _, _, m => .ok m
  | samples + 1, src, dst, m => do
    let m ← memcpy m dst src width
    copy_loop width src_step dst_step samples (src + src_step) (dst + dst_step) m

/-- `same_area` says whether `dst_area` and `src_area` are one pointer. -/
def snd_pcm_area_copy (m : Mem) (same_area : Bool) (dst_area : SndPcmChannelArea) (dst_offset : BitVec 64)
    (src_area : SndPcmChannelArea) (src_offset : BitVec 64) (samples : BitVec 32) (format : Int) : C (Int × Mem) :=
  if dst_area.addr = 0 then return (0, m)
  else if same_area ∧ dst_offset = src_offset then return (0, m)
  else if src_area.addr = 0 then snd_pcm_area_silence m dst_area dst_offset samples format
  else do
    let width ← snd_pcm_format_physical_width format
    if width < 8 then return area_copy_4bit m dst_area dst_offset src_area src_offset samples
    else
      let src := snd_pcm_channel_area_addr src_area src_offset
      let dst := snd_pcm_channel_area_addr dst_area dst_offset
      if src_area.step = BitVec.ofInt 32 width ∧ dst_area.step = BitVec.ofInt 32 width then
        let m ← memcpy m dst src (samples * BitVec.ofInt 32 width / 8#32).toNat
        return (0, m)
      else
        let src_step := (src_area.step / 8#32).toNat
        let dst_step := (dst_area.step / 8#32).toNat
        let m ← copy_loop (width / 8).toNat src_step dst_step samples.toNat src dst m
        return (0, m)

/-- The loop of `snd_pcm_areas_copy` over the areas of the channels, pairs of a destination and a source. -/
def areas_copy_loop (same_areas : Bool) (dst_offset src_offset frames : BitVec 64) (format : Int) :
    List (SndPcmChannelArea × SndPcmChannelArea) → Mem → C Mem
  | [], m => .ok m
  | (dst_area, src_area) :: areas, m => do
    let (_, m) ←
      snd_pcm_area_copy m same_areas dst_area dst_offset src_area src_offset (frames.setWidth 32) format
    areas_copy_loop same_areas dst_offset src_offset frames format areas m

/-- The areas of all channels are given; `same_areas` says whether `dst_areas` and `src_areas` are one pointer. -/
def snd_pcm_areas_copy (m : Mem) (same_areas : Bool) (areas : List (SndPcmChannelArea × SndPcmChannelArea))
    (dst_offset src_offset frames : BitVec 64) (format : Int) : C (Int × Mem) :=
  if areas = [] then return (-EINVAL, m)
  else if frames = 0#64 then return (-EINVAL, m)
  else do
    let m ← areas_copy_loop same_areas dst_offset src_offset frames format areas m
    return (0, m)

end Salsa.Pcm.Samples
