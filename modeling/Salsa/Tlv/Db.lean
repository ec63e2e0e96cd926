import Salsa.Errno
import Salsa.Lib.CInt

/-!
# dB information

The TLV parser and the dB conversions of `control.c`, built without floating point.
-/

namespace Salsa.Tlv

open CInt

def SND_CTL_TLVT_CONTAINER : BitVec 32 := 0#32
def SND_CTL_TLVT_DB_SCALE : BitVec 32 := 1#32
def SND_CTL_TLVT_DB_LINEAR : BitVec 32 := 2#32
def SND_CTL_TLVT_DB_RANGE : BitVec 32 := 3#32
def SND_CTL_TLVT_DB_MINMAX : BitVec 32 := 4#32
def SND_CTL_TLVT_DB_MINMAX_MUTE : BitVec 32 := 5#32

def SND_CTL_TLV_DB_GAIN_MUTE : Int := -9999999

def MAX_TLV_RANGE_SIZE : Nat := 256

def int_index (size : BitVec 32) : Nat := (size.toNat + 3) / 4

/-! ## The parser -/

/-- The types that the parser takes for dB information. -/
def is_dB_type (type : BitVec 32) : Bool :=
  type == SND_CTL_TLVT_DB_SCALE || type == SND_CTL_TLVT_DB_MINMAX
    || type == SND_CTL_TLVT_DB_MINMAX_MUTE || type == SND_CTL_TLVT_DB_RANGE

mutual

/-- The TLV at word `pos`; returns the result and `*db_tlvp`, a position or NULL. -/
def parse_dB_info (buf : Words) : Nat → Nat → BitVec 32 → C (Int × Option Nat)
  | 0, _, _ => .error .diverge
  | fuel + 1, pos, tlv_size => do
    let type ← buf.read pos
    let size ← buf.read (pos + 1)
    let tlv_size := tlv_size - 8#32
    if size > tlv_size then return (-EINVAL, none)
    else if type = SND_CTL_TLVT_CONTAINER then
      parse_container buf fuel (pos + 2) (BitVec.ofNat 32 (int_index size * 4))
    else if is_dB_type type then return (cut (size.toNat + 8), some pos)
    else return (0, none)

/-- The loop over the TLVs in a container, of which `size` bytes are left. -/
def parse_container (buf : Words) : Nat → Nat → BitVec 32 → C (Int × Option Nat)
  | 0, _, _ => .error .diverge
  | fuel + 1, pos, size =>
    if size > 0#32 then do
      let (err, db_tlvp) ← parse_dB_info buf fuel pos size
      if err ≠ 0 then return (err, db_tlvp)
      else
        let len := int_index (← buf.read (pos + 1)) + 2
        parse_container buf fuel (pos + len) (size - BitVec.ofNat 32 (len * 4))
    else return (-EINVAL, none)

end

/-- Two calls in a row go two words on, so as many calls as there are bytes come to an end. -/
def snd_tlv_parse_dB_info (tlv : Words) (tlv_size : BitVec 32) : C (Int × Option Nat) :=
  parse_dB_info tlv (tlv_size.toNat + 2) 0 tlv_size

theorem parse_dB_block (tlv : Words) (tlv_size type size : BitVec 32) (htype : tlv.read 0 = .ok type)
    (hsize : tlv.read 1 = .ok size) (hfits : ¬ size > tlv_size - 8#32) (hdb : is_dB_type type) :
    snd_tlv_parse_dB_info tlv tlv_size = .ok (cut (size.toNat + 8), some 0) := by
  have hcontainer : type ≠ SND_CTL_TLVT_CONTAINER := by
    intro h
    rw [h] at hdb
    exact absurd hdb (by decide)
  unfold snd_tlv_parse_dB_info parse_dB_info
  rw [htype, hsize]
  simp only [bind, Except.bind, hfits, hcontainer, hdb, if_true, if_false]
  rfl

theorem parse_empty_container (tlv : Words) (tlv_size : BitVec 32)
    (htype : tlv.read 0 = .ok SND_CTL_TLVT_CONTAINER) (hsize : tlv.read 1 = .ok 0#32) :
    snd_tlv_parse_dB_info tlv tlv_size = .ok (-EINVAL, none) := by
  have hfits : ¬ 0#32 > tlv_size - 8#32 := BitVec.not_lt_zero
  unfold snd_tlv_parse_dB_info parse_dB_info parse_container
  rw [htype, hsize]
  simp only [bind, Except.bind, hfits, if_true, if_false]
  rfl

/-! ## From volumes to gains -/

def tlv_to_dB_scale (tlv : Words) (rangemin _rangemax volume : Int) : C (Int × Option Int) := do
  let min := (← tlv.read 2).toInt
  let step := ((← tlv.read 3) &&& 0xffff#32).toNat
  let mute := ((← tlv.read 3) >>> 16) &&& 1#32
  if mute ≠ 0#32 ∧ volume = rangemin then return (0, some SND_CTL_TLV_DB_GAIN_MUTE)
  else return (0, some (← long ((← long ((← long (volume - rangemin)) * step)) + min)))

def tlv_to_dB_minmax (tlv : Words) (rangemin rangemax volume : Int) : C (Int × Option Int) := do
  let mindb := (← tlv.read 2).toInt
  let maxdb := (← tlv.read 3).toInt
  if volume ≤ rangemin ∨ rangemax ≤ rangemin then
    if (← tlv.read 0) = SND_CTL_TLVT_DB_MINMAX_MUTE then return (0, some SND_CTL_TLV_DB_GAIN_MUTE)
    else return (0, some mindb)
  else if volume ≥ rangemax then return (0, some maxdb)
  else
    let product ← long ((← int (maxdb - mindb)) * (← long (volume - rangemin)))
    return (0, some (← long ((← divide product (← long (rangemax - rangemin))) + mindb)))

mutual

/-- Returns the status and what it writes to `*db_gain`. -/
def convert_to_dB : Nat → Words → Int → Int → Int → C (Int × Option Int)
  | 0, _, _, _, _ => .error .diverge
  | fuel + 1, tlv, rangemin, rangemax, volume => do
    let type ← tlv.read 0
    if type = SND_CTL_TLVT_DB_RANGE then
      let len := int_index (← tlv.read 1)
      if len > MAX_TLV_RANGE_SIZE then return (-EINVAL, none)
      else to_dB_range_loop fuel tlv len 2 volume
    else if type = SND_CTL_TLVT_DB_SCALE then tlv_to_dB_scale tlv rangemin rangemax volume
    else if type = SND_CTL_TLVT_DB_MINMAX ∨ type = SND_CTL_TLVT_DB_MINMAX_MUTE then
      tlv_to_dB_minmax tlv rangemin rangemax volume
    else return (-EINVAL, none)

/-- The loop of `tlv_to_dB_range`. -/
def to_dB_range_loop : Nat → Words → Nat → Nat → Int → C (Int × Option Int)
  | 0, _, _, _, _ => .error .diverge
  | fuel + 1, tlv, len, pos, volume =>
    if pos + 4 ≤ len then do
      let rangemin := (← tlv.read pos).toInt
      let rangemax := (← tlv.read (pos + 1)).toInt
      if volume ≥ rangemin ∧ volume ≤ rangemax then
        convert_to_dB fuel (tlv.skip (pos + 2)) rangemin rangemax volume
      else to_dB_range_loop fuel tlv len (pos + 3 + int_index (← tlv.read (pos + 3)) + 1) volume
    else return (-EINVAL, none)

end

def snd_tlv_convert_to_dB (tlv : Words) (rangemin rangemax volume : Int) : C (Int × Option Int) :=
  convert_to_dB (tlv.size + 2) tlv rangemin rangemax volume

/-! ## The range of gains -/

def tlv_range_dB_scale (tlv : Words) (rangemin rangemax : Int) : C (Int × Option (Int × Int)) := do
  let w := ← tlv.read 3
  let min ← if w &&& 0x10000#32 ≠ 0#32 then pure SND_CTL_TLV_DB_GAIN_MUTE
    else (BitVec.toInt ·) <$> tlv.read 2
  let step := (w &&& 0xffff#32).toNat
  let max ← long ((← tlv.read 2).toInt + (← long (step * (← long (rangemax - rangemin)))))
  return (0, some (min, max))

mutual

/-- `out` is what `*min` and `*max` hold before, and after it; `none` where nothing was written. -/
def get_dB_range : Nat → Words → Int → Int → Option (Int × Int) → C (Int × Option (Int × Int))
  | 0, _, _, _, _ => .error .diverge
  | fuel + 1, tlv, rangemin, rangemax, out => do
    let type ← tlv.read 0
    if type = SND_CTL_TLVT_DB_RANGE then
      let len := int_index (← tlv.read 1)
      if len > MAX_TLV_RANGE_SIZE then return (-EINVAL, out)
      else range_dB_range_loop fuel tlv len 2 rangemax out
    else if type = SND_CTL_TLVT_DB_SCALE then tlv_range_dB_scale tlv rangemin rangemax
    else if type = SND_CTL_TLVT_DB_MINMAX ∨ type = SND_CTL_TLVT_DB_LINEAR then
      return (0, some ((← tlv.read 2).toInt, (← tlv.read 3).toInt))
    else if type = SND_CTL_TLVT_DB_MINMAX_MUTE then
      return (0, some (SND_CTL_TLV_DB_GAIN_MUTE, (← tlv.read 3).toInt))
    else return (-EINVAL, out)

/-- The loop of `tlv_range_dB_range`. A sub-range that succeeds without a result leaves `rmin`
and `rmax` uninitialized. -/
def range_dB_range_loop : Nat → Words → Nat → Nat → Int → Option (Int × Int) →
    C (Int × Option (Int × Int))
  | 0, _, _, _, _, _ => .error .diverge
  | fuel + 1, tlv, len, pos, rangemax, out =>
    if pos + 4 ≤ len then do
      let submin := (← tlv.read pos).toInt
      let submax := (← tlv.read (pos + 1)).toInt
      let submax := if rangemax < submax then rangemax else submax
      match ← get_dB_range fuel (tlv.skip (pos + 2)) submin submax none with
      | (err, sub) =>
        if err < 0 then return (err, out)
        else
          match sub, out with
          | none, _ => .error .uninitialized
          | some (rmin, rmax), out =>
            let out ← if pos + 2 > 4 then
                match out with
                | none => .error .uninitialized
                | some (min, max) =>
                  pure (if rmin < min then rmin else min, if rmax > max then rmax else max)
              else pure (rmin, rmax)
            if rangemax = submax then return (0, some out)
            else
              range_dB_range_loop fuel tlv len (pos + 3 + int_index (← tlv.read (pos + 3)) + 1) rangemax
                (some out)
    else return (0, out)

end

def snd_tlv_get_dB_range (tlv : Words) (rangemin rangemax : Int) (out : Option (Int × Int)) :
    C (Int × Option (Int × Int)) :=
  get_dB_range (tlv.size + 2) tlv rangemin rangemax out

theorem get_dB_range_minmax (tlv : Words) (rangemin rangemax : Int) (out : Option (Int × Int))
    (mindb maxdb : BitVec 32) (htype : tlv.read 0 = .ok SND_CTL_TLVT_DB_MINMAX)
    (hmin : tlv.read 2 = .ok mindb) (hmax : tlv.read 3 = .ok maxdb) :
    snd_tlv_get_dB_range tlv rangemin rangemax out = .ok (0, some (mindb.toInt, maxdb.toInt)) := by
  unfold snd_tlv_get_dB_range get_dB_range
  rw [htype, hmin, hmax]
  rfl

/-! ## From gains to volumes -/

def _tlv_from_dB_minmax (rangemin rangemax db_gain xdir min max : Int) (have_mute : Bool) : C Int :=
  if db_gain ≤ min then
    if db_gain > SND_CTL_TLV_DB_GAIN_MUTE ∧ xdir > 0 ∧ have_mute then long (rangemin + 1)
    else return rangemin
  else if db_gain ≥ max then return rangemax
  else do
    let v ← long ((← long (db_gain - min)) * (← long (rangemax - rangemin)))
    let v ← if xdir > 0 then do long (v + (← int ((← int (max - min)) - 1))) else pure v
    long ((← divide v (← int (max - min))) + rangemin)

def tlv_from_dB_scale (tlv : Words) (rangemin rangemax db_gain xdir : Int) : C (Int × Option Int) := do
  let min := (← tlv.read 2).toInt
  let step := ((← tlv.read 3) &&& 0xffff#32).toNat
  let max ← int (min + cut (← long (step * (← long (rangemax - rangemin)))))
  let have_mute := (← tlv.read 3) &&& 0x10000#32 != 0#32
  return (0, some (← _tlv_from_dB_minmax rangemin rangemax db_gain xdir min max have_mute))

def tlv_from_dB_minmax (tlv : Words) (rangemin rangemax db_gain xdir : Int) : C (Int × Option Int) := do
  let min := (← tlv.read 2).toInt
  let max := (← tlv.read 3).toInt
  let have_mute := (← tlv.read 0) == SND_CTL_TLVT_DB_MINMAX_MUTE
  return (0, some (← _tlv_from_dB_minmax rangemin rangemax db_gain xdir min max have_mute))

mutual

/-- Returns the status and what it writes to `*value`. -/
def convert_from_dB : Nat → Words → Int → Int → Int → Int → C (Int × Option Int)
  | 0, _, _, _, _, _ => .error .diverge
  | fuel + 1, tlv, rangemin, rangemax, db_gain, xdir => do
    let type ← tlv.read 0
    if type = SND_CTL_TLVT_DB_RANGE then
      let len := int_index (← tlv.read 1)
      if len < 6 ∨ len > MAX_TLV_RANGE_SIZE then return (-EINVAL, none)
      else from_dB_range_loop fuel tlv len 2 0 none rangemax db_gain xdir
    else if type = SND_CTL_TLVT_DB_SCALE then tlv_from_dB_scale tlv rangemin rangemax db_gain xdir
    else if type = SND_CTL_TLVT_DB_MINMAX ∨ type = SND_CTL_TLVT_DB_MINMAX_MUTE then
      tlv_from_dB_minmax tlv rangemin rangemax db_gain xdir
    else return (-EINVAL, none)

/-- The loop of `tlv_from_dB_range`, with `dbmin` and `dbmax` as the round before left them. -/
def from_dB_range_loop : Nat → Words → Nat → Nat → Int → Option (Int × Int) → Int → Int → Int →
    C (Int × Option Int)
  | 0, _, _, _, _, _, _, _, _ => .error .diverge
  | fuel + 1, tlv, len, pos, prev_submax, db, rangemax, db_gain, xdir =>
    if pos + 4 ≤ len then do
      let submin := (← tlv.read pos).toInt
      let submax := (← tlv.read (pos + 1)).toInt
      let pos := pos + 2
      let submax := if rangemax < submax then rangemax else submax
      let (err, db) ← get_dB_range fuel (tlv.skip (pos + 2)) submin submax db
      match db with
      | none => .error .uninitialized
      | some (dbmin, dbmax) =>
        if err = 0 ∧ db_gain ≥ dbmin ∧ db_gain ≤ dbmax then
          convert_from_dB fuel (tlv.skip (pos + 2)) submin submax db_gain xdir
        else if db_gain < dbmin then
          return (0, some (if xdir > 0 ∨ pos = 2 then submin else prev_submax))
        else if rangemax = submax then return (0, some submax)
        else
          from_dB_range_loop fuel tlv len (pos + int_index (← tlv.read (pos + 3)) + 4) submax
            (some (dbmin, dbmax)) rangemax db_gain xdir
    else return (0, some prev_submax)

end

def snd_tlv_convert_from_dB (tlv : Words) (rangemin rangemax db_gain xdir : Int) :
    C (Int × Option Int) :=
  convert_from_dB (tlv.size + 2) tlv rangemin rangemax db_gain xdir

end Salsa.Tlv
