import Salsa.Mixer.Elems
import Salsa.Mixer.Volume
import Salsa.Lib.Bits
import Mathlib.Data.BitVec

/-!
# Values of mixer elements

The setters and getters of a mixer element. Its items cache the values of their channels, which
decide whether there is something to write.
-/

namespace Salsa.Mixer.Cache

open CInt
open Volume (SndSelemVolItem Hw Write USR_IDX RAW_IDX convert_from_user)

/-- `snd_selem_sw_item_t`, with a bit for each channel. -/
structure SndSelemSwItem where
  channels : Nat
  fits : channels ≤ 32
  sw : BitVec 32

/-- `snd_selem_enum_item_t` -/
structure SndSelemEnumItem where
  channels : Nat
  items : BitVec 32
  item : Nat → BitVec 32

/-- The items by address, each kind apart. -/
structure Items where
  vol : Nat → SndSelemVolItem
  sw : Nat → SndSelemSwItem
  enum : Nat → SndSelemEnumItem

/-- The value returned, the items and what was written to the hardware. -/
abbrev Outcome := Int × Items × List Write

/-- An access to slot `i` of `n`. -/
def access (n i : Nat) : C Unit := if i < n then .ok () else .error .read

def Items.set_vol (m : Items) (it : Nat) (str : SndSelemVolItem) : Items :=
  { m with vol := Function.update m.vol it str }

def Items.set_sw (m : Items) (it : Nat) (str : SndSelemSwItem) : Items :=
  { m with sw := Function.update m.sw it str }

def Items.set_enum (m : Items) (it : Nat) (eitem : SndSelemEnumItem) : Items :=
  { m with enum := Function.update m.enum it eitem }

@[simp] theorem set_vol_self (m : Items) (it : Nat) (str : SndSelemVolItem) : (m.set_vol it str).vol it = str :=
  Function.update_self ..

@[simp] theorem set_sw_self (m : Items) (it : Nat) (str : SndSelemSwItem) : (m.set_sw it str).sw it = str :=
  Function.update_self ..

@[simp] theorem set_enum_self (m : Items) (it : Nat) (eitem : SndSelemEnumItem) :
    (m.set_enum it eitem).enum it = eitem := Function.update_self ..

/-- `snd_hctl_elem_read` and `snd_hctl_elem_write`, with a value set for one channel in between. -/
def read_then_write (hw : Hw) (channel : Nat) (value : Int) : Int × List Write :=
  if hw.read_errno ≠ 0 then (-(hw.read_errno : Int), [])
  else
    (-(hw.write_errno : Int), [{ channel, read := hw.values, values := Function.update hw.values channel value }])

/-! ## Volumes -/

/-- The slots of the channel are touched if the value is in the range. -/
def _snd_selem_update_volume (hw : Hw) (m : Items) (str : Option Nat) (channel : Nat) (value : Int) : C Outcome :=
  match str with
  | none => return (-EINVAL, m, [])
  | some it => do
    let str := m.vol it
    if str.min ≤ value ∧ value ≤ str.max then
      access (2 * str.channels) (USR_IDX channel)
      access (2 * str.channels) (RAW_IDX channel)
    let (err, str, written) ← Volume._snd_selem_update_volume hw str channel value
    return (err, m.set_vol it str, written)

/-- `channel >= vol->head.channels` gives the first one. -/
def channel_or_first (channels channel : Nat) : Nat := if channel ≥ channels then 0 else channel

def _snd_mixer_selem_get_volume (m : Items) (elem : SndMixerElem) (type : Fin 5) (channel : Nat) :
    C (Int × Option Int) :=
  match elem.items type with
  | none => return (-EINVAL, none)
  | some it => do
    let vol := m.vol it
    let channel := channel_or_first vol.channels channel
    access (2 * vol.channels) (USR_IDX channel)
    return (0, some (vol.vol (USR_IDX channel)))

def snd_mixer_selem_set_playback_volume (hw : Hw) (m : Items) (elem : SndMixerElem) (channel : Nat) (value : Int) :
    C Outcome :=
  _snd_selem_update_volume hw m (elem.items SND_SELEM_ITEM_PVOLUME) channel value

def snd_mixer_selem_set_capture_volume (hw : Hw) (m : Items) (elem : SndMixerElem) (channel : Nat) (value : Int) :
    C Outcome :=
  _snd_selem_update_volume hw m (elem.items SND_SELEM_ITEM_CVOLUME) channel value

def snd_mixer_selem_get_playback_volume (m : Items) (elem : SndMixerElem) (channel : Nat) : C (Int × Option Int) :=
  _snd_mixer_selem_get_volume m elem SND_SELEM_ITEM_PVOLUME channel

def snd_mixer_selem_get_capture_volume (m : Items) (elem : SndMixerElem) (channel : Nat) : C (Int × Option Int) :=
  _snd_mixer_selem_get_volume m elem SND_SELEM_ITEM_CVOLUME channel

/-! ## Switches -/

/-- `1 << channel` -/
def shift (channel : Nat) : C (BitVec 32) := if channel < 32 then .ok (1#32 <<< channel) else .error .overflow

def update_switch (hw : Hw) (m : Items) (elem : SndMixerElem) (type : Fin 5) (channel : Nat) (value : Int) :
    C Outcome :=
  match elem.items type with
  | none => return (-EINVAL, m, [])
  | some it => do
    let str := m.sw it
    let bit ← shift channel
    let sw := if value ≠ 0 then str.sw ||| bit else str.sw &&& ~~~bit
    if str.sw = sw then return (0, m, [])
    else
      let (err, written) := read_then_write hw channel (if value ≠ 0 then 1 else 0)
      return (err, m.set_sw it { str with sw }, written)

/-- The loop of `update_switch_all` from channel `i` on, over `n` channels. -/
def update_switch_loop (hw : Nat → Hw) (elem : SndMixerElem) (type : Fin 5) (value : Int) :
    Nat → Nat → Items → C Outcome
  | 0, _, m => return (0, m, [])
  | n + 1, i, m => do
    let (err, m, written) ← update_switch (hw i) m elem type i value
    if err < 0 then return (err, m, written)
    else
      let (err, m, more) ← update_switch_loop hw elem type value n (i + 1) m
      return (err, m, written ++ more)

def update_switch_all (hw : Nat → Hw) (m : Items) (elem : SndMixerElem) (type : Fin 5) (value : Int) : C Outcome :=
  match elem.items type with
  | none => return (-EINVAL, m, [])
  | some it => update_switch_loop hw elem type value (m.sw it).channels 0 m

/-- The slot of the capture switch; a global one is set as the playback switch. -/
def capture_switch_type (elem : SndMixerElem) : Fin 5 :=
  if elem.caps &&& SND_SM_CAP_GSWITCH ≠ 0#32 then SND_SELEM_ITEM_PSWITCH else SND_SELEM_ITEM_CSWITCH

def snd_mixer_selem_set_playback_switch (hw : Hw) (m : Items) (elem : SndMixerElem) (channel : Nat) (value : Int) :
    C Outcome :=
  update_switch hw m elem SND_SELEM_ITEM_PSWITCH channel value

def snd_mixer_selem_set_playback_switch_all (hw : Nat → Hw) (m : Items) (elem : SndMixerElem) (value : Int) :
    C Outcome :=
  update_switch_all hw m elem SND_SELEM_ITEM_PSWITCH value

def snd_mixer_selem_set_capture_switch (hw : Hw) (m : Items) (elem : SndMixerElem) (channel : Nat) (value : Int) :
    C Outcome :=
  update_switch hw m elem (capture_switch_type elem) channel value

def snd_mixer_selem_set_capture_switch_all (hw : Nat → Hw) (m : Items) (elem : SndMixerElem) (value : Int) :
    C Outcome :=
  update_switch_all hw m elem (capture_switch_type elem) value

def _snd_mixer_selem_get_switch (m : Items) (elem : SndMixerElem) (type : Fin 5) (channel : Nat) :
    C (Int × Option Int) :=
  match elem.items type with
  | none => return (-EINVAL, none)
  | some it => do
    let sw := m.sw it
    let bit ← shift (channel_or_first sw.channels channel)
    return (0, some (if sw.sw &&& bit ≠ 0#32 then 1 else 0))

def snd_mixer_selem_get_playback_switch (m : Items) (elem : SndMixerElem) (channel : Nat) : C (Int × Option Int) :=
  _snd_mixer_selem_get_switch m elem SND_SELEM_ITEM_PSWITCH channel

def snd_mixer_selem_get_capture_switch (m : Items) (elem : SndMixerElem) (channel : Nat) : C (Int × Option Int) :=
  _snd_mixer_selem_get_switch m elem SND_SELEM_ITEM_CSWITCH channel

/-! ## Enumerations -/

def snd_mixer_selem_set_enum_item (hw : Hw) (m : Items) (elem : SndMixerElem) (channel : Nat) (item : BitVec 32) :
    C Outcome :=
  match elem.items SND_SELEM_ITEM_ENUM with
  | none => return (-EINVAL, m, [])
  | some it => do
    let eitem := m.enum it
    access eitem.channels channel
    if eitem.item channel = item then return (0, m, [])
    else
      let (err, written) := read_then_write hw channel item.toNat
      return (err, m.set_enum it { eitem with item := Function.update eitem.item channel item }, written)

def snd_mixer_selem_get_enum_item (m : Items) (elem : SndMixerElem) (channel : Nat) : C (Int × Option (BitVec 32)) :=
  match elem.items SND_SELEM_ITEM_ENUM with
  | none => return (-EINVAL, none)
  | some it =>
    let eitem := m.enum it
    if channel ≥ eitem.channels then return (-EINVAL, none)
    else do
      access eitem.channels channel
      return (0, some (eitem.item channel))

/-! ## All five -/

/-- The values that an element has for each channel. -/
inductive Control where
  | playback_volume
  | capture_volume
  | playback_switch
  | capture_switch
  | enum_item
deriving DecidableEq

def set_channel (hw : Hw) (m : Items) (elem : SndMixerElem) (control : Control) (channel : Nat) (value : Int) :
    C Outcome :=
  match control with
  | .playback_volume => snd_mixer_selem_set_playback_volume hw m elem channel value
  | .capture_volume => snd_mixer_selem_set_capture_volume hw m elem channel value
  | .playback_switch => snd_mixer_selem_set_playback_switch hw m elem channel value
  | .capture_switch => snd_mixer_selem_set_capture_switch hw m elem channel value
  | .enum_item => snd_mixer_selem_set_enum_item hw m elem channel (BitVec.ofInt 32 value)

def get_channel (m : Items) (elem : SndMixerElem) (control : Control) (channel : Nat) : C (Int × Option Int) :=
  match control with
  | .playback_volume => snd_mixer_selem_get_playback_volume m elem channel
  | .capture_volume => snd_mixer_selem_get_capture_volume m elem channel
  | .playback_switch => snd_mixer_selem_get_playback_switch m elem channel
  | .capture_switch => snd_mixer_selem_get_capture_switch m elem channel
  | .enum_item => do
    let (err, item) ← snd_mixer_selem_get_enum_item m elem channel
    return (err, item.map fun item => (item.toNat : Int))

/-! ## What a setter does -/

theorem access_ok {n i : Nat} (h : i < n) : access n i = .ok () := if_pos h

theorem access_error {n i : Nat} (h : ¬ i < n) : access n i = .error .read := if_neg h

section Setters

variable (hw : Hw) (m : Items) (elem : SndMixerElem)

theorem update_volume_inside (it channel : Nat) (value : Int) (h : channel < (m.vol it).channels) :
    _snd_selem_update_volume hw m (some it) channel value = do
      let (err, str, written) ← Volume._snd_selem_update_volume hw (m.vol it) channel value
      return (err, m.set_vol it str, written) := by
  have husr : USR_IDX channel < 2 * (m.vol it).channels := by
    unfold USR_IDX
    omega
  have hraw : RAW_IDX channel < 2 * (m.vol it).channels := by
    unfold RAW_IDX
    omega
  unfold _snd_selem_update_volume
  dsimp only
  rw [access_ok husr, access_ok hraw]
  split <;> rfl

theorem update_volume_outside (it channel : Nat) (value : Int) (h : ¬ channel < (m.vol it).channels)
    (hmin : (m.vol it).min ≤ value) (hmax : value ≤ (m.vol it).max) :
    _snd_selem_update_volume hw m (some it) channel value = .error .read := by
  have husr : ¬ USR_IDX channel < 2 * (m.vol it).channels := by
    unfold USR_IDX
    omega
  unfold _snd_selem_update_volume
  dsimp only
  rw [if_pos ⟨hmin, hmax⟩, access_error husr]
  rfl

theorem update_volume_refused (it channel : Nat) (value : Int) (h : value < (m.vol it).min ∨ value > (m.vol it).max) :
    _snd_selem_update_volume hw m (some it) channel value = .ok (0, m.set_vol it (m.vol it), []) := by
  unfold _snd_selem_update_volume Volume._snd_selem_update_volume
  dsimp only
  rw [if_neg (by omega), if_pos h]
  rfl

/-- A new value for the user, and what is left to be done for the hardware. -/
theorem volume_update_eq (str : SndSelemVolItem) (channel : Nat) (value : Int) (hmin : str.min ≤ value)
    (hmax : value ≤ str.max) (hne : value ≠ str.vol (USR_IDX channel)) :
    Volume._snd_selem_update_volume hw str channel value = do
      let raw ← convert_from_user str value
      let vol := Function.update str.vol (USR_IDX channel) value
      if raw = str.vol (RAW_IDX channel) then return (0, { str with vol }, [])
      else
        return ((read_then_write hw channel raw).1, { str with vol := Function.update vol (RAW_IDX channel) raw },
          (read_then_write hw channel raw).2) := by
  unfold Volume._snd_selem_update_volume
  rw [if_neg (by omega), if_neg hne]
  dsimp only
  change (convert_from_user str value >>= _) = _
  cases hraw : convert_from_user str value with
  | error fault => rfl
  | ok raw =>
    have hcached : Function.update str.vol (USR_IDX channel) value (RAW_IDX channel) = str.vol (RAW_IDX channel) :=
      Function.update_of_ne (Volume.raw_ne_usr channel channel) _ _
    rw [ok_bind, ok_bind]
    by_cases hsame : raw = str.vol (RAW_IDX channel)
    · rw [if_pos (hsame.trans hcached.symm), if_pos hsame]
    · rw [if_neg fun h => hsame (h.trans hcached), if_neg hsame]
      unfold read_then_write
      split <;> rfl

theorem update_switch_eq (type : Fin 5) (it channel : Nat) (value : Int) (hslot : elem.items type = some it)
    (h : channel < 32) :
    update_switch hw m elem type channel value =
      if (m.sw it).sw.getLsbD channel = decide (value ≠ 0) then .ok (0, m, [])
      else
        .ok ((read_then_write hw channel (if value ≠ 0 then 1 else 0)).1,
          m.set_sw it { m.sw it with sw := Bits.assign (m.sw it).sw channel (decide (value ≠ 0)) },
          (read_then_write hw channel (if value ≠ 0 then 1 else 0)).2) := by
  have hword : (if value ≠ 0 then (m.sw it).sw ||| 1#32 <<< channel else (m.sw it).sw &&& ~~~(1#32 <<< channel)) =
      Bits.assign (m.sw it).sw channel (decide (value ≠ 0)) := by
    unfold Bits.assign
    by_cases hvalue : value = 0 <;> simp [hvalue]
  unfold update_switch
  rw [hslot]
  dsimp only
  rw [shift, if_pos h, ok_bind, hword]
  simp only [Bits.assign_eq_self _ _ _ h]
  rfl

theorem update_switch_shift (type : Fin 5) (it channel : Nat) (value : Int) (hslot : elem.items type = some it)
    (h : ¬ channel < 32) : update_switch hw m elem type channel value = .error .overflow := by
  unfold update_switch
  rw [hslot]
  dsimp only
  rw [shift, if_neg h]
  rfl

theorem set_enum_inside (it channel : Nat) (item : BitVec 32) (hslot : elem.items SND_SELEM_ITEM_ENUM = some it)
    (h : channel < (m.enum it).channels) :
    snd_mixer_selem_set_enum_item hw m elem channel item =
      if (m.enum it).item channel = item then .ok (0, m, [])
      else
        .ok ((read_then_write hw channel item.toNat).1,
          m.set_enum it { m.enum it with item := Function.update (m.enum it).item channel item },
          (read_then_write hw channel item.toNat).2) := by
  unfold snd_mixer_selem_set_enum_item
  rw [hslot]
  dsimp only
  rw [access_ok h]
  rfl

theorem set_enum_outside (it channel : Nat) (item : BitVec 32) (hslot : elem.items SND_SELEM_ITEM_ENUM = some it)
    (h : ¬ channel < (m.enum it).channels) :
    snd_mixer_selem_set_enum_item hw m elem channel item = .error .read := by
  unfold snd_mixer_selem_set_enum_item
  rw [hslot]
  dsimp only
  rw [access_error h]
  rfl

end Setters

end Salsa.Mixer.Cache
