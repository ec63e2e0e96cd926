import Salsa.Mixer.Cache
import Salsa.Lib.Bits

/-!
# Writes that fail

A setter puts the new value into the cache before it reads and writes the element. When one of the
two fails, the value stays in the cache, and setting it again finds nothing to do.
-/

namespace Salsa.Mixer.Cache

open CInt
open Volume (SndSelemVolItem Hw Write USR_IDX RAW_IDX convert_from_user)

/-- A call that sets values, of one channel or of all. -/
inductive SetCall where
  | set (hw : Hw) (control : Control) (channel : Nat) (value : Int)
  | playback_switch_all (hw : Nat → Hw) (value : Int)
  | capture_switch_all (hw : Nat → Hw) (value : Int)

def SetCall.run (m : Items) (elem : SndMixerElem) : SetCall → C Outcome
  | .set hw control channel value => set_channel hw m elem control channel value
  | .playback_switch_all hw value => snd_mixer_selem_set_playback_switch_all hw m elem value
  | .capture_switch_all hw value => snd_mixer_selem_set_capture_switch_all hw m elem value

/-- A call that returns an error leaves the items as they were, so that it can be made again. -/
def FailsCleanly (m : Items) (r : C Outcome) : Prop :=
  ∀ err m' written, r = .ok (err, m', written) → err < 0 → m' = m

/-! ## What is to be written -/

def Works (hw : Hw) : Prop := hw.read_errno = 0 ∧ hw.write_errno = 0

/-- The value is another one for the user and for the hardware. -/
def ChangesVolume (m : Items) (slot : Option Nat) (channel : Nat) (value : Int) : Prop :=
  ∃ it, slot = some it ∧ channel < (m.vol it).channels ∧ (m.vol it).min ≤ value ∧ value ≤ (m.vol it).max ∧
    value ≠ (m.vol it).vol (USR_IDX channel) ∧
    ∃ raw, convert_from_user (m.vol it) value = .ok raw ∧ raw ≠ (m.vol it).vol (RAW_IDX channel)

def ChangesSwitch (m : Items) (slot : Option Nat) (channel : Nat) (value : Int) : Prop :=
  ∃ it, slot = some it ∧ channel < 32 ∧ (m.sw it).sw.getLsbD channel ≠ decide (value ≠ 0)

def ChangesEnum (m : Items) (slot : Option Nat) (channel : Nat) (item : BitVec 32) : Prop :=
  ∃ it, slot = some it ∧ channel < (m.enum it).channels ∧ (m.enum it).item channel ≠ item

/-- The call comes to its ioctls for a channel. -/
def ChangesChannel (m : Items) (elem : SndMixerElem) (channel : Nat) (value : Int) : Control → Prop
  | .playback_volume => ChangesVolume m (elem.items SND_SELEM_ITEM_PVOLUME) channel value
  | .capture_volume => ChangesVolume m (elem.items SND_SELEM_ITEM_CVOLUME) channel value
  | .playback_switch => ChangesSwitch m (elem.items SND_SELEM_ITEM_PSWITCH) channel value
  | .capture_switch => ChangesSwitch m (elem.items (capture_switch_type elem)) channel value
  | .enum_item => ChangesEnum m (elem.items SND_SELEM_ITEM_ENUM) channel (BitVec.ofInt 32 value)

/-- The ioctls work for each channel that changes. -/
def SwitchesWork (hw : Nat → Hw) (m : Items) (slot : Option Nat) (value : Int) : Prop :=
  ∀ it i, slot = some it → i < (m.sw it).channels → ChangesSwitch m slot i value → Works (hw i)

/-- The ioctls that the call comes to work. -/
def SetCall.IoctlsWork (m : Items) (elem : SndMixerElem) : SetCall → Prop
  | .set hw control channel value => ChangesChannel m elem channel value control → Works hw
  | .playback_switch_all hw value => SwitchesWork hw m (elem.items SND_SELEM_ITEM_PSWITCH) value
  | .capture_switch_all hw value => SwitchesWork hw m (elem.items (capture_switch_type elem)) value

/-! ## One channel -/

theorem read_then_write_neg (hw : Hw) (channel : Nat) (value : Int) :
    (read_then_write hw channel value).1 < 0 ↔ ¬ Works hw := by
  unfold read_then_write Works
  split
  · dsimp only
    omega
  · dsimp only
    omega

/-- A setter that comes to its ioctls, with the cache changed, if and only if `changes`. -/
theorem failsCleanly_iff (hw : Hw) (m : Items) (r : C Outcome) (changes : Prop)
    (hquiet : ¬ changes → FailsCleanly m r)
    (hchanges : changes → ∃ m' channel value, m' ≠ m ∧
      r = .ok ((read_then_write hw channel value).1, m', (read_then_write hw channel value).2)) :
    FailsCleanly m r ↔ (changes → Works hw) := by
  constructor
  · intro hclean hc
    obtain ⟨m', channel, value, hne, hr⟩ := hchanges hc
    by_contra hworks
    exact hne (hclean _ _ _ hr ((read_then_write_neg hw channel value).mpr hworks))
  · intro hworks
    by_cases hc : changes
    · obtain ⟨m', channel, value, -, hr⟩ := hchanges hc
      intro err m'' written heq herr
      rw [hr] at heq
      cases heq
      exact absurd (hworks hc) ((read_then_write_neg hw channel value).mp herr)
    · exact hquiet hc

theorem failsCleanly_of_nonneg {m : Items} {r : C Outcome}
    (h : ∀ err m' written, r = .ok (err, m', written) → 0 ≤ err) : FailsCleanly m r :=
  fun err m' written heq herr => absurd herr (not_lt.mpr (h err m' written heq))

theorem failsCleanly_error (m : Items) (fault : Fault) : FailsCleanly m (.error fault) := fun _ _ _ h => by cases h

theorem failsCleanly_refused (m : Items) (err : Int) : FailsCleanly m (.ok (err, m, [])) := by
  rintro err' m' written heq -
  cases heq
  rfl

theorem update_switch_clean_iff (hw : Hw) (m : Items) (elem : SndMixerElem) (type : Fin 5) (channel : Nat)
    (value : Int) :
    FailsCleanly m (update_switch hw m elem type channel value) ↔
      (ChangesSwitch m (elem.items type) channel value → Works hw) := by
  cases hslot : elem.items type with
  | none =>
    have hchanges : ¬ ChangesSwitch m none channel value := fun ⟨it, hit, _⟩ => by cases hit
    unfold update_switch
    rw [hslot]
    exact ⟨fun _ h => absurd h hchanges, fun _ => failsCleanly_refused m _⟩
  | some it =>
    apply failsCleanly_iff hw m
    · intro hsame
      by_cases hchannel : channel < 32
      · have hbit : (m.sw it).sw.getLsbD channel = decide (value ≠ 0) := by
          by_contra hne
          exact hsame ⟨it, rfl, hchannel, hne⟩
        rw [update_switch_eq hw m elem type it channel value hslot hchannel, if_pos hbit]
        exact failsCleanly_refused m 0
      · rw [update_switch_shift hw m elem type it channel value hslot hchannel]
        exact failsCleanly_error m _
    · rintro ⟨it', hit, hchannel, hne⟩
      cases hit
      have hupdate := update_switch_eq hw m elem type it channel value hslot hchannel
      rw [if_neg hne] at hupdate
      refine ⟨_, _, _, fun heq => ?_, hupdate⟩
      have hstr := (set_sw_self m it _).symm.trans (congrArg (fun m => m.sw it) heq)
      have hbit := congrArg (fun str => str.sw.getLsbD channel) hstr
      dsimp only at hbit
      rw [Bits.getLsbD_assign _ _ _ hchannel, if_pos rfl] at hbit
      exact hne hbit.symm

/-- Without a new value for the hardware the update works. -/
theorem volume_update_nonneg (hw : Hw) (str str' : SndSelemVolItem) (channel : Nat) (value err : Int)
    (written : List Write) (h : Volume._snd_selem_update_volume hw str channel value = .ok (err, str', written))
    (hsame : str.min ≤ value → value ≤ str.max → value ≠ str.vol (USR_IDX channel) →
      ∀ raw, convert_from_user str value = .ok raw → ¬ raw ≠ str.vol (RAW_IDX channel)) : 0 ≤ err := by
  by_cases hrange : value < str.min ∨ value > str.max
  · rw [Volume._snd_selem_update_volume, if_pos hrange] at h
    cases h
    exact le_refl 0
  · by_cases hne : value = str.vol (USR_IDX channel)
    · rw [Volume._snd_selem_update_volume, if_neg hrange, if_pos hne] at h
      cases h
      exact le_refl 0
    · rw [not_or, not_lt, gt_iff_lt, not_lt] at hrange
      rw [volume_update_eq hw str channel value hrange.1 hrange.2 hne] at h
      obtain ⟨raw, hraw, h⟩ := (bind_eq_ok _ _ _).mp h
      dsimp only at h
      rw [if_pos (not_not.mp (hsame hrange.1 hrange.2 hne raw hraw))] at h
      cases h
      exact le_refl 0

theorem update_volume_clean_iff (hw : Hw) (m : Items) (slot : Option Nat) (channel : Nat) (value : Int) :
    FailsCleanly m (_snd_selem_update_volume hw m slot channel value) ↔
      (ChangesVolume m slot channel value → Works hw) := by
  cases slot with
  | none =>
    have hchanges : ¬ ChangesVolume m none channel value := fun ⟨it, hit, _⟩ => by cases hit
    exact ⟨fun _ h => absurd h hchanges, fun _ => failsCleanly_refused m _⟩
  | some it =>
    apply failsCleanly_iff hw m
    · intro hsame
      apply failsCleanly_of_nonneg
      intro err m' written hr
      by_cases hrange : value < (m.vol it).min ∨ value > (m.vol it).max
      · rw [update_volume_refused hw m it channel value hrange] at hr
        cases hr
        exact le_refl 0
      · rw [not_or, not_lt, gt_iff_lt, not_lt] at hrange
        obtain ⟨hmin, hmax⟩ := hrange
        by_cases hchannel : channel < (m.vol it).channels
        · rw [update_volume_inside hw m it channel value hchannel] at hr
          obtain ⟨⟨err', str, written'⟩, hupdate, hr⟩ := (bind_eq_ok _ _ _).mp hr
          cases hr
          exact volume_update_nonneg hw _ str channel value err written hupdate fun _ _ hne raw hraw hnew =>
            hsame ⟨it, rfl, hchannel, hmin, hmax, hne, raw, hraw, hnew⟩
        · rw [update_volume_outside hw m it channel value hchannel hmin hmax] at hr
          cases hr
    · rintro ⟨it', hit, hchannel, hmin, hmax, hne, raw, hraw, hnew⟩
      cases hit
      refine ⟨m.set_vol it
        { m.vol it with
          vol := Function.update (Function.update (m.vol it).vol (USR_IDX channel) value) (RAW_IDX channel) raw },
        channel, raw, fun heq => ?_, ?_⟩
      · have hstr := (set_vol_self m it _).symm.trans (congrArg (fun m => m.vol it) heq)
        have husr := congrArg (fun str => str.vol (USR_IDX channel)) hstr
        dsimp only at husr
        rw [Function.update_of_ne (Volume.raw_ne_usr channel channel).symm, Function.update_self] at husr
        exact hne husr
      · rw [update_volume_inside hw m it channel value hchannel, volume_update_eq hw _ channel value hmin hmax hne,
          hraw, ok_bind]
        dsimp only
        rw [if_neg hnew]
        rfl

theorem set_enum_clean_iff (hw : Hw) (m : Items) (elem : SndMixerElem) (channel : Nat) (item : BitVec 32) :
    FailsCleanly m (snd_mixer_selem_set_enum_item hw m elem channel item) ↔
      (ChangesEnum m (elem.items SND_SELEM_ITEM_ENUM) channel item → Works hw) := by
  cases hslot : elem.items SND_SELEM_ITEM_ENUM with
  | none =>
    have hchanges : ¬ ChangesEnum m none channel item := fun ⟨it, hit, _⟩ => by cases hit
    unfold snd_mixer_selem_set_enum_item
    rw [hslot]
    exact ⟨fun _ h => absurd h hchanges, fun _ => failsCleanly_refused m _⟩
  | some it =>
    apply failsCleanly_iff hw m
    · intro hsame
      by_cases hchannel : channel < (m.enum it).channels
      · have hitem : (m.enum it).item channel = item := by
          by_contra hne
          exact hsame ⟨it, rfl, hchannel, hne⟩
        rw [set_enum_inside hw m elem it channel item hslot hchannel, if_pos hitem]
        exact failsCleanly_refused m 0
      · rw [set_enum_outside hw m elem it channel item hslot hchannel]
        exact failsCleanly_error m _
    · rintro ⟨it', hit, hchannel, hne⟩
      cases hit
      refine ⟨_, _, _, fun heq => ?_, by rw [set_enum_inside hw m elem it channel item hslot hchannel, if_neg hne]⟩
      have heitem := (set_enum_self m it _).symm.trans (congrArg (fun m => m.enum it) heq)
      have hitem := congrArg (fun eitem => eitem.item channel) heitem
      dsimp only at hitem
      rw [Function.update_self] at hitem
      exact hne hitem.symm

theorem set_channel_clean_iff (hw : Hw) (m : Items) (elem : SndMixerElem) (control : Control) (channel : Nat)
    (value : Int) :
    FailsCleanly m (set_channel hw m elem control channel value) ↔
      (ChangesChannel m elem channel value control → Works hw) := by
  cases control with
  | playback_volume | capture_volume => exact update_volume_clean_iff hw m _ channel value
  | playback_switch | capture_switch => exact update_switch_clean_iff hw m elem _ channel value
  | enum_item => exact set_enum_clean_iff hw m elem channel _

/-! ## All channels of a switch -/

section All

variable (hw : Nat → Hw) (elem : SndMixerElem) (type : Fin 5) (value : Int) (it : Nat)

/-- A round of the loop: nothing to do, or a new bit with the outcome of the ioctls. -/
theorem update_switch_loop_succ (hslot : elem.items type = some it) (n i : Nat) (m : Items) (hi : i < 32) :
    update_switch_loop hw elem type value (n + 1) i m =
      if (m.sw it).sw.getLsbD i = decide (value ≠ 0) then update_switch_loop hw elem type value n (i + 1) m
      else
        let m := m.set_sw it { m.sw it with sw := Bits.assign (m.sw it).sw i (decide (value ≠ 0)) }
        let (err, written) := read_then_write (hw i) i (if value ≠ 0 then 1 else 0)
        if err < 0 then .ok (err, m, written)
        else do
          let (err, m, more) ← update_switch_loop hw elem type value n (i + 1) m
          return (err, m, written ++ more) := by
  rw [update_switch_loop, update_switch_eq (hw i) m elem type it i value hslot hi]
  by_cases hbit : (m.sw it).sw.getLsbD i = decide (value ≠ 0)
  · rw [if_pos hbit, if_pos hbit, ok_bind]
    dsimp only
    rw [if_neg (lt_irrefl 0)]
    cases update_switch_loop hw elem type value n (i + 1) m <;> rfl
  · rw [if_neg hbit, if_neg hbit, ok_bind]
    rfl

/-- The loop goes through, or stops at a channel whose bit it has set. -/
theorem update_switch_loop_spec (hslot : elem.items type = some it) (n i : Nat) (m : Items) (hn : i + n ≤ 32) :
    ∃ err m' written, update_switch_loop hw elem type value n i m = .ok (err, m', written) ∧
      (err < 0 ↔ ¬ ∀ j, i ≤ j → j < i + n → (m.sw it).sw.getLsbD j ≠ decide (value ≠ 0) → Works (hw j)) ∧
      (err < 0 → ∃ j, i ≤ j ∧ (m.sw it).sw.getLsbD j ≠ decide (value ≠ 0) ∧
        (m'.sw it).sw.getLsbD j = decide (value ≠ 0)) := by
  induction n generalizing i m with
  | zero =>
    refine ⟨0, m, [], rfl, ⟨fun h => absurd h (lt_irrefl 0), fun h => absurd ?_ h⟩, fun h => absurd h (lt_irrefl 0)⟩
    intro j hij hj
    omega
  | succ n ih =>
    rw [update_switch_loop_succ hw elem type value it hslot n i m (by omega)]
    by_cases hbit : (m.sw it).sw.getLsbD i = decide (value ≠ 0)
    · obtain ⟨err, m', written, hloop, hiff, hset⟩ := ih (i + 1) m (by omega)
      rw [if_pos hbit]
      refine ⟨err, m', written, hloop,
        hiff.trans (not_congr ⟨fun h j hij hj hne => ?_, fun h j hij hj => ?_⟩), fun herr => ?_⟩
      · have hji : j ≠ i := by
          rintro rfl
          exact hne hbit
        exact h j (by omega) (by omega) hne
      · exact h j (by omega) (by omega)
      · obtain ⟨j, hij, hj⟩ := hset herr
        exact ⟨j, by omega, hj⟩
    · rw [if_neg hbit]
      set m₁ := m.set_sw it { m.sw it with sw := Bits.assign (m.sw it).sw i (decide (value ≠ 0)) } with hm₁
      have hassign (j : Nat) : (m₁.sw it).sw.getLsbD j =
          if j = i then decide (value ≠ 0) else (m.sw it).sw.getLsbD j := by
        rw [hm₁, set_sw_self]
        exact Bits.getLsbD_assign _ _ _ (by omega) j
      have hneg := read_then_write_neg (hw i) i (if value ≠ 0 then 1 else 0)
      dsimp only
      by_cases hworks : Works (hw i)
      · rw [if_neg fun h => hneg.mp h hworks]
        obtain ⟨err, m', written, hloop, hiff, hset⟩ := ih (i + 1) m₁ (by omega)
        rw [hloop]
        refine ⟨err, m', _, rfl,
          hiff.trans (not_congr ⟨fun h j hij hj hne => ?_, fun h j hij hj hne => ?_⟩), fun herr => ?_⟩
        · rcases eq_or_ne j i with rfl | hji
          · exact hworks
          · exact h j (by omega) (by omega) (by rw [hassign, if_neg hji]; exact hne)
        · rw [hassign, if_neg (by omega)] at hne
          exact h j (by omega) (by omega) hne
        · obtain ⟨j, hij, hne, hj⟩ := hset herr
          rw [hassign, if_neg (by omega)] at hne
          exact ⟨j, by omega, hne, hj⟩
      · have herr := hneg.mpr hworks
        rw [if_pos herr]
        refine ⟨_, m₁, _, rfl, ⟨fun _ h => hworks (h i (le_refl i) (by omega) hbit), fun _ => herr⟩, fun _ => ?_⟩
        exact ⟨i, le_refl i, hbit, by rw [hassign, if_pos rfl]⟩

theorem update_switch_all_clean_iff (m : Items) :
    FailsCleanly m (update_switch_all hw m elem type value) ↔ SwitchesWork hw m (elem.items type) value := by
  unfold update_switch_all
  cases hslot : elem.items type with
  | none =>
    refine ⟨fun _ it i hit => ?_, fun _ => failsCleanly_refused m _⟩
    cases hit
  | some it =>
    have hfits := (m.sw it).fits
    obtain ⟨err, m', written, hloop, hiff, hset⟩ :=
      update_switch_loop_spec hw elem type value it hslot (m.sw it).channels 0 m (by omega)
    dsimp only
    rw [hloop]
    constructor
    · intro hclean it' i hit hi hchanges
      cases hit
      obtain ⟨_, hit, -, hne⟩ := hchanges
      cases hit
      by_contra hworks
      have herr := hiff.mpr fun h => hworks (h i (Nat.zero_le i) (by omega) hne)
      obtain ⟨j, -, hbefore, hafter⟩ := hset herr
      rw [hclean err m' written rfl herr] at hafter
      exact hbefore hafter
    · intro hworks
      have herr : ¬ err < 0 := fun herr =>
        hiff.mp herr fun j _ hj hne => hworks it j rfl (by omega) ⟨it, rfl, by omega, hne⟩
      apply failsCleanly_of_nonneg
      intro err' m'' written' heq
      cases heq
      exact not_lt.mp herr

end All

/-- A call that fails leaves the cache as it was if and only if the ioctls that it comes to work. -/
theorem fails_cleanly_iff (m : Items) (elem : SndMixerElem) (call : SetCall) :
    FailsCleanly m (call.run m elem) ↔ call.IoctlsWork m elem := by
  cases call with
  | set hw control channel value => exact set_channel_clean_iff hw m elem control channel value
  | playback_switch_all hw value => exact update_switch_all_clean_iff hw elem _ value m
  | capture_switch_all hw value => exact update_switch_all_clean_iff hw elem _ value m

/-! A volume from 0 to 10, a switch and an enumeration of 3 items, with two channels each. -/

def silent : Items where
  vol := fun _ => ⟨2, 0, 10, 0, 10, fun _ => 0⟩
  sw := fun _ => ⟨2, by decide, 0#32⟩
  enum := fun _ => ⟨2, 3#32, fun _ => 0#32⟩

def master : SndMixerElem :=
  { name := "Master".toList, index := 0#32, caps := 0#32, channels := fun _ => 2, items := fun i => some i.val }

/-- A control that another program has locked. -/
def locked : Hw := ⟨0, fun _ => 0, 1⟩

/-- The volume that could not be written stays in the cache, where it is found when it is set again. -/
theorem failed_write_is_cached : ¬ ∀ m elem call, FailsCleanly m (SetCall.run m elem call) := by
  intro h
  have hclean := h silent master (.set locked .playback_volume 1 5) (-1) _ _ rfl (by decide)
  have husr := congrArg (fun m => (m.vol 0).vol (USR_IDX 1)) hclean
  exact absurd husr (by decide)

end Salsa.Mixer.Cache
