import Salsa.Mixer.Channels
import Salsa.Lib.Rounding

/-!
# Volumes there and back

A raw value is laid on the user range and back on the raw range, both times rounded towards the lower
end. Setting a volume in dB takes this way.
-/

namespace Salsa.Mixer.Volume

open CInt
open Cache (Works volume_update_works works_outcome channel_or_first)

/-- The user range is at least as fine as the raw range. -/
structure Finer (str : SndSelemVolItem) : Prop extends Bounded str where
  raw_range : str.raw_min < str.raw_max
  fine : str.raw_max - str.raw_min ≤ str.max - str.min

/-- The cache has what the hardware has for the channel. -/
structure InStep (hw : Hw) (str : SndSelemVolItem) (channel : Nat) : Prop where
  inside : channel < str.channels
  raw : str.vol (RAW_IDX channel) = hw.values channel
  range : str.raw_min ≤ str.vol (RAW_IDX channel) ∧ str.vol (RAW_IDX channel) ≤ str.raw_max
  usr : convert_to_user str (str.vol (RAW_IDX channel)) = .ok (str.vol (USR_IDX channel))

/-- What the hardware has for the channel after the writes. -/
def stored (hw : Hw) (written : List Write) (channel : Nat) : Int :=
  match written.getLast? with
  | some w => w.values channel
  | none => hw.values channel

/-- A raw value survives the way to the user range and back, also when it is set in dB. -/
structure Lossless (str : SndSelemVolItem) (r : Int) : Prop where
  back : (convert_to_user str r >>= convert_from_user str) = .ok r
  set_dB : ∀ hw err channel, Works hw → 0 ≤ err → InStep hw str (channel_or_first str.channels channel) →
    ∃ item written, _snd_selem_vol_set_dB hw (err, r) str channel = .ok (0, item, written) ∧
      stored hw written (channel_or_first str.channels channel) = r

/-- The raw value falls on a step of the user range. -/
def OnStep (str : SndSelemVolItem) (r : Int) : Prop :=
  str.raw_max - str.raw_min ∣ (r - str.raw_min) * (str.max - str.min)

theorem scaled_eq (fmin fmax tmin tmax val : Int) (hf : fmin < fmax) (ht : tmin ≤ tmax) (hval : fmin ≤ val) :
    scaled fmin fmax tmin tmax val = (val - fmin) * (tmax - tmin) / (fmax - fmin) + tmin := by
  unfold scaled
  split
  · rename_i hsame
    rw [hsame.1, hsame.2, Int.mul_ediv_cancel _ (by omega), sub_add_cancel]
  · rw [if_neg hf.ne, Int.tdiv_eq_ediv_of_nonneg (mul_nonneg (by omega) (by omega))]

/-- The user value of a raw one. -/
def to_user (str : SndSelemVolItem) (r : Int) : Int :=
  (r - str.raw_min) * (str.max - str.min) / (str.raw_max - str.raw_min) + str.min

/-- The raw value of a user one. -/
def from_user (str : SndSelemVolItem) (u : Int) : Int :=
  (u - str.min) * (str.raw_max - str.raw_min) / (str.max - str.min) + str.raw_min

section Finer

variable {str : SndSelemVolItem} (hstr : Finer str)

include hstr

theorem Finer.user_range : str.min < str.max := by
  have hraw := hstr.raw_range
  have hfine := hstr.fine
  omega

theorem convert_to_user_eq (r : Int) (hmin : str.raw_min ≤ r) (hmax : r ≤ str.raw_max) :
    convert_to_user str r = .ok (to_user str r) := by
  have hsmall := small_between _ _ _ hstr.raw_min hstr.raw_max hmin hmax
  unfold convert_to_user
  rw [convert_ok _ _ _ _ _ hstr.raw_min hstr.raw_max hstr.min hstr.max hsmall,
    scaled_eq _ _ _ _ _ hstr.raw_range hstr.user_range.le hmin]
  rfl

theorem to_user_range (r : Int) (hmin : str.raw_min ≤ r) (hmax : r ≤ str.raw_max) :
    str.min ≤ to_user str r ∧ to_user str r ≤ str.max := by
  unfold to_user
  rw [← scaled_eq _ _ _ _ _ hstr.raw_range hstr.user_range.le hmin]
  exact scaled_range _ _ _ _ _ hstr.user_range.le hmin hmax

theorem convert_from_user_eq (u : Int) (hmin : str.min ≤ u) (hmax : u ≤ str.max) :
    convert_from_user str u = .ok (from_user str u) := by
  have hsmall := small_between _ _ _ hstr.min hstr.max hmin hmax
  unfold convert_from_user
  rw [convert_ok _ _ _ _ _ hstr.min hstr.max hstr.raw_min hstr.raw_max hsmall,
    scaled_eq _ _ _ _ _ hstr.user_range hstr.raw_range.le hmin]
  rfl

theorem from_to_user_iff (r : Int) : from_user str (to_user str r) = r ↔ OnStep str r := by
  have hraw : 0 < str.raw_max - str.raw_min := sub_pos.mpr hstr.raw_range
  have huser : 0 < str.max - str.min := sub_pos.mpr hstr.user_range
  have hscale := Rounding.scale_back_iff (r - str.raw_min) _ _ hraw huser
  unfold from_user to_user OnStep
  rw [add_sub_cancel_right, ← hscale]
  constructor <;> intro h <;> omega

theorem to_user_inj (r s : Int) (h : to_user str r = to_user str s) : r = s := by
  have hraw : 0 < str.raw_max - str.raw_min := sub_pos.mpr hstr.raw_range
  have hinj := (Rounding.scale_strictMono _ _ hraw hstr.fine).injective
  have hoffset : r - str.raw_min = s - str.raw_min := hinj (add_right_cancel h)
  omega

theorem back_iff (r : Int) (hmin : str.raw_min ≤ r) (hmax : r ≤ str.raw_max) :
    (convert_to_user str r >>= convert_from_user str) = .ok r ↔ OnStep str r := by
  have hrange := to_user_range hstr r hmin hmax
  rw [convert_to_user_eq hstr r hmin hmax, ok_bind, convert_from_user_eq hstr _ hrange.1 hrange.2,
    ← from_to_user_iff hstr]
  exact ⟨fun h => Except.ok.inj h, fun h => congrArg _ h⟩

/-- A value set in dB is stored as it was computed if it falls on a step, or is there already. -/
theorem set_dB_stores_iff (hw : Hw) (err : Int) (channel : Nat) (r : Int) (hmin : str.raw_min ≤ r)
    (hmax : r ≤ str.raw_max) (hworks : Works hw) (herr : 0 ≤ err)
    (hstep : InStep hw str (channel_or_first str.channels channel)) :
    (∃ item written, _snd_selem_vol_set_dB hw (err, r) str channel = .ok (0, item, written) ∧
      stored hw written (channel_or_first str.channels channel) = r) ↔
      OnStep str r ∨ r = hw.values (channel_or_first str.channels channel) := by
  set c := channel_or_first str.channels channel with hc
  have hrange := to_user_range hstr r hmin hmax
  have hconvert := convert_from_user_eq hstr _ hrange.1 hrange.2
  obtain ⟨vol, hupdate, -⟩ := volume_update_works hworks str c _ hrange.1 hrange.2
    (.inr ((Cache.conversionFits_iff _ _).mpr ⟨_, hconvert⟩))
  have hset : _snd_selem_vol_set_dB hw (err, r) str channel =
      .ok (0, { str with vol }, Cache.SndSelemVolItem.written hw str c (to_user str r)) := by
    unfold _snd_selem_vol_set_dB
    dsimp only
    rw [if_neg (not_lt.mpr herr), convert_to_user_eq hstr r hmin hmax, ok_bind]
    exact hupdate
  have husr : str.vol (USR_IDX c) = to_user str (hw.values c) := by
    have husr := hstep.usr
    rw [convert_to_user_eq hstr _ hstep.range.1 hstep.range.2, hstep.raw] at husr
    exact (Except.ok.inj husr).symm
  have hstored : stored hw (Cache.SndSelemVolItem.written hw str c (to_user str r)) c =
      if r = hw.values c then r else from_user str (to_user str r) := by
    unfold Cache.SndSelemVolItem.written Cache.volume_written
    rw [hconvert, husr, hstep.raw]
    dsimp only
    by_cases hsame : r = hw.values c
    · rw [if_pos (congrArg _ hsame), if_pos hsame]
      exact hsame.symm
    · rw [if_neg fun h => hsame (to_user_inj hstr _ _ h), if_neg hsame]
      by_cases hraw : from_user str (to_user str r) = hw.values c
      · rw [if_pos hraw]
        exact hraw.symm
      · rw [if_neg hraw, works_outcome hworks]
        exact Function.update_self ..
  rw [hset]
  constructor
  · rintro ⟨item, written, h, hr⟩
    cases h
    rw [hstored] at hr
    by_cases hsame : r = hw.values c
    · exact .inr hsame
    · rw [if_neg hsame] at hr
      exact .inl ((from_to_user_iff hstr r).mp hr)
  · intro h
    refine ⟨_, _, rfl, ?_⟩
    rw [hstored]
    rcases h with honstep | hsame
    · rw [(from_to_user_iff hstr r).mpr honstep, ite_self]
    · rw [if_pos hsame]

end Finer

/-- On a user range that is at least as fine, a raw value comes back if and only if it falls on a step. -/
theorem lossless_iff (str : SndSelemVolItem) (r : Int) (hstr : Finer str) (hmin : str.raw_min ≤ r)
    (hmax : r ≤ str.raw_max) : Lossless str r ↔ OnStep str r := by
  rw [← back_iff hstr r hmin hmax]
  constructor
  · exact fun h => h.back
  · intro hback
    refine ⟨hback, fun hw err channel hworks herr hstep => ?_⟩
    have honstep := (back_iff hstr r hmin hmax).mp hback
    exact (set_dB_stores_iff hstr hw err channel r hmin hmax hworks herr hstep).mpr (.inl honstep)

/-! A raw range from 0 to 2, which a user sees as 0 to 4 or as 0 to 3. -/

def doubled : SndSelemVolItem := ⟨1, 0, 4, 0, 2, fun _ => 0⟩

def uneven : SndSelemVolItem := ⟨1, 0, 3, 0, 2, fun _ => 0⟩

theorem doubled_finer : Finer doubled :=
  { range := by decide, raw_min := by decide, raw_max := by decide, min := by decide, max := by decide
    raw_range := by decide, fine := by decide }

theorem uneven_finer : Finer uneven :=
  { range := by decide, raw_min := by decide, raw_max := by decide, min := by decide, max := by decide
    raw_range := by decide, fine := by decide }

theorem lossless_doubled : Lossless doubled 1 :=
  (lossless_iff doubled 1 doubled_finer (by decide) (by decide)).mpr (by unfold OnStep; decide)

/-- The middle of the raw range is 1 for the user, and comes back as 0. -/
theorem middle_is_lost : ¬ ∀ str r, Finer str → str.raw_min ≤ r → r ≤ str.raw_max → Lossless str r := by
  intro h
  have hback := (h uneven 1 uneven_finer (by decide) (by decide)).back
  exact absurd hback (by decide)

end Salsa.Mixer.Volume
