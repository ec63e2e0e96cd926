import Salsa.Lib.CInt
import Salsa.Lib.Run
import Mathlib.Algebra.Order.Ring.Abs
import Mathlib.Algebra.Order.Ring.Int
import Mathlib.Algebra.Order.Group.Unbundled.Int
import Mathlib.Logic.Function.Basic
import Mathlib.Tactic.Linarith

/-!
# Volumes on their way to the hardware

The volume items of `mixer.c`: a value of the user's range is converted, and written with what the
hardware has for the other channels.
-/

namespace Salsa.Mixer.Volume

open CInt Run

/-- `snd_selem_vol_item_t`; `vol` has a user and a raw value for each channel. -/
structure SndSelemVolItem where
  channels : Nat
  min : Int
  max : Int
  raw_min : Int
  raw_max : Int
  vol : Nat → Int

def USR_IDX (i : Nat) : Nat := i * 2

def RAW_IDX (i : Nat) : Nat := i * 2 + 1

/-- What the conversions share: the range from `fmin` to `fmax` is laid on that from `tmin` to `tmax`. -/
def convert (fmin fmax tmin tmax val : Int) : C Int :=
  if fmin = tmin ∧ fmax = tmax then .ok val
  else if fmin = fmax then .ok tmin
  else do
    let val ← long (val - fmin)
    let val ← long (val * (← long (tmax - tmin)))
    let val ← divide val (← long (fmax - fmin))
    long (val + tmin)

def convert_from_user (str : SndSelemVolItem) (val : Int) : C Int :=
  convert str.min str.max str.raw_min str.raw_max val

def convert_to_user (str : SndSelemVolItem) (val : Int) : C Int :=
  convert str.raw_min str.raw_max str.min str.max val

/-- How the hardware answers: a read and a write, each with an errno, 0 for success. -/
structure Hw where
  read_errno : Nat
  values : Nat → Int
  write_errno : Nat

/-- A write: the values of all channels, of which one was set and the others were read. -/
structure Write where
  channel : Nat
  read : Nat → Int
  values : Nat → Int

def _snd_selem_update_volume (hw : Hw) (str : SndSelemVolItem) (channel : Nat) (value : Int) :
    C (Int × SndSelemVolItem × List Write) :=
  if value < str.min ∨ value > str.max then .ok (0, str, [])
  else if value = str.vol (USR_IDX channel) then .ok (0, str, [])
  else do
    let str := { str with vol := Function.update str.vol (USR_IDX channel) value }
    let value ← convert_from_user str value
    if value = str.vol (RAW_IDX channel) then return (0, str, [])
    else
      let str := { str with vol := Function.update str.vol (RAW_IDX channel) value }
      if hw.read_errno ≠ 0 then return (-(hw.read_errno : Int), str, [])
      else
        let values := Function.update hw.values channel value
        return (-(hw.write_errno : Int), str, [{ channel, read := hw.values, values }])

/-- The loop of `_snd_selem_update_volume_all` from channel `i` on, over `n` channels. -/
def update_volume_loop (hw : Nat → Hw) (value : Int) :
    Nat → Nat → SndSelemVolItem → C (Int × SndSelemVolItem × List Write)
  | 0, _, str => .ok (0, str, [])
  | n + 1, i, str => do
    let (err, str, written) ← _snd_selem_update_volume (hw i) str i value
    if err < 0 then return (err, str, written)
    else
      let (err, str, more) ← update_volume_loop hw value n (i + 1) str
      return (err, str, written ++ more)

def _snd_selem_update_volume_all (hw : Nat → Hw) (str : SndSelemVolItem) (value : Int) :
    C (Int × SndSelemVolItem × List Write) :=
  update_volume_loop hw value str.channels 0 str

/-- The loop of `set_volume_range` from channel `i` on. -/
def set_range_loop : Nat → Nat → SndSelemVolItem → C SndSelemVolItem
  | 0, _, str => .ok str
  | n + 1, i, str => do
    let value ← convert_to_user str (str.vol (RAW_IDX i))
    set_range_loop n (i + 1) { str with vol := Function.update str.vol (USR_IDX i) value }

def set_volume_range (str : SndSelemVolItem) (min max : Int) : C SndSelemVolItem :=
  set_range_loop str.channels 0 { str with min, max }

/-- `converted` is the outcome of `init_db_info` and `snd_tlv_convert_from_dB`. -/
def _snd_selem_vol_set_dB (hw : Hw) (converted : Int × Int) (item : SndSelemVolItem) (channel : Nat) :
    C (Int × SndSelemVolItem × List Write) :=
  let channel := if channel ≥ item.channels then 0 else channel
  let (err, value) := converted
  if err < 0 then .ok (err, item, [])
  else do
    let value ← convert_to_user item value
    _snd_selem_update_volume hw item channel value

/-- The loop of `update_selem_vol_item` from channel `i` on; returns whether a value has changed. -/
def update_item_loop (obj : Nat → Int) : Nat → Nat → Bool → SndSelemVolItem → C (Bool × SndSelemVolItem)
  | 0, _, changed, vol => .ok (changed, vol)
  | n + 1, i, changed, vol => do
    let changed := changed || vol.vol (RAW_IDX i) != obj i
    let vol := { vol with vol := Function.update vol.vol (RAW_IDX i) (obj i) }
    let val ← convert_to_user vol (obj i)
    let changed := changed || vol.vol (USR_IDX i) != val
    update_item_loop obj n (i + 1) changed { vol with vol := Function.update vol.vol (USR_IDX i) val }

def update_selem_vol_item (vol : SndSelemVolItem) (obj : Nat → Int) : C (Bool × SndSelemVolItem) :=
  update_item_loop obj vol.channels 0 false vol

/-! ## Runs -/

inductive Act where
  | set_range (min max : Int)
  | update (hw : Hw) (channel : Nat) (value : Int)
  | update_all (hw : Nat → Hw) (value : Int)
  | set_dB (hw : Hw) (converted : Int × Int) (channel : Nat)
  /-- A VALUE event, after which the values are read if that works. -/
  | event (hw : Hw)

/-- The item, and what was written to the hardware so far. -/
structure State where
  item : SndSelemVolItem
  written : List Write

def exec (s : State) : Act → C State
  | .set_range min max => do
    let item ← set_volume_range s.item min max
    return { s with item }
  | .update hw channel value => do
    let (_, item, more) ← _snd_selem_update_volume hw s.item channel value
    return { item, written := s.written ++ more }
  | .update_all hw value => do
    let (_, item, more) ← _snd_selem_update_volume_all hw s.item value
    return { item, written := s.written ++ more }
  | .set_dB hw converted channel => do
    let (_, item, more) ← _snd_selem_vol_set_dB hw converted s.item channel
    return { item, written := s.written ++ more }
  | .event hw =>
    if hw.read_errno ≠ 0 then .ok s
    else do
      let (_, item) ← update_selem_vol_item s.item hw.values
      return { s with item }

def step (s : State) (a : Act) : Option State := (exec s a).toOption

/-! ## Conversions -/

def Small (x : Int) : Prop := -1073741824 < x ∧ x < 1073741824

instance (x : Int) : Decidable (Small x) :=
  inferInstanceAs (Decidable (-1073741824 < x ∧ x < 1073741824))

theorem long_ok (x : Int) (h : |x| ≤ 9223372036854775807) : long x = .ok x := by
  unfold long
  rw [if_pos]
  have := abs_le.mp h
  omega

theorem product_fits (a b c d : Int) (ha : Small a) (hb : Small b) (hc : Small c) (hd : Small d) :
    |(a - b) * (c - d)| ≤ 4611686018427387904 := by
  have hab : |a - b| ≤ 2147483648 := by
    unfold Small at ha hb
    exact abs_le.mpr ⟨by omega, by omega⟩
  have hcd : |c - d| ≤ 2147483648 := by
    unfold Small at hc hd
    exact abs_le.mpr ⟨by omega, by omega⟩
  rw [abs_mul]
  calc |a - b| * |c - d| ≤ 2147483648 * 2147483648 := mul_le_mul hab hcd (abs_nonneg _) (by norm_num)
    _ = 4611686018427387904 := by norm_num

theorem abs_tdiv_le (a b : Int) : |a.tdiv b| ≤ |a| := by
  rw [Int.abs_eq_natAbs, Int.abs_eq_natAbs]
  exact_mod_cast Int.natAbs_tdiv_le_natAbs a b

/-- The conversion where nothing overflows. -/
def scaled (fmin fmax tmin tmax val : Int) : Int :=
  if fmin = tmin ∧ fmax = tmax then val
  else if fmin = fmax then tmin
  else ((val - fmin) * (tmax - tmin)).tdiv (fmax - fmin) + tmin

theorem convert_eq (fmin fmax tmin tmax val x : Int) (h : convert fmin fmax tmin tmax val = .ok x) :
    x = scaled fmin fmax tmin tmax val := by
  unfold convert at h
  unfold scaled
  split at h
  · rename_i hsame
    rw [if_pos hsame]
    exact (Except.ok.inj h).symm
  · rename_i hsame
    rw [if_neg hsame]
    split at h
    · rename_i hpoint
      rw [if_pos hpoint]
      exact (Except.ok.inj h).symm
    · rename_i hpoint
      rw [if_neg hpoint]
      simp only [bind_eq_ok] at h
      obtain ⟨offset, hoffset, range, hrange, product, hproduct, width, hwidth, quotient, hquotient, hsum⟩ := h
      rw [long_eq_ok _ _ hsum, divide_eq_ok _ _ _ hquotient, long_eq_ok _ _ hproduct, long_eq_ok _ _ hoffset,
        long_eq_ok _ _ hrange, long_eq_ok _ _ hwidth]

theorem convert_ok (fmin fmax tmin tmax val : Int) (hfmin : Small fmin) (hfmax : Small fmax)
    (htmin : Small tmin) (htmax : Small tmax) (hval : Small val) :
    convert fmin fmax tmin tmax val = .ok (scaled fmin fmax tmin tmax val) := by
  unfold convert scaled
  split
  · rfl
  · split
    · rfl
    · rename_i hpoint
      have hproduct := product_fits val fmin tmax tmin hval hfmin htmax htmin
      have hquotient := (abs_tdiv_le ((val - fmin) * (tmax - tmin)) (fmax - fmin)).trans hproduct
      have hdiff (a b : Int) (ha : Small a) (hb : Small b) : long (a - b) = .ok (a - b) := by
        apply long_ok
        unfold Small at ha hb
        exact abs_le.mpr ⟨by omega, by omega⟩
      have hsum : |((val - fmin) * (tmax - tmin)).tdiv (fmax - fmin) + tmin| ≤ 9223372036854775807 := by
        unfold Small at htmin
        rw [abs_le] at hquotient ⊢
        omega
      rw [hdiff val fmin hval hfmin, hdiff tmax tmin htmax htmin, hdiff fmax fmin hfmax hfmin]
      simp only [bind, Except.bind]
      rw [long_ok _ (hproduct.trans (by norm_num))]
      dsimp only
      unfold divide
      rw [if_neg (sub_ne_zero.mpr (Ne.symm hpoint)), long_ok _ (hquotient.trans (by norm_num))]
      exact long_ok _ hsum

theorem scaled_mono (fmin fmax tmin tmax a b : Int) (hf : fmin ≤ fmax) (ht : tmin ≤ tmax) (hab : a ≤ b) :
    scaled fmin fmax tmin tmax a ≤ scaled fmin fmax tmin tmax b := by
  unfold scaled
  split
  · exact hab
  · split
    · exact le_refl _
    · rename_i hpoint
      have hwidth : 0 < fmax - fmin := by omega
      have hproduct : (a - fmin) * (tmax - tmin) ≤ (b - fmin) * (tmax - tmin) :=
        mul_le_mul_of_nonneg_right (by omega) (by omega)
      have hquotient := Int.tdiv_le_tdiv hwidth hproduct
      omega

theorem scaled_min (fmin fmax tmin tmax : Int) : scaled fmin fmax tmin tmax fmin = tmin := by
  unfold scaled
  split
  · rename_i hsame
    exact hsame.1
  · split
    · rfl
    · rw [sub_self, zero_mul, Int.zero_tdiv, zero_add]

theorem scaled_max (fmin fmax tmin tmax : Int) (hf : fmin ≠ fmax) : scaled fmin fmax tmin tmax fmax = tmax := by
  unfold scaled
  by_cases hsame : fmin = tmin ∧ fmax = tmax
  · rw [if_pos hsame]
    exact hsame.2
  · rw [if_neg hsame, if_neg hf, Int.mul_tdiv_cancel_left _ (sub_ne_zero.mpr hf.symm), sub_add_cancel]

theorem scaled_range (fmin fmax tmin tmax val : Int) (ht : tmin ≤ tmax) (hmin : fmin ≤ val)
    (hmax : val ≤ fmax) :
    tmin ≤ scaled fmin fmax tmin tmax val ∧ scaled fmin fmax tmin tmax val ≤ tmax := by
  have hf : fmin ≤ fmax := hmin.trans hmax
  have hlower := scaled_mono fmin fmax tmin tmax fmin val hf ht hmin
  have hupper := scaled_mono fmin fmax tmin tmax val fmax hf ht hmax
  rw [scaled_min] at hlower
  refine ⟨hlower, ?_⟩
  by_cases hpoint : fmin = fmax
  · obtain rfl : val = fmin := by omega
    rw [scaled_min]
    exact ht
  · rwa [scaled_max fmin fmax tmin tmax hpoint] at hupper

/-! ## What the functions keep -/

/-- What runs may bring: user bounds, values read and raw values converted from dB are small, and
channels are there. -/
def Allowed (channels : Nat) : Act → Prop
  | .set_range min max => Small min ∧ Small max
  | .update hw channel _ => channel < channels ∧ ∀ i, i < channels → Small (hw.values i)
  | .update_all hw _ => ∀ c i, i < channels → Small ((hw c).values i)
  | .set_dB hw converted channel =>
    channel < channels ∧ (0 ≤ converted.1 → Small converted.2) ∧ ∀ i, i < channels → Small (hw.values i)
  | .event hw => ∀ i, i < channels → Small (hw.values i)

/-- What the functions of an item keep of it, and write. -/
structure Kept (item item' : SndSelemVolItem) (more : List Write) : Prop where
  raw_min_eq : item'.raw_min = item.raw_min
  raw_max_eq : item'.raw_max = item.raw_max
  channels_eq : item'.channels = item.channels
  min_eq : item'.min = item.min
  max_eq : item'.max = item.max
  raw : (∀ i, i < item.channels → Small (item.vol (RAW_IDX i))) →
    ∀ i, i < item.channels → Small (item'.vol (RAW_IDX i))
  written : ∀ w ∈ more, w.values = Function.update w.read w.channel (w.values w.channel) ∧
    item.raw_min ≤ w.values w.channel ∧ w.values w.channel ≤ item.raw_max

theorem Kept.refl (item : SndSelemVolItem) : Kept item item [] where
  raw_min_eq := rfl
  raw_max_eq := rfl
  channels_eq := rfl
  min_eq := rfl
  max_eq := rfl
  raw := fun h => h
  written := fun _ h => absurd h List.not_mem_nil

theorem Kept.trans (a b c : SndSelemVolItem) (more more' : List Write) (hab : Kept a b more)
    (hbc : Kept b c more') : Kept a c (more ++ more') where
  raw_min_eq := hbc.raw_min_eq.trans hab.raw_min_eq
  raw_max_eq := hbc.raw_max_eq.trans hab.raw_max_eq
  channels_eq := hbc.channels_eq.trans hab.channels_eq
  min_eq := hbc.min_eq.trans hab.min_eq
  max_eq := hbc.max_eq.trans hab.max_eq
  raw := by
    intro h i hi
    exact hbc.raw (fun i hi => hab.raw h i (hab.channels_eq ▸ hi)) i (hab.channels_eq.symm ▸ hi)
  written := by
    intro w hw
    rcases List.mem_append.mp hw with hw | hw
    · exact hab.written w hw
    · have hwritten := hbc.written w hw
      rwa [hab.raw_min_eq, hab.raw_max_eq] at hwritten

/-- Bounds are small, and the raw range is not crossed. -/
structure Bounded (item : SndSelemVolItem) : Prop where
  range : item.raw_min ≤ item.raw_max
  raw_min : Small item.raw_min
  raw_max : Small item.raw_max
  min : Small item.min
  max : Small item.max

theorem Kept.bounded (a b : SndSelemVolItem) (more : List Write) (h : Kept a b more) (ha : Bounded a) :
    Bounded b := by
  constructor
  · rw [h.raw_min_eq, h.raw_max_eq]
    exact ha.range
  · rw [h.raw_min_eq]
    exact ha.raw_min
  · rw [h.raw_max_eq]
    exact ha.raw_max
  · rw [h.min_eq]
    exact ha.min
  · rw [h.max_eq]
    exact ha.max

theorem raw_ne_usr (i j : Nat) : RAW_IDX i ≠ USR_IDX j := by
  unfold RAW_IDX USR_IDX
  omega

theorem raw_inj (i j : Nat) (h : RAW_IDX i = RAW_IDX j) : i = j := by
  unfold RAW_IDX at h
  omega

theorem kept_usr (item : SndSelemVolItem) (i : Nat) (value : Int) :
    Kept item { item with vol := Function.update item.vol (USR_IDX i) value } [] :=
  { Kept.refl item with
    raw := fun h j hj => by
      dsimp only
      rw [Function.update_of_ne (raw_ne_usr j i)]
      exact h j hj }

theorem kept_raw (item : SndSelemVolItem) (i : Nat) (value : Int) (hvalue : Small value) :
    Kept item { item with vol := Function.update item.vol (RAW_IDX i) value } [] :=
  { Kept.refl item with
    raw := fun h j hj => by
      dsimp only
      rcases eq_or_ne j i with rfl | hne
      · rw [Function.update_self]
        exact hvalue
      · rw [Function.update_of_ne fun heq => hne (raw_inj j i heq)]
        exact h j hj }

theorem small_between (a b x : Int) (ha : Small a) (hb : Small b) (hax : a ≤ x) (hxb : x ≤ b) : Small x := by
  unfold Small at *
  omega

theorem update_volume_spec (hw : Hw) (str : SndSelemVolItem) (channel : Nat) (value : Int)
    (hstr : Bounded str) :
    ∃ err str' more, _snd_selem_update_volume hw str channel value = .ok (err, str', more) ∧
      Kept str str' more := by
  unfold _snd_selem_update_volume
  split
  · exact ⟨0, str, [], rfl, Kept.refl str⟩
  · rename_i hguard
    rw [not_or] at hguard
    split
    · exact ⟨0, str, [], rfl, Kept.refl str⟩
    · have hvalue : Small value := small_between _ _ _ hstr.min hstr.max (by omega) (by omega)
      have hconvert := convert_ok str.min str.max str.raw_min str.raw_max value hstr.min hstr.max hstr.raw_min
        hstr.raw_max hvalue
      obtain ⟨hlower, hupper⟩ := scaled_range str.min str.max str.raw_min str.raw_max value hstr.range (by omega)
        (by omega)
      set raw := scaled str.min str.max str.raw_min str.raw_max value with hraw
      have husr := kept_usr str channel value
      have hboth := husr.trans _ _ _ _ _
        (kept_raw _ channel raw (small_between _ _ _ hstr.raw_min hstr.raw_max hlower hupper))
      unfold convert_from_user
      dsimp only
      rw [hconvert]
      simp only [bind, Except.bind]
      split
      · exact ⟨0, _, [], rfl, husr⟩
      · split
        · exact ⟨_, _, [], rfl, hboth⟩
        · refine ⟨_, _, _, rfl, { hboth with written := ?_ }⟩
          intro w hmem
          obtain rfl := List.mem_singleton.mp hmem
          dsimp only
          rw [Function.update_self]
          exact ⟨rfl, hlower, hupper⟩

theorem update_volume_loop_spec (hw : Nat → Hw) (value : Int) (n i : Nat) (str : SndSelemVolItem)
    (hstr : Bounded str) :
    ∃ err str' more, update_volume_loop hw value n i str = .ok (err, str', more) ∧ Kept str str' more := by
  induction n generalizing i str with
  | zero => exact ⟨0, str, [], rfl, Kept.refl str⟩
  | succ n ih =>
    obtain ⟨err, str', more, hupdate, hkept⟩ := update_volume_spec (hw i) str i value hstr
    unfold update_volume_loop
    rw [hupdate]
    simp only [bind, Except.bind]
    split
    · exact ⟨err, str', more, rfl, hkept⟩
    · obtain ⟨err', str'', more', hloop, hkept'⟩ := ih (i + 1) str' (hkept.bounded _ _ _ hstr)
      rw [hloop]
      exact ⟨err', str'', more ++ more', rfl, hkept.trans _ _ _ _ _ hkept'⟩

theorem convert_to_user_ok (str : SndSelemVolItem) (val : Int) (hstr : Bounded str) (hval : Small val) :
    ∃ x, convert_to_user str val = .ok x :=
  ⟨_, convert_ok _ _ _ _ _ hstr.raw_min hstr.raw_max hstr.min hstr.max hval⟩

theorem set_range_loop_spec (n i : Nat) (str : SndSelemVolItem) (hstr : Bounded str)
    (hraw : ∀ j, j < str.channels → Small (str.vol (RAW_IDX j))) (hn : i + n ≤ str.channels) :
    ∃ str', set_range_loop n i str = .ok str' ∧ Kept str str' [] := by
  induction n generalizing i str with
  | zero => exact ⟨str, rfl, Kept.refl str⟩
  | succ n ih =>
    obtain ⟨value, hvalue⟩ := convert_to_user_ok str _ hstr (hraw i (by omega))
    have hkept := kept_usr str i value
    obtain ⟨str', hloop, hkept'⟩ := ih (i + 1) _ (hkept.bounded _ _ _ hstr) (hkept.raw hraw)
      (by show i + 1 + n ≤ str.channels; omega)
    unfold set_range_loop
    rw [hvalue]
    exact ⟨str', hloop, hkept.trans _ _ _ _ _ hkept'⟩

theorem update_item_loop_spec (obj : Nat → Int) (n i : Nat) (changed : Bool) (vol : SndSelemVolItem)
    (hvol : Bounded vol) (hobj : ∀ j, j < vol.channels → Small (obj j)) (hn : i + n ≤ vol.channels) :
    ∃ changed' vol', update_item_loop obj n i changed vol = .ok (changed', vol') ∧ Kept vol vol' [] := by
  induction n generalizing i changed vol with
  | zero => exact ⟨changed, vol, rfl, Kept.refl vol⟩
  | succ n ih =>
    have hi := hobj i (by omega)
    have hraw := kept_raw vol i (obj i) hi
    obtain ⟨value, hvalue⟩ := convert_to_user_ok _ (obj i) (hraw.bounded _ _ _ hvol) hi
    have hkept := hraw.trans _ _ _ _ _ (kept_usr _ i value)
    unfold update_item_loop
    dsimp only
    rw [hvalue]
    obtain ⟨changed', vol', hloop, hkept'⟩ := ih (i + 1) _ _ (hkept.bounded _ _ _ hvol) hobj
      (by show i + 1 + n ≤ vol.channels; omega)
    exact ⟨changed', vol', hloop, hkept.trans _ _ _ _ _ hkept'⟩

/-! ## Every run -/

theorem set_range_spec (item : SndSelemVolItem) (min max : Int) (hitem : Bounded item) (hmin : Small min)
    (hmax : Small max) (hraw : ∀ i, i < item.channels → Small (item.vol (RAW_IDX i))) :
    ∃ item', set_volume_range item min max = .ok item' ∧ Kept { item with min, max } item' [] := by
  unfold set_volume_range
  apply set_range_loop_spec
  · exact { hitem with min := hmin, max := hmax }
  · exact hraw
  · exact (Nat.zero_add _).le

theorem set_dB_spec (hw : Hw) (converted : Int × Int) (item : SndSelemVolItem) (channel : Nat)
    (hitem : Bounded item) (hvalue : 0 ≤ converted.1 → Small converted.2) :
    ∃ err item' more, _snd_selem_vol_set_dB hw converted item channel = .ok (err, item', more) ∧
      Kept item item' more := by
  unfold _snd_selem_vol_set_dB
  dsimp only
  by_cases herr : converted.1 < 0
  · rw [if_pos herr]
    exact ⟨_, item, [], rfl, Kept.refl item⟩
  · rw [if_neg herr]
    obtain ⟨value, hconvert⟩ := convert_to_user_ok item converted.2 hitem (hvalue (not_lt.mp herr))
    rw [hconvert]
    exact update_volume_spec hw item _ value hitem

structure Inv (raw_min raw_max : Int) (channels : Nat) (s : State) : Prop where
  raw_min_eq : s.item.raw_min = raw_min
  raw_max_eq : s.item.raw_max = raw_max
  channels_eq : s.item.channels = channels
  bounded : Bounded s.item
  raw : ∀ i, i < channels → Small (s.item.vol (RAW_IDX i))
  written : ∀ w ∈ s.written, w.values = Function.update w.read w.channel (w.values w.channel) ∧
    raw_min ≤ w.values w.channel ∧ w.values w.channel ≤ raw_max

section Runs

variable (raw_min raw_max : Int) (channels : Nat)

theorem Inv.kept (s : State) (item : SndSelemVolItem) (more : List Write)
    (h : Inv raw_min raw_max channels s) (hkept : Kept s.item item more) :
    Inv raw_min raw_max channels ⟨item, s.written ++ more⟩ where
  raw_min_eq := hkept.raw_min_eq.trans h.raw_min_eq
  raw_max_eq := hkept.raw_max_eq.trans h.raw_max_eq
  channels_eq := hkept.channels_eq.trans h.channels_eq
  bounded := hkept.bounded _ _ _ h.bounded
  raw := by
    have hraw := hkept.raw
    rw [h.channels_eq] at hraw
    exact hraw h.raw
  written := by
    intro w hw
    rcases List.mem_append.mp hw with hw | hw
    · exact h.written w hw
    · have hwritten := hkept.written w hw
      rwa [h.raw_min_eq, h.raw_max_eq] at hwritten

/-- New user bounds, and what becomes of the user values with them. -/
theorem Inv.set_range (s : State) (min max : Int) (item : SndSelemVolItem)
    (h : Inv raw_min raw_max channels s) (hmin : Small min) (hmax : Small max)
    (hkept : Kept { s.item with min, max } item []) : Inv raw_min raw_max channels { s with item } := by
  have hset : Inv raw_min raw_max channels { s with item := { s.item with min, max } } :=
    { h with bounded := { h.bounded with min := hmin, max := hmax } }
  have hafter := hset.kept _ _ _ _ item [] hkept
  rwa [List.append_nil] at hafter

theorem step_spec (s : State) (a : Act) (h : Inv raw_min raw_max channels s) (ha : Allowed channels a) :
    ∃ s', step s a = some s' ∧ Inv raw_min raw_max channels s' := by
  unfold step exec
  cases a with
  | set_range min max =>
    obtain ⟨item, hset, hkept⟩ := set_range_spec s.item min max h.bounded ha.1 ha.2
      (by rw [h.channels_eq]; exact h.raw)
    dsimp only
    rw [hset]
    exact ⟨_, rfl, h.set_range _ _ _ _ _ _ item ha.1 ha.2 hkept⟩
  | update hw channel value =>
    obtain ⟨err, item, more, hupdate, hkept⟩ := update_volume_spec hw s.item channel value h.bounded
    dsimp only
    rw [hupdate]
    exact ⟨_, rfl, h.kept _ _ _ _ item more hkept⟩
  | update_all hw value =>
    obtain ⟨err, item, more, hupdate, hkept⟩ :=
      update_volume_loop_spec hw value s.item.channels 0 s.item h.bounded
    dsimp only
    unfold _snd_selem_update_volume_all
    rw [hupdate]
    exact ⟨_, rfl, h.kept _ _ _ _ item more hkept⟩
  | set_dB hw converted channel =>
    obtain ⟨err, item, more, hset, hkept⟩ := set_dB_spec hw converted s.item channel h.bounded ha.2.1
    dsimp only
    rw [hset]
    exact ⟨_, rfl, h.kept _ _ _ _ item more hkept⟩
  | event hw =>
    dsimp only
    by_cases hread : hw.read_errno ≠ 0
    · rw [if_pos hread]
      exact ⟨s, rfl, h⟩
    · rw [if_neg hread]
      obtain ⟨changed, item, hupdate, hkept⟩ := update_item_loop_spec hw.values s.item.channels 0 false s.item
        h.bounded (by rw [h.channels_eq]; exact ha) (Nat.zero_add _).le
      unfold update_selem_vol_item
      rw [hupdate]
      have hafter := h.kept _ _ _ _ item [] hkept
      rw [List.append_nil] at hafter
      exact ⟨_, rfl, hafter⟩

/-- What holds in every state: a write has a value of the raw range for its channel, and for the
others what was read; and as long as the user range is one, the conversions are good. -/
structure Good (s : State) : Prop where
  written : ∀ w ∈ s.written, w.values = Function.update w.read w.channel (w.values w.channel) ∧
    raw_min ≤ w.values w.channel ∧ w.values w.channel ≤ raw_max
  from_user_mono : s.item.min < s.item.max → ∀ a b x y, a ≤ b → convert_from_user s.item a = .ok x →
    convert_from_user s.item b = .ok y → x ≤ y
  from_user_min : s.item.min < s.item.max → convert_from_user s.item s.item.min = .ok raw_min
  from_user_max : s.item.min < s.item.max → convert_from_user s.item s.item.max = .ok raw_max
  to_user_mono : s.item.min < s.item.max → ∀ a b x y, a ≤ b → convert_to_user s.item a = .ok x →
    convert_to_user s.item b = .ok y → x ≤ y
  to_user_min : s.item.min < s.item.max → raw_min < raw_max →
    convert_to_user s.item raw_min = .ok s.item.min
  to_user_max : s.item.min < s.item.max → raw_min < raw_max →
    convert_to_user s.item raw_max = .ok s.item.max

theorem convert_mono (fmin fmax tmin tmax a b x y : Int) (hf : fmin ≤ fmax) (ht : tmin ≤ tmax) (hab : a ≤ b)
    (hx : convert fmin fmax tmin tmax a = .ok x) (hy : convert fmin fmax tmin tmax b = .ok y) : x ≤ y := by
  rw [convert_eq _ _ _ _ _ _ hx, convert_eq _ _ _ _ _ _ hy]
  exact scaled_mono fmin fmax tmin tmax a b hf ht hab

theorem convert_min (fmin fmax tmin tmax : Int) (hfmin : Small fmin) (hfmax : Small fmax) (htmin : Small tmin)
    (htmax : Small tmax) : convert fmin fmax tmin tmax fmin = .ok tmin := by
  rw [convert_ok _ _ _ _ _ hfmin hfmax htmin htmax hfmin, scaled_min]

theorem convert_max (fmin fmax tmin tmax : Int) (hfmin : Small fmin) (hfmax : Small fmax) (htmin : Small tmin)
    (htmax : Small tmax) (hf : fmin < fmax) : convert fmin fmax tmin tmax fmax = .ok tmax := by
  rw [convert_ok _ _ _ _ _ hfmin hfmax htmin htmax hfmax, scaled_max _ _ _ _ hf.ne]

theorem Inv.good (s : State) (h : Inv raw_min raw_max channels s) : Good raw_min raw_max s := by
  obtain ⟨rfl, rfl, -, hb, -, hwritten⟩ := h
  constructor
  · exact hwritten
  · intro hrange a b x y hab hx hy
    exact convert_mono _ _ _ _ a b x y hrange.le hb.range hab hx hy
  · intro _
    exact convert_min _ _ _ _ hb.min hb.max hb.raw_min hb.raw_max
  · intro hrange
    exact convert_max _ _ _ _ hb.min hb.max hb.raw_min hb.raw_max hrange
  · intro hrange a b x y hab hx hy
    exact convert_mono _ _ _ _ a b x y hb.range hrange.le hab hx hy
  · intro _ _
    exact convert_min _ _ _ _ hb.raw_min hb.raw_max hb.min hb.max
  · intro _ hraw
    exact convert_max _ _ _ _ hb.raw_min hb.raw_max hb.min hb.max hraw

end Runs

/-- In every run no conversion overflows or divides by zero, the channel of a write gets a value of the
raw range, and the conversions keep order and ends. -/
theorem volumes_in_range (item : SndSelemVolItem) (as : List Act) (hitem : Bounded item)
    (hraw : ∀ i, i < item.channels → Small (item.vol (RAW_IDX i)))
    (has : ∀ a ∈ as, Allowed item.channels a) :
    AllStates step (Good item.raw_min item.raw_max) ⟨item, []⟩ as := by
  apply allStates_of_allSteps (Inv item.raw_min item.raw_max item.channels) _ fun _ a => Allowed item.channels a
  · exact fun s h => h.good
  · exact fun s a h ha => step_spec _ _ _ s a h ha
  · exact ⟨rfl, rfl, rfl, hitem, hraw, fun _ h => absurd h List.not_mem_nil⟩
  · exact allSteps_of_mem _ _ _ has

/-- Two channels of the raw range 0 to 10, which the user sees as 0 to 20. -/
def stereo : SndSelemVolItem := ⟨2, 0, 20, 0, 10, fun _ => 0⟩

theorem stereo_bounded : Bounded stereo where
  range := by decide
  raw_min := by decide
  raw_max := by decide
  min := by decide
  max := by decide

theorem stereo_raw (i : Nat) (_ : i < stereo.channels) : Small (stereo.vol (RAW_IDX i)) := by
  show Small 0
  decide

def answering (x : Int) : Hw := ⟨0, fun _ => x, 0⟩

theorem answering_small (x : Int) (channels : Nat) (hx : Small x) (i : Nat) (_ : i < channels) :
    Small ((answering x).values i) := hx

theorem stereo_in_range :
    AllStates step (Good 0 10) ⟨stereo, []⟩
      [.update (answering 3) 0 14, .set_range (-5) 5, .update_all (fun _ => answering 7) 2] := by
  apply volumes_in_range stereo _ stereo_bounded stereo_raw
  intro a ha
  simp only [List.mem_cons, List.not_mem_nil, or_false] at ha
  rcases ha with rfl | rfl | rfl
  · exact ⟨by decide, answering_small 3 2 (by decide)⟩
  · exact ⟨by decide, by decide⟩
  · exact fun _ => answering_small 7 2 (by decide)

/-- The other channel may be out of the range, and is written back as it was read. -/
theorem read_is_written : ¬ ∀ (item : SndSelemVolItem) (as : List Act), Bounded item →
    (∀ i, i < item.channels → Small (item.vol (RAW_IDX i))) → (∀ a ∈ as, Allowed item.channels a) →
    AllStates step (fun s => ∀ w ∈ s.written, ∀ i, i < item.channels →
      item.raw_min ≤ w.values i ∧ w.values i ≤ item.raw_max) ⟨item, []⟩ as := by
  intro h
  have hallowed : ∀ a ∈ [Act.update (answering 100) 0 14], Allowed stereo.channels a := by
    intro a ha
    obtain rfl := List.mem_singleton.mp ha
    exact ⟨by decide, answering_small 100 2 (by decide)⟩
  obtain ⟨-, s, hstep, hwritten⟩ := h stereo _ stereo_bounded stereo_raw hallowed
  obtain rfl := Option.some.inj hstep
  have hw := hwritten _ (List.mem_singleton.mpr rfl) 1 (by decide)
  exact absurd hw.2 (by decide)

end Salsa.Mixer.Volume
