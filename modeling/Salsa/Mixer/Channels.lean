import Salsa.Mixer.Retry

/-!
# Channel ids of setters and getters

The getters take a channel that an item does not have for the first one, or refuse it. The setters
take every channel as it is.
-/

namespace Salsa.Mixer.Cache

open CInt
open Volume (SndSelemVolItem Hw Write USR_IDX RAW_IDX convert_from_user)

/-! ## What is demanded -/

/-- The slot that the getter looks at. -/
def Control.slot (elem : SndMixerElem) : Control → Option Nat
  | .playback_volume => elem.items SND_SELEM_ITEM_PVOLUME
  | .capture_volume => elem.items SND_SELEM_ITEM_CVOLUME
  | .playback_switch => elem.items SND_SELEM_ITEM_PSWITCH
  | .capture_switch => elem.items SND_SELEM_ITEM_CSWITCH
  | .enum_item => elem.items SND_SELEM_ITEM_ENUM

/-- The slot that the setter looks at. -/
def Control.set_slot (elem : SndMixerElem) : Control → Option Nat
  | .capture_switch => elem.items (capture_switch_type elem)
  | control => control.slot elem

def Control.kind : Control → Kind
  | .playback_volume | .capture_volume => .volume
  | .playback_switch | .capture_switch => .switch
  | .enum_item => .enum

def Items.channels (m : Items) (it : Nat) : Kind → Nat
  | .volume => (m.vol it).channels
  | .switch => (m.sw it).channels
  | .enum => (m.enum it).channels

def InRange (m : Items) (it : Nat) (value : Int) : Kind → Prop
  | .volume => (m.vol it).min ≤ value ∧ value ≤ (m.vol it).max
  | .switch => True
  | .enum => 0 ≤ value ∧ value < (m.enum it).items.toNat

/-- What a getter gives for a value; a switch is on or off. -/
def shown (value : Int) : Kind → Int
  | .switch => if value ≠ 0 then 1 else 0
  | _ => value

/-- The items are the same for one who looks at the channels of one item only. -/
def SameInside (m t : Items) (it : Nat) : Kind → Prop
  | .volume => ∃ vol, t.vol it = { m.vol it with vol } ∧ ∀ i < 2 * (m.vol it).channels, vol i = (m.vol it).vol i
  | .switch =>
    ∃ sw, t.sw it = { m.sw it with sw } ∧ ∀ i < (m.sw it).channels, sw.getLsbD i = (m.sw it).sw.getLsbD i
  | .enum => ∃ item, t.enum it = { m.enum it with item } ∧ ∀ i < (m.enum it).channels, item i = (m.enum it).item i

/-- The items are the same but for the values of one channel of one item. -/
def SameElsewhere (m t : Items) (it channel : Nat) : Kind → Prop
  | .volume =>
    ∃ vol, t = m.set_vol it { m.vol it with vol } ∧
      ∀ i, i ≠ USR_IDX channel → i ≠ RAW_IDX channel → vol i = (m.vol it).vol i
  | .switch => ∃ sw, t = m.set_sw it { m.sw it with sw } ∧ ∀ i, i ≠ channel → sw.getLsbD i = (m.sw it).sw.getLsbD i
  | .enum => ∃ item, t = m.set_enum it { m.enum it with item } ∧ ∀ i, i ≠ channel → item i = (m.enum it).item i

/-- The setter sets the channel that the getter looks at, and nothing else is read or written. -/
structure SetsChannel (hw : Hw) (m : Items) (elem : SndMixerElem) (control : Control) (it channel : Nat) (value : Int) :
    Prop where
  defined : ∃ r, set_channel hw m elem control channel value = .ok r
  succeeds : control.set_slot elem ≠ none → (control.kind = .enum → channel < m.channels it control.kind) →
    ∃ m' written, set_channel hw m elem control channel value = .ok (0, m', written)
  get_back : ∀ m' written, set_channel hw m elem control channel value = .ok (0, m', written) →
    get_channel m' elem control channel = .ok (0, some (shown value control.kind))
  others : ∀ err m' written, set_channel hw m elem control channel value = .ok (err, m', written) →
    ∀ c < m.channels it control.kind, c ≠ channel_or_first (m.channels it control.kind) channel →
      get_channel m' elem control c = get_channel m elem control c
  writes : ∀ err m' written, set_channel hw m elem control channel value = .ok (err, m', written) →
    SameElsewhere m m' it (channel_or_first (m.channels it control.kind) channel) control.kind
  reads : ∀ t, SameInside m t it control.kind → ∀ err m' written,
    set_channel hw m elem control channel value = .ok (err, m', written) →
      ∃ t', set_channel hw t elem control channel value = .ok (err, t', written)
  beyond : m.channels it control.kind ≤ channel →
    set_channel hw m elem control channel value =
      if control.kind = .enum then .ok (-EINVAL, m, []) else set_channel hw m elem control 0 value

/-- The value can be laid on the raw range without an overflow. -/
def ConversionFits (str : SndSelemVolItem) (value : Int) : Prop :=
  (str.min = str.raw_min ∧ str.max = str.raw_max) ∨ str.min = str.max ∨
    let product := (value - str.min) * (str.raw_max - str.raw_min)
    let quotient := product.tdiv (str.max - str.min)
    IsLong (value - str.min) ∧ IsLong (str.raw_max - str.raw_min) ∧ IsLong product ∧ IsLong (str.max - str.min) ∧
      IsLong quotient ∧ IsLong (quotient + str.raw_min)

/-- A volume is the one that the channel has, or can be converted. -/
def Converts (m : Items) (it channel : Nat) (value : Int) : Kind → Prop
  | .volume => value = (m.vol it).vol (USR_IDX channel) ∨ ConversionFits (m.vol it) value
  | _ => True

/-- The item has the channel, and is the one that the setter takes. -/
structure HasChannel (m : Items) (elem : SndMixerElem) (control : Control) (it channel : Nat) (value : Int) : Prop where
  inside : channel < m.channels it control.kind
  slot : control.set_slot elem = some it
  converts : Converts m it channel value control.kind

theorem channel_or_first_inside {n channel : Nat} (h : channel < n) : channel_or_first n channel = channel :=
  if_neg (not_le.mpr h)

/-- A setter that works, for a channel that the item has. -/
theorem SetsChannel.of_result {hw : Hw} {m m' : Items} {elem : SndMixerElem} {control : Control} {it channel : Nat}
    {value : Int} {written : List Write} (hinside : channel < m.channels it control.kind)
    (hresult : set_channel hw m elem control channel value = .ok (0, m', written))
    (hget : get_channel m' elem control channel = .ok (0, some (shown value control.kind)))
    (hothers : ∀ c < m.channels it control.kind, c ≠ channel →
      get_channel m' elem control c = get_channel m elem control c)
    (hwrites : SameElsewhere m m' it channel control.kind)
    (hreads : ∀ t, SameInside m t it control.kind →
      ∃ t', set_channel hw t elem control channel value = .ok (0, t', written)) :
    SetsChannel hw m elem control it channel value where
  defined := ⟨_, hresult⟩
  succeeds _ _ := ⟨m', written, hresult⟩
  get_back m'' written' h := by
    rw [hresult] at h
    cases h
    exact hget
  others err m'' written' h := by
    rw [hresult] at h
    cases h
    rw [channel_or_first_inside hinside]
    exact hothers
  writes err m'' written' h := by
    rw [hresult] at h
    cases h
    rw [channel_or_first_inside hinside]
    exact hwrites
  reads t ht err m'' written' h := by
    rw [hresult] at h
    cases h
    exact hreads t ht
  beyond h := absurd hinside (not_lt.mpr h)

/-! ## Volumes -/

theorem conversionFits_iff (str : SndSelemVolItem) (value : Int) :
    ConversionFits str value ↔ ∃ raw, convert_from_user str value = .ok raw := by
  unfold ConversionFits convert_from_user Volume.convert
  by_cases hsame : str.min = str.raw_min ∧ str.max = str.raw_max
  · rw [if_pos hsame]
    exact ⟨fun _ => ⟨_, rfl⟩, fun _ => .inl hsame⟩
  · rw [if_neg hsame]
    by_cases hpoint : str.min = str.max
    · rw [if_pos hpoint]
      exact ⟨fun _ => ⟨_, rfl⟩, fun _ => .inr (.inl hpoint)⟩
    · rw [if_neg hpoint]
      have hwidth_ne : str.max - str.min ≠ 0 := sub_ne_zero.mpr (Ne.symm hpoint)
      constructor
      · intro h
        obtain ⟨hoffset, hrange, hproduct, hwidth, hquotient, hsum⟩ := (h.resolve_left hsame).resolve_left hpoint
        rw [hoffset.ok, hrange.ok, hwidth.ok, ok_bind, ok_bind, hproduct.ok, ok_bind, ok_bind, divide,
          if_neg hwidth_ne, hquotient.ok, ok_bind]
        exact ⟨_, hsum.ok⟩
      · rintro ⟨raw, h⟩
        simp only [bind_eq_ok] at h
        obtain ⟨offset, hoffset, range, hrange, product, hproduct, width, hwidth, quotient, hquotient, hsum⟩ := h
        obtain rfl := long_eq_ok _ _ hoffset
        obtain rfl := long_eq_ok _ _ hrange
        obtain rfl := long_eq_ok _ _ hproduct
        obtain rfl := long_eq_ok _ _ hwidth
        rw [divide, if_neg hwidth_ne] at hquotient
        obtain rfl := long_eq_ok _ _ hquotient
        exact .inr (.inr ⟨isLong_of_ok _ _ hoffset, isLong_of_ok _ _ hrange, isLong_of_ok _ _ hproduct,
          isLong_of_ok _ _ hwidth, isLong_of_ok _ _ hquotient, isLong_of_ok _ _ hsum⟩)

theorem works_outcome {hw : Hw} (h : Works hw) (channel : Nat) (value : Int) :
    read_then_write hw channel value =
      (0, [{ channel, read := hw.values, values := Function.update hw.values channel value }]) := by
  unfold read_then_write
  rw [if_neg (not_not_intro h.1), h.2]
  rfl

/-- What is written for a volume, by the values that the channel has and that of the conversion. -/
def volume_written (hw : Hw) (channel : Nat) (value usr cached : Int) (converted : C Int) : List Write :=
  if value = usr then []
  else
    match converted with
    | .ok raw => if raw = cached then [] else (read_then_write hw channel raw).2
    | .error _ => []

def SndSelemVolItem.written (hw : Hw) (str : SndSelemVolItem) (channel : Nat) (value : Int) : List Write :=
  volume_written hw channel value (str.vol (USR_IDX channel)) (str.vol (RAW_IDX channel)) (convert_from_user str value)

theorem volume_update_works {hw : Hw} (h : Works hw) (str : SndSelemVolItem) (channel : Nat) (value : Int)
    (hmin : str.min ≤ value) (hmax : value ≤ str.max)
    (hconverts : value = str.vol (USR_IDX channel) ∨ ConversionFits str value) :
    ∃ vol, Volume._snd_selem_update_volume hw str channel value =
        .ok (0, { str with vol }, SndSelemVolItem.written hw str channel value) ∧
      vol (USR_IDX channel) = value ∧ ∀ i, i ≠ USR_IDX channel → i ≠ RAW_IDX channel → vol i = str.vol i := by
  unfold SndSelemVolItem.written volume_written
  by_cases hsame : value = str.vol (USR_IDX channel)
  · refine ⟨str.vol, ?_, hsame.symm, fun _ _ _ => rfl⟩
    rw [Volume._snd_selem_update_volume, if_neg (by omega), if_pos hsame, if_pos hsame]
  · obtain ⟨raw, hraw⟩ := (conversionFits_iff _ _).mp (hconverts.resolve_left hsame)
    rw [volume_update_eq hw str channel value hmin hmax hsame, hraw, ok_bind, if_neg hsame]
    dsimp only
    by_cases hcached : raw = str.vol (RAW_IDX channel)
    · rw [if_pos hcached, if_pos hcached]
      exact ⟨_, rfl, Function.update_self .., fun i hi _ => Function.update_of_ne hi _ _⟩
    · rw [if_neg hcached, if_neg hcached, works_outcome h]
      refine ⟨_, rfl, ?_, fun i husr hraw => ?_⟩
      · rw [Function.update_of_ne (Volume.raw_ne_usr channel channel).symm, Function.update_self]
      · rw [Function.update_of_ne hraw, Function.update_of_ne husr]

section Volume

variable {hw : Hw} {m : Items} {elem : SndMixerElem} {control : Control} (hkind : control.kind = .volume)

include hkind

theorem set_volume (m : Items) (channel : Nat) (value : Int) :
    set_channel hw m elem control channel value =
      _snd_selem_update_volume hw m (control.set_slot elem) channel value := by
  cases control with
  | playback_volume | capture_volume => rfl
  | playback_switch | capture_switch | enum_item => cases hkind

theorem get_volume (m : Items) (it channel : Nat) (hslot : control.slot elem = some it)
    (h : channel_or_first (m.vol it).channels channel < (m.vol it).channels) :
    get_channel m elem control channel =
      .ok (0, some ((m.vol it).vol (USR_IDX (channel_or_first (m.vol it).channels channel)))) := by
  have husr : USR_IDX (channel_or_first (m.vol it).channels channel) < 2 * (m.vol it).channels := by
    unfold USR_IDX
    omega
  have hget (type : Fin 5) (htype : elem.items type = some it) :
      _snd_mixer_selem_get_volume m elem type channel =
        .ok (0, some ((m.vol it).vol (USR_IDX (channel_or_first (m.vol it).channels channel)))) := by
    unfold _snd_mixer_selem_get_volume
    rw [htype]
    dsimp only
    rw [access_ok husr]
    rfl
  cases control with
  | playback_volume | capture_volume => exact hget _ hslot
  | playback_switch | capture_switch | enum_item => cases hkind

/-- What is there for a channel is what its getter gives. -/
theorem get_volume_inside (m : Items) (it channel : Nat) (hslot : control.slot elem = some it)
    (hchannel : channel < (m.vol it).channels) :
    get_channel m elem control channel = .ok (0, some ((m.vol it).vol (USR_IDX channel))) := by
  have hor : channel_or_first (m.vol it).channels channel = channel := channel_or_first_inside hchannel
  have hget := get_volume hkind m it channel hslot (by rw [hor]; exact hchannel)
  rwa [hor] at hget

theorem volume_set_slot (it : Nat) (hslot : control.slot elem = some it) : control.set_slot elem = some it := by
  cases control with
  | playback_volume | capture_volume => exact hslot
  | playback_switch | capture_switch | enum_item => cases hkind

/-- The call is defined for a channel of the item and a value that can be converted only. -/
theorem has_of_volume_sets (it channel : Nat) (value : Int) (hslot : control.slot elem = some it)
    (hrange : InRange m it value control.kind) (h : SetsChannel hw m elem control it channel value) :
    HasChannel m elem control it channel value := by
  have hset_slot := volume_set_slot hkind it hslot
  rw [hkind] at hrange
  obtain ⟨hmin, hmax⟩ := hrange
  obtain ⟨r, hr⟩ := h.defined
  rw [set_volume hkind, hset_slot] at hr
  have hchannel : channel < (m.vol it).channels := by
    by_contra hout
    rw [update_volume_outside hw m it channel value hout hmin hmax] at hr
    cases hr
  refine ⟨by rw [hkind]; exact hchannel, hset_slot, ?_⟩
  rw [hkind]
  rw [update_volume_inside hw m it channel value hchannel] at hr
  obtain ⟨r', hupdate, -⟩ := (bind_eq_ok _ _ _).mp hr
  by_cases hsame : value = (m.vol it).vol (USR_IDX channel)
  · exact .inl hsame
  · rw [volume_update_eq hw _ channel value hmin hmax hsame] at hupdate
    obtain ⟨raw, hraw, -⟩ := (bind_eq_ok _ _ _).mp hupdate
    exact .inr ((conversionFits_iff _ _).mpr ⟨raw, hraw⟩)

theorem volume_sets_of_has (hworks : Works hw) (it channel : Nat) (value : Int) (hslot : control.slot elem = some it)
    (hrange : InRange m it value control.kind) (h : HasChannel m elem control it channel value) :
    SetsChannel hw m elem control it channel value := by
  have hset_slot := volume_set_slot hkind it hslot
  have hinside := h.inside
  have hconverts := h.converts
  rw [hkind] at hrange hinside hconverts
  obtain ⟨hmin, hmax⟩ := hrange
  have hchannel : channel < (m.vol it).channels := hinside
  obtain ⟨vol, hupdate, husr, hothers⟩ := volume_update_works hworks (m.vol it) channel value hmin hmax hconverts
  have hresult : set_channel hw m elem control channel value =
      .ok (0, m.set_vol it { m.vol it with vol }, SndSelemVolItem.written hw (m.vol it) channel value) := by
    rw [set_volume hkind, hset_slot, update_volume_inside hw m it channel value hchannel, hupdate]
    rfl
  have hget_after (c : Nat) (hc : c < (m.vol it).channels) :
      get_channel (m.set_vol it { m.vol it with vol }) elem control c = .ok (0, some (vol (USR_IDX c))) := by
    have hget := get_volume_inside hkind (m.set_vol it { m.vol it with vol }) it c hslot
    rw [set_vol_self] at hget
    exact hget hc
  apply SetsChannel.of_result h.inside hresult
  · rw [hget_after channel hchannel, husr, hkind]
    rfl
  · intro c hc hne
    rw [hkind] at hc
    rw [hget_after c hc, get_volume_inside hkind m it c hslot hc, hothers]
    · unfold USR_IDX
      omega
    · exact (Volume.raw_ne_usr channel c).symm
  · rw [hkind]
    exact ⟨vol, rfl, hothers⟩
  · intro t ht
    rw [hkind] at ht
    obtain ⟨vol', ht, hsame⟩ := ht
    have husr' : vol' (USR_IDX channel) = (m.vol it).vol (USR_IDX channel) := hsame _ (by unfold USR_IDX; omega)
    have hraw' : vol' (RAW_IDX channel) = (m.vol it).vol (RAW_IDX channel) := hsame _ (by unfold RAW_IDX; omega)
    have hwritten : SndSelemVolItem.written hw (t.vol it) channel value =
        SndSelemVolItem.written hw (m.vol it) channel value := by
      unfold SndSelemVolItem.written
      rw [ht]
      dsimp only
      rw [husr', hraw']
      rfl
    obtain ⟨vol'', hupdate', -⟩ := volume_update_works hworks (t.vol it) channel value (by rw [ht]; exact hmin)
      (by rw [ht]; exact hmax) (by rw [ht]; dsimp only; rw [husr']; exact hconverts)
    rw [set_volume hkind, hset_slot, update_volume_inside hw t it channel value (by rw [ht]; exact hchannel), hupdate',
      hwritten]
    exact ⟨_, rfl⟩

theorem volume_sets_iff (hworks : Works hw) (it channel : Nat) (value : Int) (hslot : control.slot elem = some it)
    (hrange : InRange m it value control.kind) :
    SetsChannel hw m elem control it channel value ↔ HasChannel m elem control it channel value :=
  ⟨has_of_volume_sets hkind it channel value hslot hrange,
    volume_sets_of_has hkind hworks it channel value hslot hrange⟩

end Volume

/-! ## Switches -/

def SndSelemSwItem.assign (str : SndSelemSwItem) (channel : Nat) (value : Int) : SndSelemSwItem :=
  { str with sw := Bits.assign str.sw channel (decide (value ≠ 0)) }

def SndSelemSwItem.written (hw : Hw) (str : SndSelemSwItem) (channel : Nat) (value : Int) : List Write :=
  if str.sw.getLsbD channel = decide (value ≠ 0) then []
  else (read_then_write hw channel (if value ≠ 0 then 1 else 0)).2

theorem set_sw_same (m : Items) (it : Nat) : m.set_sw it (m.sw it) = m := by
  unfold Items.set_sw
  rw [Function.update_eq_self]

theorem update_switch_works {hw : Hw} (h : Works hw) (m : Items) (elem : SndMixerElem) (type : Fin 5) (it channel : Nat)
    (value : Int) (hslot : elem.items type = some it) (hchannel : channel < 32) :
    update_switch hw m elem type channel value =
      .ok (0, m.set_sw it ((m.sw it).assign channel value), SndSelemSwItem.written hw (m.sw it) channel value) := by
  unfold SndSelemSwItem.written
  rw [update_switch_eq hw m elem type it channel value hslot hchannel]
  by_cases hbit : (m.sw it).sw.getLsbD channel = decide (value ≠ 0)
  · have hsame : (m.sw it).assign channel value = m.sw it := by
      unfold SndSelemSwItem.assign
      rw [← (Bits.assign_eq_self _ _ _ hchannel).mpr hbit]
    rw [if_pos hbit, if_pos hbit, hsame, set_sw_same]
  · rw [if_neg hbit, if_neg hbit, works_outcome h]
    rfl

section Switch

variable {hw : Hw} {m : Items} {elem : SndMixerElem} {control : Control} (hkind : control.kind = .switch)

include hkind

theorem set_switch : ∃ type, elem.items type = control.set_slot elem ∧ ∀ hw m channel value,
    set_channel hw m elem control channel value = update_switch hw m elem type channel value := by
  cases control with
  | playback_switch => exact ⟨SND_SELEM_ITEM_PSWITCH, rfl, fun _ _ _ _ => rfl⟩
  | capture_switch => exact ⟨capture_switch_type elem, rfl, fun _ _ _ _ => rfl⟩
  | playback_volume | capture_volume | enum_item => cases hkind

theorem get_switch (m : Items) (it channel : Nat) (hslot : control.slot elem = some it)
    (h : channel_or_first (m.sw it).channels channel < 32) :
    get_channel m elem control channel =
      .ok (0, some (if (m.sw it).sw.getLsbD (channel_or_first (m.sw it).channels channel) then 1 else 0)) := by
  have hget (type : Fin 5) (htype : elem.items type = some it) :
      _snd_mixer_selem_get_switch m elem type channel =
        .ok (0, some (if (m.sw it).sw.getLsbD (channel_or_first (m.sw it).channels channel) then 1 else 0)) := by
    unfold _snd_mixer_selem_get_switch
    rw [htype]
    dsimp only
    rw [shift, if_pos h, ok_bind]
    have hbit := Bits.and_shift_eq_zero (m.sw it).sw _ h
    cases hon : (m.sw it).sw.getLsbD (channel_or_first (m.sw it).channels channel) with
    | false =>
      rw [if_neg (not_not_intro (hbit.mpr hon))]
      rfl
    | true =>
      rw [if_pos fun hzero => by rw [hbit.mp hzero] at hon; cases hon]
      rfl
  cases control with
  | playback_switch | capture_switch => exact hget _ hslot
  | playback_volume | capture_volume | enum_item => cases hkind

/-- The bit of another channel or of another item decides whether something is written. -/
theorem switch_reads (hworks : Works hw) (it it' channel : Nat) (value : Int) (hslot : control.set_slot elem = some it')
    (hchannel : channel < 32) (h : SetsChannel hw m elem control it channel value) :
    it' = it ∧ channel < (m.sw it).channels := by
  obtain ⟨type, htype, hset⟩ := @set_switch elem control hkind
  rw [hslot] at htype
  by_contra hnot
  have hflip : ∃ flip : Int, decide (flip ≠ 0) = !(m.sw it').sw.getLsbD channel := by
    cases (m.sw it').sw.getLsbD channel with
    | false => exact ⟨1, rfl⟩
    | true => exact ⟨0, rfl⟩
  obtain ⟨flip, hflip⟩ := hflip
  -- the same items with the bit the other way
  set t := m.set_sw it' ((m.sw it').assign channel flip) with ht
  have hinside : SameInside m t it .switch := by
    by_cases hit : it' = it
    · subst hit
      refine ⟨_, set_sw_self m it' _, fun i hi => ?_⟩
      rw [Bits.getLsbD_assign _ _ _ hchannel, if_neg]
      rintro rfl
      exact hnot ⟨rfl, hi⟩
    · exact ⟨(m.sw it).sw, Function.update_of_ne (Ne.symm hit) _ _, fun _ _ => rfl⟩
  have hbit : (t.sw it').sw.getLsbD channel = !(m.sw it').sw.getLsbD channel := by
    rw [ht, set_sw_self, ← hflip]
    exact (Bits.getLsbD_assign _ _ _ hchannel channel).trans (if_pos rfl)
  have hm := update_switch_works hworks m elem type it' channel value htype hchannel
  have htr := update_switch_works hworks t elem type it' channel value htype hchannel
  obtain ⟨t', hreads⟩ := h.reads t (by rw [hkind]; exact hinside) _ _ _ (by rw [hset]; exact hm)
  rw [hset, htr] at hreads
  have hwritten : SndSelemSwItem.written hw (t.sw it') channel value =
      SndSelemSwItem.written hw (m.sw it') channel value :=
    congrArg (fun r => r.2.2) (Except.ok.inj hreads)
  unfold SndSelemSwItem.written at hwritten
  rw [hbit, works_outcome hworks] at hwritten
  cases hon : (m.sw it').sw.getLsbD channel <;> cases hvalue : decide (value ≠ 0) <;>
    simp [hon, hvalue] at hwritten

/-- A setter that has no item does nothing. -/
theorem switch_refused (it channel : Nat) (value : Int) (hslot : control.set_slot elem = none) :
    SetsChannel hw m elem control it channel value := by
  obtain ⟨type, htype, hset⟩ := @set_switch elem control hkind
  have hresult (m : Items) (channel : Nat) : set_channel hw m elem control channel value = .ok (-EINVAL, m, []) := by
    rw [hset]
    unfold update_switch
    rw [htype, hslot]
    rfl
  have hnot_enum : control.kind ≠ .enum := by
    rw [hkind]
    exact nofun
  constructor
  · exact ⟨_, hresult m channel⟩
  · exact fun h => absurd hslot h
  · intro m' written h
    cases (hresult m channel).symm.trans h
  · intro err m' written h c _ _
    cases (hresult m channel).symm.trans h
    rfl
  · intro err m' written h
    cases (hresult m channel).symm.trans h
    rw [hkind]
    exact ⟨(m.sw it).sw, (set_sw_same m it).symm, fun _ _ => rfl⟩
  · intro t _ err m' written h
    cases (hresult m channel).symm.trans h
    exact ⟨t, hresult t channel⟩
  · intro _
    rw [if_neg hnot_enum, hresult, hresult]

theorem get_switch_inside (m : Items) (it channel : Nat) (hslot : control.slot elem = some it)
    (hchannel : channel < (m.sw it).channels) :
    get_channel m elem control channel = .ok (0, some (if (m.sw it).sw.getLsbD channel then 1 else 0)) := by
  have hor : channel_or_first (m.sw it).channels channel = channel := channel_or_first_inside hchannel
  have hfits := (m.sw it).fits
  have hget := get_switch hkind m it channel hslot (by rw [hor]; omega)
  rwa [hor] at hget

theorem switch_sets_of_has (hworks : Works hw) (it channel : Nat) (value : Int) (hslot : control.slot elem = some it)
    (h : HasChannel m elem control it channel value) : SetsChannel hw m elem control it channel value := by
  obtain ⟨type, htype, hset⟩ := @set_switch elem control hkind
  have hinside := h.inside
  rw [hkind] at hinside
  have hn : channel < (m.sw it).channels := hinside
  have hfits := (m.sw it).fits
  have hchannel : channel < 32 := by omega
  have htype' : elem.items type = some it := htype.trans h.slot
  have hresult : set_channel hw m elem control channel value = .ok (0, _, _) :=
    (hset hw m channel value).trans (update_switch_works hworks m elem type it channel value htype' hchannel)
  have hget_after (c : Nat) (hc : c < (m.sw it).channels) :
      get_channel (m.set_sw it ((m.sw it).assign channel value)) elem control c =
        .ok (0, some (if ((m.sw it).assign channel value).sw.getLsbD c then 1 else 0)) := by
    have hget := get_switch_inside hkind (m.set_sw it ((m.sw it).assign channel value)) it c hslot
    rw [set_sw_self] at hget
    exact hget hc
  apply SetsChannel.of_result h.inside hresult
  · rw [hget_after channel hn, hkind]
    unfold SndSelemSwItem.assign
    dsimp only
    rw [Bits.getLsbD_assign _ _ _ hchannel, if_pos rfl]
    by_cases hvalue : value = 0 <;> simp [hvalue, shown]
  · intro c hc hne
    rw [hkind] at hc
    rw [hget_after c hc, get_switch_inside hkind m it c hslot hc]
    unfold SndSelemSwItem.assign
    dsimp only
    rw [Bits.getLsbD_assign _ _ _ hchannel, if_neg hne]
  · rw [hkind]
    exact ⟨_, rfl, fun i hi => (Bits.getLsbD_assign _ _ _ hchannel i).trans (if_neg hi)⟩
  · intro t ht
    rw [hkind] at ht
    obtain ⟨sw, ht, hsame⟩ := ht
    have hwritten : SndSelemSwItem.written hw (t.sw it) channel value =
        SndSelemSwItem.written hw (m.sw it) channel value := by
      unfold SndSelemSwItem.written
      rw [ht]
      dsimp only
      rw [hsame channel hn]
    rw [hset, update_switch_works hworks t elem type it channel value htype' hchannel, hwritten]
    exact ⟨_, rfl⟩

theorem switch_sets_iff (hworks : Works hw) (it channel : Nat) (value : Int) (hslot : control.slot elem = some it) :
    SetsChannel hw m elem control it channel value ↔
      control.set_slot elem = none ∨ HasChannel m elem control it channel value := by
  obtain ⟨type, htype, hset⟩ := @set_switch elem control hkind
  constructor
  · intro h
    cases hset_slot : control.set_slot elem with
    | none => exact .inl rfl
    | some it' =>
      right
      have hchannel : channel < 32 := by
        by_contra hout
        obtain ⟨r, hr⟩ := h.defined
        rw [hset, update_switch_shift hw m elem type it' channel value (htype.trans hset_slot) hout] at hr
        cases hr
      obtain ⟨rfl, hinside⟩ := switch_reads hkind hworks it it' channel value hset_slot hchannel h
      refine ⟨by rw [hkind]; exact hinside, hset_slot, ?_⟩
      rw [hkind]
      trivial
  · rintro (hnone | h)
    · exact switch_refused hkind it channel value hnone
    · exact switch_sets_of_has hkind hworks it channel value hslot h

end Switch

/-! ## Enumerations -/

section Enum

variable {hw : Hw} {m : Items} {elem : SndMixerElem}

def SndSelemEnumItem.written (hw : Hw) (eitem : SndSelemEnumItem) (channel : Nat) (item : BitVec 32) : List Write :=
  if eitem.item channel = item then [] else (read_then_write hw channel item.toNat).2

theorem set_enum_works (h : Works hw) (m : Items) (it channel : Nat) (item : BitVec 32)
    (hslot : elem.items SND_SELEM_ITEM_ENUM = some it) (hchannel : channel < (m.enum it).channels) :
    snd_mixer_selem_set_enum_item hw m elem channel item =
      .ok (0, m.set_enum it { m.enum it with item := Function.update (m.enum it).item channel item },
        SndSelemEnumItem.written hw (m.enum it) channel item) := by
  unfold SndSelemEnumItem.written
  rw [set_enum_inside hw m elem it channel item hslot hchannel]
  by_cases hsame : (m.enum it).item channel = item
  · rw [if_pos hsame, if_pos hsame, ← hsame, Function.update_eq_self]
    unfold Items.set_enum
    rw [Function.update_eq_self]
  · rw [if_neg hsame, if_neg hsame, works_outcome h]

theorem get_enum (m : Items) (it channel : Nat) (hslot : elem.items SND_SELEM_ITEM_ENUM = some it)
    (hchannel : channel < (m.enum it).channels) :
    get_channel m elem .enum_item channel = .ok (0, some (((m.enum it).item channel).toNat : Int)) := by
  have hget : snd_mixer_selem_get_enum_item m elem channel = .ok (0, some ((m.enum it).item channel)) := by
    unfold snd_mixer_selem_get_enum_item
    rw [hslot]
    dsimp only
    rw [if_neg (not_le.mpr hchannel), access_ok hchannel]
    rfl
  change (snd_mixer_selem_get_enum_item m elem channel >>= _) = _
  rw [hget]
  rfl

theorem toNat_ofInt_item (value : Int) (items : BitVec 32) (hmin : 0 ≤ value) (hmax : value < items.toNat) :
    ((BitVec.ofInt 32 value).toNat : Int) = value := by
  have hitems := items.isLt
  rw [BitVec.toNat_ofInt, Int.toNat_of_nonneg (by omega)]
  omega

theorem enum_sets_iff (hworks : Works hw) (it channel : Nat) (value : Int)
    (hslot : elem.items SND_SELEM_ITEM_ENUM = some it) (hrange : InRange m it value .enum) :
    SetsChannel hw m elem .enum_item it channel value ↔ HasChannel m elem .enum_item it channel value := by
  have hvalue := toNat_ofInt_item value _ hrange.1 hrange.2
  constructor
  · intro h
    refine ⟨?_, hslot, trivial⟩
    by_contra hout
    obtain ⟨r, hr⟩ := h.defined
    cases (set_enum_outside hw m elem it channel (BitVec.ofInt 32 value) hslot hout).symm.trans hr
  · intro h
    have hchannel : channel < (m.enum it).channels := h.inside
    have hresult : set_channel hw m elem .enum_item channel value = .ok (0, _, _) :=
      set_enum_works hworks m it channel (BitVec.ofInt 32 value) hslot hchannel
    have hget_after (c : Nat) (hc : c < (m.enum it).channels) :=
      get_enum (m.set_enum it { m.enum it with
        item := Function.update (m.enum it).item channel (BitVec.ofInt 32 value) }) it c hslot
        (by rw [set_enum_self]; exact hc)
    apply SetsChannel.of_result h.inside hresult
    · rw [hget_after channel hchannel, set_enum_self]
      dsimp only
      rw [Function.update_self, hvalue]
      rfl
    · intro c hc hne
      rw [hget_after c hc, get_enum m it c hslot hc, set_enum_self]
      dsimp only
      rw [Function.update_of_ne hne]
    · exact ⟨_, rfl, fun i hi => Function.update_of_ne hi _ _⟩
    · rintro t ⟨item, ht, hsame⟩
      have hitem : (t.enum it).item channel = (m.enum it).item channel := by
        rw [ht]
        exact hsame channel hchannel
      have hwritten : SndSelemEnumItem.written hw (t.enum it) channel (BitVec.ofInt 32 value) =
          SndSelemEnumItem.written hw (m.enum it) channel (BitVec.ofInt 32 value) := by
        unfold SndSelemEnumItem.written
        rw [hitem]
      have hset := set_enum_works hworks t it channel (BitVec.ofInt 32 value) hslot (by rw [ht]; exact hchannel)
      rw [hwritten] at hset
      exact ⟨_, hset⟩

end Enum

/-- A setter sets what the getter looks at if and only if the item has the channel and is the one that the setter
takes, if it takes any, and a new volume can be converted. -/
theorem sets_channel_iff (hw : Hw) (m : Items) (elem : SndMixerElem) (control : Control) (it channel : Nat)
    (value : Int) (hworks : Works hw) (hslot : control.slot elem = some it) (hrange : InRange m it value control.kind) :
    SetsChannel hw m elem control it channel value ↔
      control.set_slot elem = none ∨ HasChannel m elem control it channel value := by
  have hsome {slot : Option Nat} (h : slot = some it) : ¬ slot = none := by
    rw [h]
    exact nofun
  cases control with
  | playback_volume | capture_volume =>
    exact (volume_sets_iff rfl hworks it channel value hslot hrange).trans (or_iff_right (hsome hslot)).symm
  | playback_switch | capture_switch => exact switch_sets_iff rfl hworks it channel value hslot
  | enum_item =>
    exact (enum_sets_iff hworks it channel value hslot hrange).trans (or_iff_right (hsome hslot)).symm

theorem silent_works : Works ⟨0, fun _ => 0, 0⟩ := ⟨rfl, rfl⟩

theorem sets_channel_second : SetsChannel ⟨0, fun _ => 0, 0⟩ silent master .playback_switch 2 1 1 :=
  (sets_channel_iff _ silent master .playback_switch 2 1 1 silent_works rfl trivial).mpr
    (.inr ⟨by decide, rfl, trivial⟩)

/-- The volume of a third channel is beyond the two that there are. -/
theorem volume_beyond_item : ¬ ∀ hw m elem control it channel value, Works hw → control.slot elem = some it →
    1 ≤ m.channels it control.kind → InRange m it value control.kind →
    SetsChannel hw m elem control it channel value := by
  intro h
  have hsets := h ⟨0, fun _ => 0, 0⟩ silent master .playback_volume 0 2 5 silent_works rfl (by decide)
    ⟨by decide, by decide⟩
  obtain ⟨r, hr⟩ := hsets.defined
  cases hr

end Salsa.Mixer.Cache
