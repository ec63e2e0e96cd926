import Salsa.Mixer.Channels
import Salsa.Lib.Cached

/-!
# What the items know of the hardware

The values of an item are read when it is made and on each VALUE event, and set by the setters, which
write them through. In between the hardware changes by itself.
-/

namespace Salsa.Mixer.Cache

open CInt Run
open Volume (SndSelemVolItem Hw Write USR_IDX RAW_IDX convert_from_user convert_to_user raw_ne_usr raw_inj)

/-! ## Making and updating items -/

/-- `snd_ctl_elem_value_get_boolean` -/
def get_boolean (value : Int) : Int := cut value

/-- `snd_ctl_elem_value_get_enumerated` -/
def get_enumerated (value : Int) : BitVec 32 := BitVec.ofInt 32 value

/-- What is used of a `snd_ctl_elem_info_t`. A control has no more switches than an int has bits. -/
structure Info where
  kind : Kind
  min : Int
  max : Int
  items : BitVec 32
  count : Nat
  fits : kind = .switch → count ≤ 32

/-- The loop over channels that collects the bits of a switch, from channel `i` on. -/
def swbits_loop (val : Nat → Int) : Nat → Nat → BitVec 32 → C (BitVec 32)
  | 0, _, swbits => return swbits
  | n + 1, i, swbits =>
    if get_boolean (val i) ≠ 0 then do
      let bit ← shift i
      swbits_loop val n (i + 1) (swbits ||| bit)
    else swbits_loop val n (i + 1) swbits

def new_selem_vol_item (info : Info) (val : Nat → Int) : SndSelemVolItem :=
  { channels := info.count, min := info.min, max := info.max, raw_min := info.min, raw_max := info.max
    vol := fun i => val (i / 2) }

def new_selem_sw_item (info : Info) (hkind : info.kind = .switch) (val : Nat → Int) : C SndSelemSwItem := do
  let sw ← swbits_loop val info.count 0 0#32
  return { channels := info.count, fits := info.fits hkind, sw }

def new_selem_enum_item (info : Info) (val : Nat → Int) : SndSelemEnumItem :=
  { channels := info.count, items := info.items, item := fun i => get_enumerated (val i) }

/-- A new item at the address that `malloc` returns, if it does. -/
def new_selem_item (hw : Hw) (malloc : Option Nat) (info : Info) (m : Items) : C (Option Nat × Items) :=
  if hw.read_errno ≠ 0 then return (none, m)
  else
    match malloc with
    | none => return (none, m)
    | some it =>
      match hkind : info.kind with
      | .volume => return (some it, m.set_vol it (new_selem_vol_item info hw.values))
      | .switch => do
        let sw ← new_selem_sw_item info hkind hw.values
        return (some it, m.set_sw it sw)
      | .enum => return (some it, m.set_enum it (new_selem_enum_item info hw.values))

def update_selem_sw_item (sw : SndSelemSwItem) (val : Nat → Int) : C (Bool × SndSelemSwItem) := do
  let swbits ← swbits_loop val sw.channels 0 0#32
  return (sw.sw != swbits, { sw with sw := swbits })

/-- The loop of `update_selem_enum_item` from channel `i` on; returns whether a value has changed. -/
def update_enum_loop (val : Nat → Int) : Nat → Nat → Bool → SndSelemEnumItem → Bool × SndSelemEnumItem
  | 0, _, changed, eitem => (changed, eitem)
  | n + 1, i, changed, eitem =>
    let item := get_enumerated (val i)
    update_enum_loop val n (i + 1) (changed || eitem.item i != item)
      { eitem with item := Function.update eitem.item i item }

def update_selem_enum_item (eitem : SndSelemEnumItem) (val : Nat → Int) : Bool × SndSelemEnumItem :=
  update_enum_loop val eitem.channels 0 false eitem

/-- The kind of the item in a slot. -/
def item_kind (type : Fin 5) : Kind :=
  if type = SND_SELEM_ITEM_PVOLUME ∨ type = SND_SELEM_ITEM_CVOLUME then .volume
  else if type = SND_SELEM_ITEM_PSWITCH ∨ type = SND_SELEM_ITEM_CSWITCH then .switch
  else .enum

/-- The slot is not empty where this is called. -/
def update_selem_item (hw : Hw) (m : Items) (elem : SndMixerElem) (type : Fin 5) : C (Bool × Items) :=
  match elem.items type with
  | none => .error .read
  | some it =>
    if hw.read_errno ≠ 0 then return (false, m)
    else
      match item_kind type with
      | .volume => do
        let (changed, vol) ← Volume.update_selem_vol_item (m.vol it) hw.values
        return (changed, m.set_vol it vol)
      | .switch => do
        let (changed, sw) ← update_selem_sw_item (m.sw it) hw.values
        return (changed, m.set_sw it sw)
      | .enum =>
        let (changed, eitem) := update_selem_enum_item (m.enum it) hw.values
        return (changed, m.set_enum it eitem)

/-- The first of the slots whose item is of the control; reads the heads of the items before it. -/
def find_helem (helem : Kind → Nat → Option Nat) (elem : SndMixerElem) (hp : Nat) : List (Fin 5) → C (Option (Fin 5))
  | [] => return none
  | i :: rest =>
    match elem.items i with
    | none => find_helem helem elem hp rest
    | some it =>
      match helem (item_kind i) it with
      | none => .error .free
      | some h => if h = hp then return some i else find_helem helem elem hp rest

def update_simple_element (hw : Hw) (helem : Kind → Nat → Option Nat) (m : Items) (hp : Nat) (elem : SndMixerElem) :
    C (Bool × Items) := do
  match ← find_helem helem elem hp (List.finRange 5) with
  | none => return (false, m)
  | some i => update_selem_item hw m elem i

/-! ## Ranges and dB -/

def set_volume_range (m : Items) (elem : SndMixerElem) (type : Fin 5) (min max : Int) : C (Int × Items) :=
  match elem.items type with
  | none => return (-EINVAL, m)
  | some it => do
    let str ← Volume.set_volume_range (m.vol it) min max
    return (0, m.set_vol it str)

def snd_mixer_selem_set_playback_volume_range (m : Items) (elem : SndMixerElem) (min max : Int) : C (Int × Items) :=
  set_volume_range m elem SND_SELEM_ITEM_PVOLUME min max

/-- The slot of the capture range; a global one is set as the playback range. -/
def capture_volume_type (elem : SndMixerElem) : Fin 5 :=
  if elem.caps &&& SND_SM_CAP_GVOLUME ≠ 0#32 then SND_SELEM_ITEM_PVOLUME else SND_SELEM_ITEM_CVOLUME

def snd_mixer_selem_set_capture_volume_range (m : Items) (elem : SndMixerElem) (min max : Int) : C (Int × Items) :=
  set_volume_range m elem (capture_volume_type elem) min max

/-- `converted` is the outcome of `init_db_info` and `snd_tlv_convert_from_dB`. -/
def _snd_selem_vol_set_dB (hw : Hw) (converted : Int × Int) (m : Items) (item : Option Nat) (channel : Nat) :
    C Outcome :=
  match item with
  | none => return (-EINVAL, m, [])
  | some it =>
    let channel := channel_or_first (m.vol it).channels channel
    let (err, value) := converted
    if err < 0 then return (err, m, [])
    else do
      let value ← convert_to_user (m.vol it) value
      _snd_selem_update_volume hw m (some it) channel value

/-! ## Runs -/

/-- A channel of an item. -/
structure Place where
  kind : Kind
  item : Nat
  channel : Nat
deriving DecidableEq

/-- How the two ioctls of a setter turn out, and the values that the control gets between them from others. -/
structure Ioctls where
  read_errno : Nat
  meanwhile : Option (Nat → Int)
  write_errno : Nat

def Ioctls.hw (w : Ioctls) (values : Nat → Int) : Hw := ⟨w.read_errno, values, w.write_errno⟩

/-- The items with the controls that they are of, and the values of the controls. A place is stale when
its value has changed in the hardware, or here, and the other side did not get it. -/
structure State where
  items : Items
  helem : Kind → Nat → Option Nat
  hardware : Nat → Nat → Int
  stale : Set Place

/-- The value of the hardware that an item has for the place. -/
def Items.cached (m : Items) (p : Place) : Int :=
  match p.kind with
  | .volume => (m.vol p.item).vol (RAW_IDX p.channel)
  | .switch => if (m.sw p.item).sw.getLsbD p.channel then 1 else 0
  | .enum => ((m.enum p.item).item p.channel).toNat

/-- Others set the values of a control. -/
def State.change (s : State) (hp : Nat) (values : Nat → Int) : State :=
  { s with
    hardware := Function.update s.hardware hp values
    stale := s.stale ∪ {p | s.helem p.kind p.item = some hp ∧ values p.channel ≠ s.hardware hp p.channel} }

/-- What a setter leaves behind. -/
def State.store (s : State) (w : Ioctls) (hp : Nat) (place : Place) (items : Items) : List Write → State
  | [] => { s with items, stale := if items.cached place = s.items.cached place then s.stale else insert place s.stale }
  | write :: _ =>
    let s :=
      match w.meanwhile with
      | none => s
      | some values => s.change hp values
    if w.write_errno ≠ 0 then { s with items, stale := insert place s.stale }
    else
      let s := s.change hp write.values
      { s with items, stale := s.stale \ {place} }

/-- A setter of one channel, with the values that the control has. -/
def State.set (s : State) (w : Ioctls) (kind : Kind) (slot : Option Nat) (channel : Nat)
    (call : Hw → Items → C Outcome) : C State :=
  match slot with
  | none => do
    let (_, items, _) ← call (w.hw fun _ => 0) s.items
    return { s with items }
  | some it =>
    match s.helem kind it with
    | none => .error .free
    | some hp => do
      let (_, items, written) ← call (w.hw (s.hardware hp)) s.items
      return s.store w hp ⟨kind, it, channel⟩ items written

inductive Act where
  /-- A new item for the control `hp`. -/
  | new_item (hp : Nat) (info : Info) (malloc : Option Nat) (read_errno : Nat)
  | free_item (kind : Kind) (it : Nat)
  | set (w : Ioctls) (elem : SndMixerElem) (control : Control) (channel : Nat) (value : Int)
  | set_playback_dB (w : Ioctls) (elem : SndMixerElem) (converted : Int × Int) (channel : Nat)
  | set_capture_dB (w : Ioctls) (elem : SndMixerElem) (converted : Int × Int) (channel : Nat)
  | set_playback_volume_range (elem : SndMixerElem) (min max : Int)
  | set_capture_volume_range (elem : SndMixerElem) (min max : Int)
  /-- A control is set by others. -/
  | change (hp : Nat) (values : Nat → Int)
  /-- A VALUE event. -/
  | event (hp : Nat) (elem : SndMixerElem) (read_errno : Nat)

/-- The channel that a gain in dB is set for. -/
def dB_channel (m : Items) (slot : Option Nat) (channel : Nat) : Nat :=
  match slot with
  | none => channel
  | some it => channel_or_first (m.vol it).channels channel

/-- The places of one item. -/
def of_item (kind : Kind) (it : Nat) : Set Place := {p | p.kind = kind ∧ p.item = it}

def exec (s : State) : Act → C State
  | .new_item hp info malloc read_errno => do
    let (new, items) ← new_selem_item ⟨read_errno, s.hardware hp, 0⟩ malloc info s.items
    match new with
    | none => return { s with items }
    | some it =>
      return { s with
        items
        helem := Function.update s.helem info.kind (Function.update (s.helem info.kind) it (some hp))
        stale := s.stale \ of_item info.kind it }
  | .free_item kind it =>
    return { s with helem := Function.update s.helem kind (Function.update (s.helem kind) it none) }
  | .set w elem control channel value =>
    s.set w control.kind (control.set_slot elem) channel fun hw m => set_channel hw m elem control channel value
  | .set_playback_dB w elem converted channel =>
    let slot := elem.items SND_SELEM_ITEM_PVOLUME
    s.set w .volume slot (dB_channel s.items slot channel) fun hw m => _snd_selem_vol_set_dB hw converted m slot channel
  | .set_capture_dB w elem converted channel =>
    let slot := elem.items SND_SELEM_ITEM_CVOLUME
    s.set w .volume slot (dB_channel s.items slot channel) fun hw m => _snd_selem_vol_set_dB hw converted m slot channel
  | .set_playback_volume_range elem min max => do
    let (_, items) ← snd_mixer_selem_set_playback_volume_range s.items elem min max
    return { s with items }
  | .set_capture_volume_range elem min max => do
    let (_, items) ← snd_mixer_selem_set_capture_volume_range s.items elem min max
    return { s with items }
  | .change hp values => return s.change hp values
  | .event hp elem read_errno => do
    let found ← find_helem s.helem elem hp (List.finRange 5)
    let (_, items) ← update_simple_element ⟨read_errno, s.hardware hp, 0⟩ s.helem s.items hp elem
    -- The item that was found is read for all of its channels.
    match found.bind fun i => (elem.items i).map (of_item (item_kind i)) with
    | some places => return { s with items, stale := if read_errno ≠ 0 then s.stale else s.stale \ places }
    | none => return { s with items }

def step (s : State) (a : Act) : Option State := (exec s a).toOption

/-- There are no items yet. -/
def start (hardware : Nat → Nat → Int) : State :=
  { items := { vol := fun _ => ⟨0, 0, 0, 0, 0, fun _ => 0⟩, sw := fun _ => ⟨0, by decide, 0#32⟩,
               enum := fun _ => ⟨0, 0#32, fun _ => 0#32⟩ }
    helem := fun _ _ => none
    hardware
    stale := ∅ }

/-! ## What is demanded -/

/-- The value of the hardware, as an item of the kind has it. -/
def seen (kind : Kind) (value : Int) : Int :=
  match kind with
  | .volume => value
  | .switch => if get_boolean value ≠ 0 then 1 else 0
  | .enum => (get_enumerated value).toNat

/-- One of the two values of a channel is the conversion of the other. -/
def Paired (str : SndSelemVolItem) (channel : Nat) : Prop :=
  convert_to_user str (str.vol (RAW_IDX channel)) = .ok (str.vol (USR_IDX channel)) ∨
    convert_from_user str (str.vol (USR_IDX channel)) = .ok (str.vol (RAW_IDX channel))

/-- A getter returns `value` for that of the hardware. -/
def Shows (m : Items) (it : Nat) (hardware value : Int) : Kind → Prop
  | .volume => convert_to_user (m.vol it) hardware = .ok value ∨ convert_from_user (m.vol it) value = .ok hardware
  | kind => value = seen kind hardware

/-- For each channel of an item the getter returns a value, which is that of the hardware unless it is stale. -/
def Reflects (s : State) : Prop :=
  ∀ elem (control : Control) it hp channel, control.slot elem = some it → s.helem control.kind it = some hp →
    channel < s.items.channels it control.kind →
    ∃ value, get_channel s.items elem control channel = .ok (0, some value) ∧
      (⟨control.kind, it, channel⟩ ∉ s.stale → Shows s.items it (s.hardware hp channel) value control.kind)

/-! ## The loops over channels -/

theorem swbits_loop_spec (val : Nat → Int) (n i : Nat) (swbits r : BitVec 32)
    (h : swbits_loop val n i swbits = .ok r) (c : Nat) :
    r.getLsbD c = (swbits.getLsbD c || decide (i ≤ c ∧ c < i + n ∧ get_boolean (val c) ≠ 0)) := by
  induction n generalizing i swbits with
  | zero =>
    cases h
    have hnone : ¬ (i ≤ c ∧ c < i + 0 ∧ get_boolean (val c) ≠ 0) := by omega
    rw [decide_eq_false hnone, Bool.or_false]
  | succ n ih =>
    unfold swbits_loop at h
    split_ifs at h with hval
    · rw [bind_eq_ok] at h
      obtain ⟨bit, hbit, hloop⟩ := h
      unfold shift at hbit
      split_ifs at hbit with hi
      cases hbit
      rw [ih _ _ hloop, BitVec.getLsbD_or, ← BitVec.twoPow_eq, BitVec.getLsbD_twoPow, Bool.or_assoc]
      congr 1
      rw [Bool.eq_iff_iff]
      simp only [Bool.or_eq_true, Bool.and_eq_true, decide_eq_true_eq]
      constructor
      · rintro (⟨-, rfl⟩ | ⟨hlow, hhigh, hc⟩)
        · exact ⟨le_refl _, by omega, hval⟩
        · exact ⟨by omega, by omega, hc⟩
      · rintro ⟨hlow, hhigh, hc⟩
        by_cases hci : i = c
        · exact Or.inl ⟨hi, hci⟩
        · exact Or.inr ⟨by omega, by omega, hc⟩
    · rw [ih _ _ h]
      congr 1
      rw [decide_eq_decide]
      constructor
      · rintro ⟨hlow, hhigh, hc⟩
        exact ⟨by omega, by omega, hc⟩
      · rintro ⟨hlow, hhigh, hc⟩
        have hne : i ≠ c := by
          rintro rfl
          exact hval hc
        exact ⟨by omega, by omega, hc⟩

theorem update_enum_loop_spec (val : Nat → Int) (n i : Nat) (changed : Bool) (eitem : SndSelemEnumItem) :
    (update_enum_loop val n i changed eitem).2 =
      { eitem with item := fun c => if i ≤ c ∧ c < i + n then get_enumerated (val c) else eitem.item c } := by
  induction n generalizing i changed eitem with
  | zero =>
    have hitem : (fun c => if i ≤ c ∧ c < i + 0 then get_enumerated (val c) else eitem.item c) = eitem.item := by
      funext c
      exact if_neg (by omega)
    rw [hitem]
    rfl
  | succ n ih =>
    unfold update_enum_loop
    rw [ih]
    congr 1
    funext c
    dsimp only
    by_cases hc : c = i
    · rw [if_neg (by omega), if_pos (by omega), hc, Function.update_self]
    · rw [Function.update_of_ne hc]
      exact if_congr (by omega) rfl rfl

theorem usr_ne_raw (i j : Nat) : USR_IDX i ≠ RAW_IDX j := (raw_ne_usr j i).symm

theorem usr_inj (i j : Nat) (h : USR_IDX i = USR_IDX j) : i = j := by
  unfold USR_IDX at h
  omega

theorem set_range_loop_pairs (n i : Nat) (str str' : SndSelemVolItem) (h : Volume.set_range_loop n i str = .ok str') :
    ∃ vol, str' = { str with vol } ∧ (∀ c, vol (RAW_IDX c) = str.vol (RAW_IDX c)) ∧
      (∀ c, i ≤ c → c < i + n → convert_to_user str (str.vol (RAW_IDX c)) = .ok (vol (USR_IDX c))) ∧
      ∀ c < i, vol (USR_IDX c) = str.vol (USR_IDX c) := by
  induction n generalizing i str with
  | zero =>
    cases h
    exact ⟨_, rfl, fun _ => rfl, fun _ _ _ => by omega, fun _ _ => rfl⟩
  | succ n ih =>
    unfold Volume.set_range_loop at h
    rw [bind_eq_ok] at h
    obtain ⟨value, hvalue, hloop⟩ := h
    obtain ⟨vol, rfl, hraw, husr, hbefore⟩ := ih _ _ hloop
    dsimp only at hraw husr hbefore
    have hkept (c : Nat) : Function.update str.vol (USR_IDX i) value (RAW_IDX c) = str.vol (RAW_IDX c) :=
      Function.update_of_ne (raw_ne_usr c i) _ _
    refine ⟨vol, rfl, fun c => (hraw c).trans (hkept c), fun c hlow hhigh => ?_, fun c hc => ?_⟩
    · by_cases hci : c = i
      · rw [hbefore c (by omega), hci, Function.update_self]
        exact hvalue
      · have hconvert := husr c (by omega) (by omega)
        rwa [hkept] at hconvert
    · have hne : c ≠ i := by omega
      rw [hbefore c (by omega), Function.update_of_ne fun heq => hne (usr_inj c i heq)]

theorem update_item_loop_pairs (obj : Nat → Int) (n i : Nat) (changed changed' : Bool) (str str' : SndSelemVolItem)
    (h : Volume.update_item_loop obj n i changed str = .ok (changed', str')) :
    ∃ vol, str' = { str with vol } ∧
      (∀ c, i ≤ c → c < i + n → vol (RAW_IDX c) = obj c ∧ convert_to_user str (obj c) = .ok (vol (USR_IDX c))) ∧
      ∀ c, c < i → vol (RAW_IDX c) = str.vol (RAW_IDX c) ∧ vol (USR_IDX c) = str.vol (USR_IDX c) := by
  induction n generalizing i changed str with
  | zero =>
    cases h
    exact ⟨_, rfl, fun _ _ _ => by omega, fun _ _ => ⟨rfl, rfl⟩⟩
  | succ n ih =>
    unfold Volume.update_item_loop at h
    dsimp only at h
    rw [bind_eq_ok] at h
    obtain ⟨value, hvalue, hloop⟩ := h
    obtain ⟨vol, rfl, hnew, hbefore⟩ := ih _ _ _ hloop
    dsimp only at hnew hbefore
    refine ⟨vol, rfl, fun c hlow hhigh => ?_, fun c hc => ?_⟩
    · by_cases hci : c = i
      · obtain ⟨hraw, husr⟩ := hbefore c (by omega)
        rw [hraw, husr, hci, Function.update_self, Function.update_of_ne (raw_ne_usr i i), Function.update_self]
        exact ⟨rfl, hvalue⟩
      · exact hnew c (by omega) (by omega)
    · have hne : c ≠ i := by omega
      obtain ⟨hraw, husr⟩ := hbefore c (by omega)
      rw [hraw, husr, Function.update_of_ne (raw_ne_usr c i), Function.update_of_ne fun heq => hne (raw_inj c i heq),
        Function.update_of_ne fun heq => hne (usr_inj c i heq), Function.update_of_ne (usr_ne_raw c i)]
      exact ⟨rfl, rfl⟩

/-! ## Items that are read -/

theorem set_vol_of_ne (m : Items) (it jt : Nat) (str : SndSelemVolItem) (h : jt ≠ it) :
    (m.set_vol it str).vol jt = m.vol jt := Function.update_of_ne h _ _

theorem set_sw_of_ne (m : Items) (it jt : Nat) (str : SndSelemSwItem) (h : jt ≠ it) :
    (m.set_sw it str).sw jt = m.sw jt := Function.update_of_ne h _ _

theorem set_enum_of_ne (m : Items) (it jt : Nat) (eitem : SndSelemEnumItem) (h : jt ≠ it) :
    (m.set_enum it eitem).enum jt = m.enum jt := Function.update_of_ne h _ _

/-- The two items have the same for a place. -/
def SameAt (m m' : Items) (p : Place) : Prop :=
  m'.cached p = m.cached p ∧ m'.channels p.item p.kind = m.channels p.item p.kind

theorem set_vol_elsewhere (m : Items) (it : Nat) (str : SndSelemVolItem) (p : Place) (h : p ∉ of_item .volume it) :
    SameAt m (m.set_vol it str) p := by
  obtain ⟨kind, jt, c⟩ := p
  cases kind with
  | volume =>
    have hne : jt ≠ it := fun heq => h ⟨rfl, heq⟩
    simp [SameAt, Items.cached, Items.channels, set_vol_of_ne m it jt str hne]
  | switch => exact ⟨rfl, rfl⟩
  | enum => exact ⟨rfl, rfl⟩

theorem set_sw_elsewhere (m : Items) (it : Nat) (str : SndSelemSwItem) (p : Place) (h : p ∉ of_item .switch it) :
    SameAt m (m.set_sw it str) p := by
  obtain ⟨kind, jt, c⟩ := p
  cases kind with
  | volume => exact ⟨rfl, rfl⟩
  | switch =>
    have hne : jt ≠ it := fun heq => h ⟨rfl, heq⟩
    simp [SameAt, Items.cached, Items.channels, set_sw_of_ne m it jt str hne]
  | enum => exact ⟨rfl, rfl⟩

theorem set_enum_elsewhere (m : Items) (it : Nat) (eitem : SndSelemEnumItem) (p : Place) (h : p ∉ of_item .enum it) :
    SameAt m (m.set_enum it eitem) p := by
  obtain ⟨kind, jt, c⟩ := p
  cases kind with
  | volume => exact ⟨rfl, rfl⟩
  | switch => exact ⟨rfl, rfl⟩
  | enum =>
    have hne : jt ≠ it := fun heq => h ⟨rfl, heq⟩
    simp [SameAt, Items.cached, Items.channels, set_enum_of_ne m it jt eitem hne]

def AllPaired (m : Items) : Prop := ∀ it c, c < (m.vol it).channels → Paired (m.vol it) c

theorem AllPaired.set_vol (m : Items) (h : AllPaired m) (it : Nat) (str : SndSelemVolItem)
    (hstr : ∀ c < str.channels, Paired str c) : AllPaired (m.set_vol it str) := by
  intro jt c hc
  by_cases hjt : jt = it
  · subst hjt
    rw [set_vol_self] at hc ⊢
    exact hstr c hc
  · rw [set_vol_of_ne m it jt str hjt] at hc ⊢
    exact h jt c hc

/-- One item has taken over the values of its control for all of its channels. -/
structure ReadIn (m m' : Items) (kind : Kind) (it : Nat) (values : Nat → Int) : Prop where
  values : ∀ p ∈ of_item kind it, p.channel < m'.channels it kind → m'.cached p = seen kind (values p.channel)
  elsewhere : ∀ p ∉ of_item kind it, SameAt m m' p
  paired : AllPaired m → AllPaired m'

theorem readIn_vol (m : Items) (it : Nat) (str : SndSelemVolItem) (values : Nat → Int)
    (h : ∀ c < str.channels, str.vol (RAW_IDX c) = values c ∧ Paired str c) :
    ReadIn m (m.set_vol it str) .volume it values where
  values := by
    rintro ⟨kind, jt, c⟩ ⟨rfl, rfl⟩ hc
    simp only [Items.channels, set_vol_self] at hc
    simp only [Items.cached, set_vol_self]
    exact (h c hc).1
  elsewhere := set_vol_elsewhere m it str
  paired hm := hm.set_vol m it str fun c hc => (h c hc).2

theorem readIn_sw (m : Items) (it : Nat) (str : SndSelemSwItem) (values : Nat → Int)
    (h : ∀ c < str.channels, str.sw.getLsbD c = decide (get_boolean (values c) ≠ 0)) :
    ReadIn m (m.set_sw it str) .switch it values where
  values := by
    rintro ⟨kind, jt, c⟩ ⟨rfl, rfl⟩ hc
    simp only [Items.channels, set_sw_self] at hc
    simp only [Items.cached, set_sw_self, seen]
    simp only [h c hc, decide_eq_true_eq]
  elsewhere := set_sw_elsewhere m it str
  paired hm := hm

theorem readIn_enum (m : Items) (it : Nat) (eitem : SndSelemEnumItem) (values : Nat → Int)
    (h : ∀ c < eitem.channels, eitem.item c = get_enumerated (values c)) :
    ReadIn m (m.set_enum it eitem) .enum it values where
  values := by
    rintro ⟨kind, jt, c⟩ ⟨rfl, rfl⟩ hc
    simp only [Items.channels, set_enum_self] at hc
    simp only [Items.cached, set_enum_self, seen]
    rw [h c hc]
  elsewhere := set_enum_elsewhere m it eitem
  paired hm := hm

theorem swbits_spec (val : Nat → Int) (n : Nat) (sw : BitVec 32) (h : swbits_loop val n 0 0#32 = .ok sw) (c : Nat)
    (hc : c < n) : sw.getLsbD c = decide (get_boolean (val c) ≠ 0) := by
  rw [swbits_loop_spec val n 0 _ _ h, BitVec.getLsbD_zero, Bool.false_or, decide_eq_decide]
  exact ⟨fun h => h.2.2, fun h => ⟨Nat.zero_le c, by omega, h⟩⟩

theorem new_selem_item_spec (hw : Hw) (malloc : Option Nat) (info : Info) (m m' : Items) (new : Option Nat)
    (h : new_selem_item hw malloc info m = .ok (new, m')) :
    new = none ∧ m' = m ∨ ∃ it, new = some it ∧ ReadIn m m' info.kind it hw.values := by
  unfold new_selem_item at h
  split_ifs at h with hread
  · cases h
    exact Or.inl ⟨rfl, rfl⟩
  · cases malloc with
    | none =>
      cases h
      exact Or.inl ⟨rfl, rfl⟩
    | some it =>
      right
      dsimp only at h
      split at h
      · rename_i hkind
        rw [hkind]
        cases h
        refine ⟨it, rfl, readIn_vol m it _ _ fun c _ => ?_⟩
        have husr : hw.values (USR_IDX c / 2) = hw.values c := by
          unfold USR_IDX
          rw [Nat.mul_div_cancel c (by omega)]
        have hraw : hw.values (RAW_IDX c / 2) = hw.values c := by
          unfold RAW_IDX
          rw [show (c * 2 + 1) / 2 = c by omega]
        unfold Paired new_selem_vol_item convert_to_user Volume.convert
        dsimp only
        rw [if_pos ⟨rfl, rfl⟩, hraw, husr]
        exact ⟨rfl, Or.inl rfl⟩
      · rename_i hkind
        rw [hkind]
        unfold new_selem_sw_item at h
        simp only [bind_eq_ok] at h
        obtain ⟨sw, ⟨bits, hbits, hsw⟩, hnew⟩ := h
        cases hsw
        cases hnew
        exact ⟨it, rfl, readIn_sw m it _ _ fun c hc => swbits_spec _ _ _ hbits c hc⟩
      · rename_i hkind
        rw [hkind]
        cases h
        exact ⟨it, rfl, readIn_enum m it _ _ fun _ _ => rfl⟩

/-- A VALUE event, when the values can be read. -/
theorem update_selem_item_spec (hw : Hw) (m m' : Items) (elem : SndMixerElem) (type : Fin 5) (it : Nat) (changed : Bool)
    (hslot : elem.items type = some it) (hread : hw.read_errno = 0)
    (h : update_selem_item hw m elem type = .ok (changed, m')) : ReadIn m m' (item_kind type) it hw.values := by
  unfold update_selem_item at h
  rw [hslot] at h
  dsimp only at h
  rw [if_neg (not_not_intro hread)] at h
  split at h
  · rename_i hkind
    rw [bind_eq_ok] at h
    obtain ⟨⟨changed', str⟩, hloop, heq⟩ := h
    cases heq
    rw [hkind]
    obtain ⟨vol, rfl, hnew, -⟩ := update_item_loop_pairs _ _ _ _ _ _ _ hloop
    refine readIn_vol m it _ _ fun c hc => ?_
    obtain ⟨hraw, husr⟩ := hnew c (Nat.zero_le c) (by simpa using hc)
    refine ⟨hraw, Or.inl ?_⟩
    dsimp only
    rw [hraw]
    exact husr
  · rename_i hkind
    rw [bind_eq_ok] at h
    obtain ⟨⟨changed', str⟩, hupdate, heq⟩ := h
    cases heq
    unfold update_selem_sw_item at hupdate
    rw [bind_eq_ok] at hupdate
    obtain ⟨bits, hbits, hsw⟩ := hupdate
    cases hsw
    rw [hkind]
    exact readIn_sw m it _ _ fun c hc => swbits_spec _ _ _ hbits c hc
  · rename_i hkind
    cases h
    rw [hkind]
    refine readIn_enum m it _ _ fun c hc => ?_
    unfold update_selem_enum_item at hc ⊢
    rw [update_enum_loop_spec] at hc ⊢
    exact if_pos ⟨Nat.zero_le c, by simpa using hc⟩

/-! ## What a setter does -/

/-- The setter changes one place at most; it writes what it has there, with the other channels as they were
read. -/
structure SetsAt (hw : Hw) (m m' : Items) (place : Place) (written : List Write) : Prop where
  elsewhere : ∀ p, p ≠ place → m'.cached p = m.cached p
  channels : ∀ it kind, m'.channels it kind = m.channels it kind
  paired : AllPaired m → AllPaired m'
  written : written = [] ∨ ∃ value, seen place.kind value = m'.cached place ∧
    written = [{ channel := place.channel, read := hw.values, values := Function.update hw.values place.channel value }]

theorem SetsAt.refl (hw : Hw) (m : Items) (place : Place) : SetsAt hw m m place [] where
  elsewhere _ _ := rfl
  channels _ _ := rfl
  paired h := h
  written := Or.inl rfl

theorem read_then_write_written (hw : Hw) (channel : Nat) (value : Int) :
    (read_then_write hw channel value).2 = [] ∨
      (read_then_write hw channel value).2 =
        [{ channel, read := hw.values, values := Function.update hw.values channel value }] := by
  unfold read_then_write
  split_ifs
  · exact Or.inl rfl
  · exact Or.inr rfl

/-- It is enough to look at the channels of the one item. -/
theorem SetsAt.of_channels {hw : Hw} {m m' : Items} {kind : Kind} {it channel : Nat} {written : List Write}
    (hitems : ∀ p ∉ of_item kind it, SameAt m m' p) (hchannels : m'.channels it kind = m.channels it kind)
    (hothers : ∀ c, c ≠ channel → m'.cached ⟨kind, it, c⟩ = m.cached ⟨kind, it, c⟩)
    (hpaired : AllPaired m → AllPaired m') (value : Int) (hvalue : seen kind value = m'.cached ⟨kind, it, channel⟩)
    (hwritten : written = [] ∨
      written = [{ channel, read := hw.values, values := Function.update hw.values channel value }]) :
    SetsAt hw m m' ⟨kind, it, channel⟩ written where
  elsewhere p hp := by
    by_cases hitem : p ∈ of_item kind it
    · obtain ⟨_, _, c⟩ := p
      obtain ⟨rfl, rfl⟩ := hitem
      exact hothers c fun heq => hp (by rw [heq])
    · exact (hitems p hitem).1
  channels jt kind' := by
    by_cases hitem : (⟨kind', jt, 0⟩ : Place) ∈ of_item kind it
    · obtain ⟨rfl, rfl⟩ := hitem
      exact hchannels
    · exact (hitems ⟨kind', jt, 0⟩ hitem).2
  paired := hpaired
  written := hwritten.imp_right fun h => ⟨value, hvalue, h⟩

theorem setsAt_vol (hw : Hw) (m : Items) (it channel : Nat) (vol : Nat → Int) (written : List Write)
    (hvol : ∀ c, c ≠ channel →
      vol (RAW_IDX c) = (m.vol it).vol (RAW_IDX c) ∧ vol (USR_IDX c) = (m.vol it).vol (USR_IDX c))
    (hpaired : Paired { m.vol it with vol } channel)
    (hwritten : written = [] ∨
      written = [{ channel, read := hw.values, values := Function.update hw.values channel (vol (RAW_IDX channel)) }]) :
    SetsAt hw m (m.set_vol it { m.vol it with vol }) ⟨.volume, it, channel⟩ written := by
  apply SetsAt.of_channels (set_vol_elsewhere m it _) _ _ _ _ _ hwritten
  · simp [Items.channels]
  · intro c hc
    simpa [Items.cached] using (hvol c hc).1
  · intro hm
    apply hm.set_vol
    intro c hc
    by_cases hcc : c = channel
    · rw [hcc]
      exact hpaired
    · have hold := hm it c hc
      unfold Paired at hold ⊢
      dsimp only
      rw [(hvol c hcc).1, (hvol c hcc).2]
      exact hold
  · simp [seen, Items.cached]

theorem update_volume_setsAt (hw : Hw) (m m' : Items) (it channel : Nat) (value err : Int) (written : List Write)
    (h : _snd_selem_update_volume hw m (some it) channel value = .ok (err, m', written)) :
    SetsAt hw m m' ⟨.volume, it, channel⟩ written := by
  have hself : m.set_vol it (m.vol it) = m := by
    unfold Items.set_vol
    rw [Function.update_eq_self]
  by_cases hrefused : value < (m.vol it).min ∨ value > (m.vol it).max
  · rw [update_volume_refused hw m it channel value hrefused, hself] at h
    cases h
    exact SetsAt.refl ..
  · by_cases hinside : channel < (m.vol it).channels
    · rw [update_volume_inside hw m it channel value hinside, bind_eq_ok] at h
      obtain ⟨⟨err', str, written'⟩, hupdate, heq⟩ := h
      cases heq
      by_cases hsame : value = (m.vol it).vol (USR_IDX channel)
      · rw [Volume._snd_selem_update_volume, if_neg hrefused, if_pos hsame] at hupdate
        cases hupdate
        rw [hself]
        exact SetsAt.refl ..
      · rw [volume_update_eq hw _ channel value (by omega) (by omega) hsame, bind_eq_ok] at hupdate
        obtain ⟨raw, hraw, hupdate⟩ := hupdate
        dsimp only at hupdate
        split_ifs at hupdate with hcached
        · cases hupdate
          apply setsAt_vol
          · intro c hc
            rw [Function.update_of_ne (raw_ne_usr c channel),
              Function.update_of_ne fun heq => hc (usr_inj c channel heq)]
            exact ⟨rfl, rfl⟩
          · right
            dsimp only
            rw [Function.update_self, Function.update_of_ne (raw_ne_usr channel channel), ← hcached]
            exact hraw
          · exact Or.inl rfl
        · cases hupdate
          apply setsAt_vol
          · intro c hc
            rw [Function.update_of_ne fun heq => hc (raw_inj c channel heq),
              Function.update_of_ne (raw_ne_usr c channel),
              Function.update_of_ne (usr_ne_raw c channel), Function.update_of_ne fun heq => hc (usr_inj c channel heq)]
            exact ⟨rfl, rfl⟩
          · right
            dsimp only
            rw [Function.update_self, Function.update_of_ne (usr_ne_raw channel channel), Function.update_self]
            exact hraw
          · rw [Function.update_self]
            exact read_then_write_written hw channel raw
    · rw [update_volume_outside hw m it channel value hinside (by omega) (by omega)] at h
      cases h

theorem update_switch_setsAt (hw : Hw) (m m' : Items) (elem : SndMixerElem) (type : Fin 5) (it channel : Nat)
    (value err : Int) (written : List Write) (hslot : elem.items type = some it)
    (h : update_switch hw m elem type channel value = .ok (err, m', written)) :
    SetsAt hw m m' ⟨.switch, it, channel⟩ written := by
  by_cases hshift : channel < 32
  · rw [update_switch_eq hw m elem type it channel value hslot hshift] at h
    by_cases hsame : (m.sw it).sw.getLsbD channel = decide (value ≠ 0)
    · rw [if_pos hsame] at h
      cases h
      exact SetsAt.refl ..
    · rw [if_neg hsame] at h
      simp only [Except.ok.injEq, Prod.mk.injEq] at h
      obtain ⟨-, rfl, rfl⟩ := h
      apply SetsAt.of_channels (set_sw_elsewhere m it _) _ _ (fun hm => hm) _ _ (read_then_write_written hw channel _)
      · simp [Items.channels]
      · intro c hc
        simp only [Items.cached, set_sw_self]
        rw [Bits.getLsbD_assign _ _ _ hshift, if_neg hc]
      · simp only [Items.cached, set_sw_self]
        rw [Bits.getLsbD_assign _ _ _ hshift, if_pos rfl]
        by_cases hvalue : value = 0
        · rw [if_neg (not_not_intro hvalue), if_neg (by simp [hvalue])]
          decide
        · rw [if_pos hvalue, if_pos (by simp [hvalue])]
          decide
  · rw [update_switch_shift hw m elem type it channel value hslot hshift] at h
    cases h

theorem set_enum_setsAt (hw : Hw) (m m' : Items) (elem : SndMixerElem) (it channel : Nat) (item : BitVec 32) (err : Int)
    (written : List Write) (hslot : elem.items SND_SELEM_ITEM_ENUM = some it)
    (h : snd_mixer_selem_set_enum_item hw m elem channel item = .ok (err, m', written)) :
    SetsAt hw m m' ⟨.enum, it, channel⟩ written := by
  by_cases hinside : channel < (m.enum it).channels
  · rw [set_enum_inside hw m elem it channel item hslot hinside] at h
    split_ifs at h with hsame
    · cases h
      exact SetsAt.refl ..
    · simp only [Except.ok.injEq, Prod.mk.injEq] at h
      obtain ⟨-, rfl, rfl⟩ := h
      apply SetsAt.of_channels (set_enum_elsewhere m it _) _ _ (fun hm => hm) _ _ (read_then_write_written hw channel _)
      · simp [Items.channels]
      · intro c hc
        simp only [Items.cached, set_enum_self]
        rw [Function.update_of_ne hc]
      · simp [Items.cached, seen, get_enumerated]
  · rw [set_enum_outside hw m elem it channel item hslot hinside] at h
    cases h

/-- Every setter of a channel. -/
theorem set_channel_setsAt (hw : Hw) (m m' : Items) (elem : SndMixerElem) (control : Control) (it channel : Nat)
    (value err : Int) (written : List Write) (hslot : control.set_slot elem = some it)
    (h : set_channel hw m elem control channel value = .ok (err, m', written)) :
    SetsAt hw m m' ⟨control.kind, it, channel⟩ written := by
  cases control with
  | playback_volume =>
    change _snd_selem_update_volume hw m (elem.items SND_SELEM_ITEM_PVOLUME) channel value = _ at h
    rw [show elem.items SND_SELEM_ITEM_PVOLUME = some it from hslot] at h
    exact update_volume_setsAt hw m m' it channel value err written h
  | capture_volume =>
    change _snd_selem_update_volume hw m (elem.items SND_SELEM_ITEM_CVOLUME) channel value = _ at h
    rw [show elem.items SND_SELEM_ITEM_CVOLUME = some it from hslot] at h
    exact update_volume_setsAt hw m m' it channel value err written h
  | playback_switch => exact update_switch_setsAt hw m m' elem _ it channel value err written hslot h
  | capture_switch => exact update_switch_setsAt hw m m' elem _ it channel value err written hslot h
  | enum_item => exact set_enum_setsAt hw m m' elem it channel _ err written hslot h

theorem set_channel_none (hw : Hw) (m : Items) (elem : SndMixerElem) (control : Control) (channel : Nat) (value : Int)
    (hslot : control.set_slot elem = none) : set_channel hw m elem control channel value = .ok (-EINVAL, m, []) := by
  cases control with
  | playback_volume =>
    change _snd_selem_update_volume hw m (elem.items SND_SELEM_ITEM_PVOLUME) channel value = _
    rw [show elem.items SND_SELEM_ITEM_PVOLUME = none from hslot]
    rfl
  | capture_volume =>
    change _snd_selem_update_volume hw m (elem.items SND_SELEM_ITEM_CVOLUME) channel value = _
    rw [show elem.items SND_SELEM_ITEM_CVOLUME = none from hslot]
    rfl
  | playback_switch =>
    change update_switch hw m elem SND_SELEM_ITEM_PSWITCH channel value = _
    unfold update_switch
    rw [show elem.items SND_SELEM_ITEM_PSWITCH = none from hslot]
    rfl
  | capture_switch =>
    change update_switch hw m elem (capture_switch_type elem) channel value = _
    unfold update_switch
    rw [show elem.items (capture_switch_type elem) = none from hslot]
    rfl
  | enum_item =>
    change snd_mixer_selem_set_enum_item hw m elem channel _ = _
    unfold snd_mixer_selem_set_enum_item
    rw [show elem.items SND_SELEM_ITEM_ENUM = none from hslot]
    rfl

theorem set_dB_setsAt (hw : Hw) (converted : Int × Int) (m m' : Items) (it channel : Nat) (err : Int)
    (written : List Write) (h : _snd_selem_vol_set_dB hw converted m (some it) channel = .ok (err, m', written)) :
    SetsAt hw m m' ⟨.volume, it, dB_channel m (some it) channel⟩ written := by
  unfold _snd_selem_vol_set_dB at h
  dsimp only at h
  split_ifs at h with herr
  · cases h
    exact SetsAt.refl ..
  · rw [bind_eq_ok] at h
    obtain ⟨value, -, hupdate⟩ := h
    exact update_volume_setsAt hw m m' it _ value err written hupdate

/-! ## Every run -/

/-- The channels of the items that there are. -/
def State.live (s : State) : Set Place :=
  {p | s.helem p.kind p.item ≠ none ∧ p.channel < s.items.channels p.item p.kind}

/-- What an item would have for the place if it were read now. -/
def State.shown (s : State) (p : Place) : Int :=
  match s.helem p.kind p.item with
  | none => 0
  | some hp => seen p.kind (s.hardware hp p.channel)

structure Coherent (s : State) : Prop where
  fresh : Cached.Fresh s.live s.stale s.items.cached s.shown
  paired : AllPaired s.items

theorem live_of_channels {s t : State} {p : Place} (hlive : p ∈ t.live) (hhelem : t.helem = s.helem)
    (h : ∀ it kind, t.items.channels it kind = s.items.channels it kind) : p ∈ s.live := by
  obtain ⟨hitem, hchannel⟩ := hlive
  rw [hhelem] at hitem
  rw [h] at hchannel
  exact ⟨hitem, hchannel⟩

theorem change_coherent (s : State) (h : Coherent s) (hp : Nat) (values : Nat → Int) :
    Coherent (s.change hp values) where
  fresh := by
    apply h.fresh.changed
    intro p hlive hsame
    unfold State.shown State.change
    dsimp only
    split
    · rfl
    · rename_i hp' hhelem
      by_cases heq : hp' = hp
      · subst heq
        have hvalue : values p.channel = s.hardware hp' p.channel := by
          by_contra hne
          exact hsame ⟨hhelem, hne⟩
        rw [Function.update_self, hvalue]
      · rw [Function.update_of_ne heq]
  paired := h.paired

/-- A setter that writes nothing, or fails to. -/
theorem missed_coherent (s : State) (h : Coherent s) (hw : Hw) (place : Place) (items : Items) (written : List Write)
    (hset : SetsAt hw s.items items place written) :
    Coherent { s with items, stale := insert place s.stale } where
  fresh := by
    apply (h.fresh.missed place hset.elsewhere).kept
    exact fun p hlive => ⟨live_of_channels hlive rfl hset.channels, rfl, rfl⟩
  paired := hset.paired h.paired

theorem same_coherent (s : State) (h : Coherent s) (hw : Hw) (place : Place) (items : Items) (written : List Write)
    (hset : SetsAt hw s.items items place written) (hsame : items.cached place = s.items.cached place) :
    Coherent { s with items } where
  fresh := by
    apply h.fresh.kept
    intro p hlive
    refine ⟨live_of_channels hlive rfl hset.channels, ?_, rfl⟩
    by_cases heq : p = place
    · rw [heq]
      exact hsame
    · exact hset.elsewhere p heq
  paired := hset.paired h.paired

theorem written_coherent (s : State) (h : Coherent s) (hw : Hw) (hp : Nat) (place : Place) (items : Items)
    (written : List Write) (hset : SetsAt hw s.items items place written)
    (hhelem : s.helem place.kind place.item = some hp)
    (hvalue : seen place.kind (s.hardware hp place.channel) = items.cached place) :
    Coherent { s with items, stale := s.stale \ {place} } where
  fresh := by
    apply h.fresh.refreshed {place}
    · rintro p - rfl
      unfold State.shown
      rw [hhelem]
      exact hvalue.symm
    · intro p hlive hne
      exact ⟨live_of_channels hlive rfl hset.channels, hset.elsewhere p hne, rfl⟩
  paired := hset.paired h.paired

theorem store_coherent (s : State) (h : Coherent s) (w : Ioctls) (hp : Nat) (place : Place) (items : Items)
    (written : List Write) (hset : SetsAt (w.hw (s.hardware hp)) s.items items place written)
    (hhelem : s.helem place.kind place.item = some hp) : Coherent (s.store w hp place items written) := by
  rcases hset.written with rfl | ⟨value, hvalue, rfl⟩
  · unfold State.store
    dsimp only
    split_ifs with hsame
    · exact same_coherent s h _ place items _ hset hsame
    · exact missed_coherent s h _ place items _ hset
  · have hmeanwhile : ∃ t : State, (match w.meanwhile with | none => s | some values => s.change hp values) = t ∧
        Coherent t ∧ t.items = s.items ∧ t.helem = s.helem := by
      cases w.meanwhile with
      | none => exact ⟨s, rfl, h, rfl, rfl⟩
      | some values => exact ⟨_, rfl, change_coherent s h hp values, rfl, rfl⟩
    obtain ⟨t, ht, hcoherent, hitems, hhelems⟩ := hmeanwhile
    unfold State.store
    dsimp only
    rw [ht]
    rw [← hitems] at hset
    rw [← hhelems] at hhelem
    split_ifs with herr
    · exact missed_coherent t hcoherent _ place items _ hset
    · refine written_coherent _ (change_coherent t hcoherent hp _) _ hp place items _ hset hhelem ?_
      unfold State.change
      dsimp only
      rw [Function.update_self, Function.update_self]
      exact hvalue

theorem set_coherent {s s' : State} (h : Coherent s) {w : Ioctls} {kind : Kind} {slot : Option Nat} {channel : Nat}
    {call : Hw → Items → C Outcome} (hset : s.set w kind slot channel call = .ok s')
    (hnone : slot = none → ∀ hw, call hw s.items = .ok (-EINVAL, s.items, []))
    (hsome : ∀ it, slot = some it → ∀ hw err items written, call hw s.items = .ok (err, items, written) →
      SetsAt hw s.items items ⟨kind, it, channel⟩ written) : Coherent s' := by
  unfold State.set at hset
  cases slot with
  | none =>
    dsimp only at hset
    rw [hnone rfl] at hset
    cases hset
    exact h
  | some it =>
    cases hhelem : s.helem kind it with
    | none =>
      simp only [hhelem] at hset
      cases hset
    | some hp =>
      simp only [hhelem, bind_eq_ok] at hset
      obtain ⟨⟨err, items, written⟩, hcall, hstore⟩ := hset
      cases hstore
      exact store_coherent s h w hp _ items written (hsome it rfl _ err items written hcall) hhelem

/-- An item is read, as it is made or after an event. -/
theorem read_coherent (s : State) (h : Coherent s) (kind : Kind) (it hp : Nat) (items : Items)
    (helem : Kind → Nat → Option Nat) (hread : ReadIn s.items items kind it (s.hardware hp))
    (hself : helem kind it = some hp) (hothers : ∀ p ∉ of_item kind it, helem p.kind p.item = s.helem p.kind p.item) :
    Coherent { s with items, helem, stale := s.stale \ of_item kind it } where
  fresh := by
    apply h.fresh.refreshed (of_item kind it)
    · rintro ⟨_, _, c⟩ ⟨-, hchannel⟩ ⟨rfl, rfl⟩
      rw [hread.values _ ⟨rfl, rfl⟩ hchannel]
      unfold State.shown
      dsimp only
      rw [hself]
    · rintro p ⟨hitem, hchannel⟩ hp
      obtain ⟨hcached, hchannels⟩ := hread.elsewhere p hp
      dsimp only at hitem hchannel
      rw [hothers p hp] at hitem
      rw [hchannels] at hchannel
      refine ⟨⟨hitem, hchannel⟩, hcached, ?_⟩
      unfold State.shown
      dsimp only
      rw [hothers p hp]
  paired := hread.paired h.paired

theorem find_helem_spec (helem : Kind → Nat → Option Nat) (elem : SndMixerElem) (hp : Nat) (slots : List (Fin 5))
    (i : Fin 5) (h : find_helem helem elem hp slots = .ok (some i)) :
    ∃ it, elem.items i = some it ∧ helem (item_kind i) it = some hp := by
  induction slots with
  | nil => cases h
  | cons j rest ih =>
    unfold find_helem at h
    cases hslot : elem.items j with
    | none =>
      simp only [hslot] at h
      exact ih h
    | some it =>
      simp only [hslot] at h
      cases hhelem : helem (item_kind j) it with
      | none =>
        simp only [hhelem] at h
        cases h
      | some hp' =>
        simp only [hhelem] at h
        split_ifs at h with hsame
        · cases h
          exact ⟨it, hslot, hhelem.trans (congrArg some hsame)⟩
        · exact ih h

theorem set_volume_range_coherent (s : State) (h : Coherent s) (elem : SndMixerElem) (type : Fin 5) (min max err : Int)
    (items : Items) (hset : set_volume_range s.items elem type min max = .ok (err, items)) :
    Coherent { s with items } := by
  unfold set_volume_range at hset
  cases hslot : elem.items type with
  | none =>
    simp only [hslot] at hset
    cases hset
    exact h
  | some it =>
    simp only [hslot, bind_eq_ok] at hset
    obtain ⟨str, hloop, heq⟩ := hset
    cases heq
    obtain ⟨vol, rfl, hraw, husr, -⟩ := set_range_loop_pairs _ _ _ _ hloop
    have hsame (p : Place) : SameAt s.items (s.items.set_vol it { s.items.vol it with min, max, vol }) p := by
      by_cases hitem : p ∈ of_item .volume it
      · obtain ⟨_, _, c⟩ := p
        obtain ⟨rfl, rfl⟩ := hitem
        simpa [SameAt, Items.cached, Items.channels] using hraw c
      · exact set_vol_elsewhere _ it _ p hitem
    constructor
    · apply h.fresh.kept
      intro p hlive
      exact ⟨live_of_channels hlive rfl fun jt kind => (hsame ⟨kind, jt, 0⟩).2, (hsame p).1, rfl⟩
    · apply h.paired.set_vol
      intro c hc
      left
      dsimp only
      rw [hraw c]
      exact husr c (Nat.zero_le c) (by simpa using hc)

theorem event_coherent (s s' : State) (h : Coherent s) (hp : Nat) (elem : SndMixerElem) (read_errno : Nat)
    (hstep : exec s (.event hp elem read_errno) = .ok s') : Coherent s' := by
  unfold exec update_simple_element at hstep
  dsimp only at hstep
  cases hfind : find_helem s.helem elem hp (List.finRange 5) with
  | error fault =>
    rw [hfind] at hstep
    cases hstep
  | ok found =>
    rw [hfind, ok_bind, ok_bind] at hstep
    cases found with
    | none =>
      cases hstep
      exact h
    | some i =>
      obtain ⟨it, hslot, hhelem⟩ := find_helem_spec _ _ _ _ _ hfind
      dsimp only at hstep
      rw [bind_eq_ok] at hstep
      obtain ⟨⟨changed, items⟩, hupdate, heq⟩ := hstep
      rw [Option.bind_some, hslot, Option.map_some] at heq
      dsimp only at heq
      by_cases hread : read_errno = 0
      · rw [if_neg (not_not_intro hread)] at heq
        cases heq
        have hin := update_selem_item_spec _ _ _ _ _ _ _ hslot hread hupdate
        exact read_coherent s h _ it hp items s.helem hin hhelem fun _ _ => rfl
      · rw [if_pos hread] at heq
        cases heq
        unfold update_selem_item at hupdate
        rw [hslot] at hupdate
        dsimp only at hupdate
        rw [if_pos hread] at hupdate
        cases hupdate
        exact h

theorem new_item_coherent (s s' : State) (h : Coherent s) (hp : Nat) (info : Info) (malloc : Option Nat)
    (read_errno : Nat) (hstep : exec s (.new_item hp info malloc read_errno) = .ok s') : Coherent s' := by
  unfold exec at hstep
  rw [bind_eq_ok] at hstep
  obtain ⟨⟨new, items⟩, hnew, heq⟩ := hstep
  rcases new_selem_item_spec _ _ _ _ _ _ hnew with ⟨rfl, rfl⟩ | ⟨it, rfl, hread⟩
  · cases heq
    exact h
  · cases heq
    apply read_coherent s h info.kind it hp items _ hread
    · rw [Function.update_self, Function.update_self]
    · intro p hne
      by_cases hkind : p.kind = info.kind
      · rw [hkind, Function.update_self, Function.update_of_ne fun heq => hne ⟨hkind, heq⟩]
      · rw [Function.update_of_ne hkind]

theorem free_item_coherent (s : State) (h : Coherent s) (kind : Kind) (it : Nat) :
    Coherent { s with helem := Function.update s.helem kind (Function.update (s.helem kind) it none) } where
  fresh := by
    apply h.fresh.kept
    rintro p ⟨hitem, hchannel⟩
    have hkept : Function.update s.helem kind (Function.update (s.helem kind) it none) p.kind p.item =
        s.helem p.kind p.item := by
      dsimp only at hitem
      by_cases hkind : p.kind = kind
      · rw [hkind, Function.update_self] at hitem ⊢
        by_cases heq : p.item = it
        · rw [heq, Function.update_self] at hitem
          exact absurd rfl hitem
        · rw [Function.update_of_ne heq]
      · rw [Function.update_of_ne hkind]
    refine ⟨⟨hkept ▸ hitem, hchannel⟩, rfl, ?_⟩
    unfold State.shown
    dsimp only
    rw [hkept]
  paired := h.paired

theorem step_coherent (s : State) (a : Act) (s' : State) (h : Coherent s) (hstep : step s a = some s') :
    Coherent s' := by
  unfold step at hstep
  cases hexec : exec s a with
  | error fault =>
    rw [hexec] at hstep
    cases hstep
  | ok t =>
    rw [hexec] at hstep
    cases hstep
    cases a with
    | new_item hp info malloc read_errno => exact new_item_coherent s _ h hp info malloc read_errno hexec
    | free_item kind it =>
      cases hexec
      exact free_item_coherent s h kind it
    | set w elem control channel value =>
      unfold exec at hexec
      apply set_coherent h hexec
      · exact fun hslot hw => set_channel_none hw _ elem control channel value hslot
      · exact fun it hslot hw err items written =>
          set_channel_setsAt hw _ items elem control it channel value err written hslot
    | set_playback_dB w elem converted channel =>
      unfold exec at hexec
      apply set_coherent h hexec
      · rintro hslot hw
        rw [hslot]
        rfl
      · rintro it hslot hw err items written hcall
        rw [hslot] at hcall ⊢
        exact set_dB_setsAt hw converted _ items it channel err written hcall
    | set_capture_dB w elem converted channel =>
      unfold exec at hexec
      apply set_coherent h hexec
      · rintro hslot hw
        rw [hslot]
        rfl
      · rintro it hslot hw err items written hcall
        rw [hslot] at hcall ⊢
        exact set_dB_setsAt hw converted _ items it channel err written hcall
    | set_playback_volume_range elem min max =>
      unfold exec at hexec
      rw [bind_eq_ok] at hexec
      obtain ⟨⟨err, items⟩, hset, heq⟩ := hexec
      cases heq
      exact set_volume_range_coherent s h elem _ min max err items hset
    | set_capture_volume_range elem min max =>
      unfold exec at hexec
      rw [bind_eq_ok] at hexec
      obtain ⟨⟨err, items⟩, hset, heq⟩ := hexec
      cases heq
      exact set_volume_range_coherent s h elem _ min max err items hset
    | change hp values =>
      cases hexec
      exact change_coherent s h hp values
    | event hp elem read_errno => exact event_coherent s _ h hp elem read_errno hexec

theorem start_coherent (hardware : Nat → Nat → Int) : Coherent (start hardware) where
  fresh := fun _ hlive => absurd rfl hlive.1
  paired := fun _ _ hc => absurd hc (Nat.not_lt_zero _)

/-- What the getter returns for a channel that the item has. -/
theorem get_channel_inside (m : Items) (elem : SndMixerElem) (control : Control) (it channel : Nat)
    (hslot : control.slot elem = some it) (h : channel < m.channels it control.kind) :
    get_channel m elem control channel = .ok (0, some
      (match control.kind with
      | .volume => (m.vol it).vol (USR_IDX channel)
      | kind => m.cached ⟨kind, it, channel⟩)) := by
  have hvol (type : Fin 5) (hitem : elem.items type = some it) (hc : channel < (m.vol it).channels) :
      _snd_mixer_selem_get_volume m elem type channel = .ok (0, some ((m.vol it).vol (USR_IDX channel))) := by
    have husr : USR_IDX channel < 2 * (m.vol it).channels := by
      unfold USR_IDX
      omega
    unfold _snd_mixer_selem_get_volume
    rw [hitem]
    dsimp only
    rw [channel_or_first_inside hc, access_ok husr]
    rfl
  have hsw (type : Fin 5) (hitem : elem.items type = some it) (hc : channel < (m.sw it).channels) :
      _snd_mixer_selem_get_switch m elem type channel = .ok (0, some (m.cached ⟨.switch, it, channel⟩)) := by
    have hfits : channel < 32 := Nat.lt_of_lt_of_le hc (m.sw it).fits
    unfold _snd_mixer_selem_get_switch
    rw [hitem]
    dsimp only
    rw [channel_or_first_inside hc, shift, if_pos hfits, ok_bind]
    unfold Items.cached
    simp only [ne_eq, Bits.and_shift_eq_zero _ _ hfits, Bool.not_eq_false]
    rfl
  cases control with
  | playback_volume => exact hvol _ hslot h
  | capture_volume => exact hvol _ hslot h
  | playback_switch => exact hsw _ hslot h
  | capture_switch => exact hsw _ hslot h
  | enum_item =>
    have hc : channel < (m.enum it).channels := h
    unfold get_channel snd_mixer_selem_get_enum_item
    dsimp only
    rw [show elem.items SND_SELEM_ITEM_ENUM = some it from hslot]
    dsimp only
    rw [if_neg (not_le.mpr hc), access_ok hc]
    rfl

theorem Coherent.reflects (s : State) (h : Coherent s) : Reflects s := by
  intro elem control it hp channel hslot hhelem hc
  refine ⟨_, get_channel_inside s.items elem control it channel hslot hc, fun hstale => ?_⟩
  have hlive : (⟨control.kind, it, channel⟩ : Place) ∈ s.live := ⟨by rw [hhelem]; exact Option.some_ne_none _, hc⟩
  have hcached := h.fresh _ hlive hstale
  unfold State.shown at hcached
  rw [hhelem] at hcached
  dsimp only at hcached
  cases hkind : control.kind with
  | volume =>
    rw [hkind] at hcached hc
    have hraw : (s.items.vol it).vol (RAW_IDX channel) = s.hardware hp channel := hcached
    have hpaired := h.paired it channel hc
    unfold Paired at hpaired
    rw [hraw] at hpaired
    exact hpaired
  | switch =>
    rw [hkind] at hcached
    exact hcached
  | enum =>
    rw [hkind] at hcached
    exact hcached

/-- In every run the getters return what the hardware has, except for the places that are stale. -/
theorem getters_reflect (hardware : Nat → Nat → Int) (as : List Act) :
    AllReached step Reflects (start hardware) as :=
  allReached_of_inv Coherent Reflects Coherent.reflects step_coherent _ as (start_coherent hardware)

def front : SndMixerElem :=
  { name := ['M'], index := 0#32, caps := 1#32, channels := fun _ => 2
    items := fun i => if i = SND_SELEM_ITEM_PVOLUME then some 0 else none }

-- A value that another sets between the two ioctls of a setter is lost.
example : (run step (start fun _ _ => 3) [.new_item 7 ⟨.volume, 0, 10, 0#32, 2, nofun⟩ (some 0) 0,
    .set ⟨0, some fun _ => 9, 0⟩ front .playback_volume 1 5]).map (fun s => (s.hardware 7 0, s.hardware 7 1)) =
    some (3, 5) := by decide

end Salsa.Mixer.Cache
