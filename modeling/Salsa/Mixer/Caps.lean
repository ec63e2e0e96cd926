import Salsa.Mixer.Held
import Mathlib.Data.BitVec
import Mathlib.Order.Lattice

/-!
# What caps and channels say

A mixer element collects caps and channels as items are added. What they should say is a matter of
the items it has, which are described here by their direction, kind and channels.
-/

namespace Salsa.Mixer

def SND_SM_CAP_PVOLUME : BitVec 32 := 1#32 <<< SND_SM_CAP_VOLUME_SHIFT
def SND_SM_CAP_CVOLUME : BitVec 32 := 2#32 <<< SND_SM_CAP_VOLUME_SHIFT
def SND_SM_CAP_PSWITCH : BitVec 32 := 1#32 <<< SND_SM_CAP_SWITCH_SHIFT
def SND_SM_CAP_CSWITCH : BitVec 32 := 2#32 <<< SND_SM_CAP_SWITCH_SHIFT
def SND_SM_CAP_PENUM : BitVec 32 := 1#32 <<< SND_SM_CAP_ENUM_SHIFT
def SND_SM_CAP_CENUM : BitVec 32 := 2#32 <<< SND_SM_CAP_ENUM_SHIFT

def caps_of (dir : Direction) : Kind → BitVec 32
  | .volume =>
    match dir with
    | .playback => SND_SM_CAP_PVOLUME
    | .capture => SND_SM_CAP_CVOLUME
    | .global => SND_SM_CAP_PVOLUME ||| SND_SM_CAP_CVOLUME ||| SND_SM_CAP_GVOLUME
  | .switch =>
    match dir with
    | .playback => SND_SM_CAP_PSWITCH
    | .capture => SND_SM_CAP_CSWITCH
    | .global => SND_SM_CAP_PSWITCH ||| SND_SM_CAP_CSWITCH ||| SND_SM_CAP_GSWITCH
  | .enum =>
    match dir with
    | .capture => SND_SM_CAP_CENUM
    | _ => SND_SM_CAP_PENUM

theorem item_type_caps (dir : Direction) (type : CtlType) (caps : BitVec 32) (first : Fin 5)
    (kind : Kind) (h : item_type dir type = some (caps, first, kind)) : caps = caps_of dir kind := by
  cases type <;> cases dir <;> cases h <;> rfl

theorem or_and_ne_zero_iff (a b g : BitVec 32) :
    (a ||| b) &&& g ≠ 0#32 ↔ a &&& g ≠ 0#32 ∨ b &&& g ≠ 0#32 := by
  rw [BitVec.and_or_distrib_right, Ne, BitVec.or_eq_zero_iff, not_and_or]

/-! ## Items and what is said about them -/

structure ItemDesc where
  dir : Direction
  kind : Kind
  channels : Nat

def slot_desc (s : SndMixer) (slot : Option Nat) : Option ItemDesc :=
  (slot.bind s.items).bind fun item =>
    (s.helems item.helem).map fun he =>
      { dir := (decode_name he.id.name).dir, kind := item.kind, channels := item.channels }

def slot_channels (s : SndMixer) (slot : Option Nat) : Nat :=
  ((slot_desc s slot).map fun desc => desc.channels).getD 0

def volume_slot (d : Fin 2) : Fin 5 := ⟨d.val, by omega⟩
def switch_slot (d : Fin 2) : Fin 5 := ⟨d.val + 2, by omega⟩

/-- The caps are those of the items, and the channels the most that an item of the direction has. -/
structure Fitting (s : SndMixer) (elem : SndMixerElem) : Prop where
  caps : ∀ m, elem.caps &&& m ≠ 0#32 ↔
    ∃ i desc, slot_desc s (elem.items i) = some desc ∧ caps_of desc.dir desc.kind &&& m ≠ 0#32
  channels : ∀ d, elem.channels d =
    max (slot_channels s (elem.items (volume_slot d))) (slot_channels s (elem.items (switch_slot d)))

/-- Caps and channels will be right with an item that is about to be added. -/
def FitsWith (s : SndMixer) (elem : SndMixerElem) (dir : Direction) (kind : Kind) (channels : Nat) : Prop :=
  (∀ m, caps_of dir kind &&& m = 0#32 → (elem.caps &&& m ≠ 0#32 ↔
    ∃ i desc, slot_desc s (elem.items i) = some desc ∧ caps_of desc.dir desc.kind &&& m ≠ 0#32)) ∧
  ∀ d,
    if volume_slot d ∈ slots dir kind ∨ switch_slot d ∈ slots dir kind then
      max (elem.channels d) channels =
        max channels (max (slot_channels s (elem.items (volume_slot d))) (slot_channels s (elem.items (switch_slot d))))
    else
      elem.channels d =
        max (slot_channels s (elem.items (volume_slot d))) (slot_channels s (elem.items (switch_slot d)))

/-- The channels of what an item is put over are not missed. -/
def Spares (s : SndMixer) (elem : SndMixerElem) (dir : Direction) (kind : Kind) (channels : Nat) : Prop :=
  ∀ d,
    (volume_slot d ∈ slots dir kind → slot_channels s (elem.items (volume_slot d)) ≤
      max channels (slot_channels s (elem.items (switch_slot d)))) ∧
    (switch_slot d ∈ slots dir kind → slot_channels s (elem.items (switch_slot d)) ≤
      max channels (slot_channels s (elem.items (volume_slot d))))

/-- What an item is put over has no caps but those of the item. -/
def Outranks (s : SndMixer) (elem : SndMixerElem) (dir : Direction) (kind : Kind) : Prop :=
  ∀ i ∈ slots dir kind, ∀ desc, slot_desc s (elem.items i) = some desc →
    caps_of dir kind &&& caps_of desc.dir desc.kind = caps_of desc.dir desc.kind

/-- All mixer elements but `y` say what they have. -/
def Described (s : SndMixer) (y : Option Nat) : Prop :=
  ∀ e elem, s.melems e = some elem → some e ≠ y → Fitting s elem

@[simp] theorem slot_desc_none (s : SndMixer) : slot_desc s none = none := rfl

@[simp] theorem slot_channels_none (s : SndMixer) : slot_channels s none = 0 := rfl

theorem slot_desc_some (s : SndMixer) (it : Nat) (item : SndSelemItem) (he : SndHctlElem)
    (hitem : s.items it = some item) (hhe : s.helems item.helem = some he) :
    slot_desc s (some it) =
      some { dir := (decode_name he.id.name).dir, kind := item.kind, channels := item.channels } := by
  simp [slot_desc, hitem, hhe]

theorem fitting_empty (s : SndMixer) (elem : SndMixerElem) (hcaps : elem.caps = 0#32)
    (hchannels : ∀ d, elem.channels d = 0) (hempty : ∀ i, elem.items i = none) : Fitting s elem where
  caps := by
    intro m
    simp [hcaps, hempty]
  channels := by
    intro d
    simp [hchannels, hempty]

theorem Fitting.with (s : SndMixer) (elem : SndMixerElem) (hs : Fitting s elem) (dir : Direction)
    (kind : Kind) (channels : Nat) : FitsWith s elem dir kind channels := by
  refine ⟨fun m _ => hs.caps m, fun d => ?_⟩
  rw [← hs.channels d]
  split
  · exact max_comm _ _
  · rfl

theorem spares_free (s : SndMixer) (elem : SndMixerElem) (dir : Direction) (kind : Kind) (channels : Nat)
    (hfree : ∀ i ∈ slots dir kind, elem.items i = none) : Spares s elem dir kind channels := by
  intro d
  constructor <;> intro hi <;> rw [hfree _ hi] <;> exact Nat.zero_le _

theorem Spares.congr (s t : SndMixer) (elem : SndMixerElem) (dir : Direction) (kind : Kind) (channels : Nat)
    (hs : Spares s elem dir kind channels)
    (hsame : ∀ i, slot_desc t (elem.items i) = slot_desc s (elem.items i)) : Spares t elem dir kind channels := by
  unfold Spares slot_channels
  simp only [hsame]
  exact hs

theorem outranks_free (s : SndMixer) (elem : SndMixerElem) (dir : Direction) (kind : Kind)
    (hfree : ∀ i ∈ slots dir kind, elem.items i = none) : Outranks s elem dir kind := by
  intro i hi desc hdesc
  rw [hfree i hi] at hdesc
  cases hdesc

theorem Fitting.congr (s t : SndMixer) (elem : SndMixerElem) (hs : Fitting s elem)
    (hsame : ∀ i, slot_desc t (elem.items i) = slot_desc s (elem.items i)) : Fitting t elem where
  caps := by
    intro m
    simp only [hsame]
    exact hs.caps m
  channels := by
    intro d
    unfold slot_channels
    rw [hsame, hsame]
    exact hs.channels d

theorem slot_desc_congr (s t : SndMixer) (it : Nat) (item : SndSelemItem) (hitem : s.items it = some item)
    (hsame : t.items it = some item) (hhelem : t.helems item.helem = s.helems item.helem) :
    slot_desc t (some it) = slot_desc s (some it) := by
  simp [slot_desc, hitem, hsame, hhelem]

theorem Described.congr (s t : SndMixer) (y : Option Nat) (hs : Described s y)
    (hmelems : t.melems = s.melems) (hitems : t.items = s.items) (hhelems : t.helems = s.helems) :
    Described t y := by
  intro e elem helem hne
  refine (hs e elem (hmelems ▸ helem) hne).congr s t elem fun i => ?_
  unfold slot_desc
  rw [hitems, hhelems]

theorem slots_one (dir : Direction) (kind : Kind) (d : Fin 2) (hvolume : volume_slot d ∈ slots dir kind) :
    switch_slot d ∉ slots dir kind := by
  revert d
  cases dir <;> cases kind <;> decide

/-! ## What the caps say about the slots -/

/-- Caps and channels as a user of the mixer reads them. -/
structure SaysItems (s : SndMixer) (elem : SndMixerElem) : Prop where
  pvolume : elem.caps &&& SND_SM_CAP_PVOLUME ≠ 0#32 ↔ (elem.items SND_SELEM_ITEM_PVOLUME).isSome
  cvolume : elem.caps &&& SND_SM_CAP_CVOLUME ≠ 0#32 ↔ (elem.items SND_SELEM_ITEM_CVOLUME).isSome
  pswitch : elem.caps &&& SND_SM_CAP_PSWITCH ≠ 0#32 ↔ (elem.items SND_SELEM_ITEM_PSWITCH).isSome
  cswitch : elem.caps &&& SND_SM_CAP_CSWITCH ≠ 0#32 ↔ (elem.items SND_SELEM_ITEM_CSWITCH).isSome
  penum : elem.caps &&& SND_SM_CAP_PENUM ≠ 0#32 ↔
    ∃ desc, slot_desc s (elem.items SND_SELEM_ITEM_ENUM) = some desc ∧ desc.dir ≠ .capture
  cenum : elem.caps &&& SND_SM_CAP_CENUM ≠ 0#32 ↔
    ∃ desc, slot_desc s (elem.items SND_SELEM_ITEM_ENUM) = some desc ∧ desc.dir = .capture
  gvolume : elem.caps &&& SND_SM_CAP_GVOLUME ≠ 0#32 ↔
    ∃ it, elem.items SND_SELEM_ITEM_PVOLUME = some it ∧ elem.items SND_SELEM_ITEM_CVOLUME = some it
  gswitch : elem.caps &&& SND_SM_CAP_GSWITCH ≠ 0#32 ↔
    ∃ it, elem.items SND_SELEM_ITEM_PSWITCH = some it ∧ elem.items SND_SELEM_ITEM_CSWITCH = some it
  channels : ∀ d, elem.channels d =
    max (slot_channels s (elem.items (volume_slot d))) (slot_channels s (elem.items (switch_slot d)))

section Says

variable (s : SndMixer) (e : Nat) (elem : SndMixerElem) (hs : Filled s none) (hwhole : Whole s)
  (helem : s.melems e = some elem)

include hs hwhole helem in
theorem desc_slots (i : Fin 5) (it : Nat) (hslot : elem.items i = some it) :
    ∃ desc, slot_desc s (some it) = some desc ∧
      ∀ j, elem.items j = some it ↔ j ∈ slots desc.dir desc.kind := by
  obtain ⟨item, he, hitem, hhe, -, hslots⟩ := hs.slot_iff s none hwhole e elem i it helem hslot
  exact ⟨_, slot_desc_some s it item he hitem hhe, hslots⟩

include hs hwhole helem in
theorem cap_of_slot (hfits : Fitting s elem) (i : Fin 5) (m : BitVec 32)
    (hcap : ∀ dir kind, caps_of dir kind &&& m ≠ 0#32 ↔ i ∈ slots dir kind) :
    elem.caps &&& m ≠ 0#32 ↔ (elem.items i).isSome := by
  rw [hfits.caps m]
  constructor
  · rintro ⟨j, desc, hdesc, hbit⟩
    cases hslot : elem.items j with
    | none =>
      rw [hslot] at hdesc
      cases hdesc
    | some it =>
      obtain ⟨desc', hdesc', hslots⟩ := desc_slots s e elem hs hwhole helem j it hslot
      rw [hslot, hdesc'] at hdesc
      obtain rfl := Option.some.inj hdesc
      rw [(hslots i).mpr ((hcap _ _).mp hbit)]
      rfl
  · intro hi
    obtain ⟨it, hslot⟩ := Option.isSome_iff_exists.mp hi
    obtain ⟨desc, hdesc, hslots⟩ := desc_slots s e elem hs hwhole helem i it hslot
    exact ⟨i, desc, hslot ▸ hdesc, (hcap _ _).mpr ((hslots i).mp hslot)⟩

include hs hwhole helem in
theorem cap_of_global (hfits : Fitting s elem) (p c : Fin 5) (m : BitVec 32)
    (hcap : ∀ dir kind, caps_of dir kind &&& m ≠ 0#32 ↔ p ∈ slots dir kind ∧ c ∈ slots dir kind) :
    elem.caps &&& m ≠ 0#32 ↔ ∃ it, elem.items p = some it ∧ elem.items c = some it := by
  rw [hfits.caps m]
  constructor
  · rintro ⟨j, desc, hdesc, hbit⟩
    cases hslot : elem.items j with
    | none =>
      rw [hslot] at hdesc
      cases hdesc
    | some it =>
      obtain ⟨desc', hdesc', hslots⟩ := desc_slots s e elem hs hwhole helem j it hslot
      rw [hslot, hdesc'] at hdesc
      obtain rfl := Option.some.inj hdesc
      obtain ⟨hp, hc⟩ := (hcap _ _).mp hbit
      exact ⟨it, (hslots p).mpr hp, (hslots c).mpr hc⟩
  · rintro ⟨it, hp, hc⟩
    obtain ⟨desc, hdesc, hslots⟩ := desc_slots s e elem hs hwhole helem p it hp
    exact ⟨p, desc, hp ▸ hdesc, (hcap _ _).mpr ⟨(hslots p).mp hp, (hslots c).mp hc⟩⟩

include hs hwhole helem in
theorem cap_of_enum (hfits : Fitting s elem) (m : BitVec 32) (P : Direction → Prop)
    (hcap : ∀ dir kind, caps_of dir kind &&& m ≠ 0#32 ↔ kind = .enum ∧ P dir) :
    elem.caps &&& m ≠ 0#32 ↔
      ∃ desc, slot_desc s (elem.items SND_SELEM_ITEM_ENUM) = some desc ∧ P desc.dir := by
  have henum (dir : Direction) (kind : Kind) : SND_SELEM_ITEM_ENUM ∈ slots dir kind ↔ kind = .enum := by
    cases dir <;> cases kind <;> decide
  rw [hfits.caps m]
  constructor
  · rintro ⟨j, desc, hdesc, hbit⟩
    cases hslot : elem.items j with
    | none =>
      rw [hslot] at hdesc
      cases hdesc
    | some it =>
      obtain ⟨desc', hdesc', hslots⟩ := desc_slots s e elem hs hwhole helem j it hslot
      rw [hslot, hdesc'] at hdesc
      obtain rfl := Option.some.inj hdesc
      obtain ⟨hkind, hdir⟩ := (hcap _ _).mp hbit
      rw [(hslots SND_SELEM_ITEM_ENUM).mpr ((henum _ _).mpr hkind)]
      exact ⟨desc', hdesc', hdir⟩
  · rintro ⟨desc, hdesc, hdir⟩
    refine ⟨SND_SELEM_ITEM_ENUM, desc, hdesc, (hcap _ _).mpr ⟨?_, hdir⟩⟩
    cases hslot : elem.items SND_SELEM_ITEM_ENUM with
    | none =>
      rw [hslot] at hdesc
      cases hdesc
    | some it =>
      obtain ⟨desc', hdesc', hslots⟩ := desc_slots s e elem hs hwhole helem _ it hslot
      rw [hslot, hdesc'] at hdesc
      obtain rfl := Option.some.inj hdesc
      exact (henum _ _).mp ((hslots _).mp hslot)

include hs hwhole helem in
theorem Fitting.describes (hfits : Fitting s elem) : SaysItems s elem where
  pvolume := cap_of_slot s e elem hs hwhole helem hfits _ _ fun dir kind => by cases dir <;> cases kind <;> decide
  cvolume := cap_of_slot s e elem hs hwhole helem hfits _ _ fun dir kind => by cases dir <;> cases kind <;> decide
  pswitch := cap_of_slot s e elem hs hwhole helem hfits _ _ fun dir kind => by cases dir <;> cases kind <;> decide
  cswitch := cap_of_slot s e elem hs hwhole helem hfits _ _ fun dir kind => by cases dir <;> cases kind <;> decide
  penum := cap_of_enum s e elem hs hwhole helem hfits _ (· ≠ .capture) fun dir kind => by
    cases dir <;> cases kind <;> decide
  cenum := cap_of_enum s e elem hs hwhole helem hfits _ (· = .capture) fun dir kind => by
    cases dir <;> cases kind <;> decide
  gvolume := cap_of_global s e elem hs hwhole helem hfits _ _ _ fun dir kind => by
    cases dir <;> cases kind <;> decide
  gswitch := cap_of_global s e elem hs hwhole helem hfits _ _ _ fun dir kind => by
    cases dir <;> cases kind <;> decide
  channels := hfits.channels

end Says

end Salsa.Mixer
