import Salsa.Hctl.Events
import Salsa.Mixer.Name
import Mathlib.Data.List.FinRange
import Mathlib.Logic.Function.Basic
import Mathlib.Algebra.GroupWithZero.Nat

/-!
# Mixer elements and their items

The simple mixer elements of `mixer.c`: how controls are registered with them, updated and
removed. Addresses are numbers, and an access to a freed object has no outcome (`none`).
-/

namespace Salsa.Mixer

open Ctl
open Hctl (SND_CTL_EVENT_MASK_REMOVE SND_CTL_EVENT_MASK_VALUE SND_CTL_EVENT_MASK_INFO)

def SND_CTL_ELEM_IFACE_MIXER : BitVec 32 := 2#32

/-- There is a slot, so that a number stands for one. -/
scoped instance slots_neZero : NeZero 5 := ⟨by decide⟩

def SND_SELEM_ITEM_PVOLUME : Fin 5 := 0
def SND_SELEM_ITEM_CVOLUME : Fin 5 := 1
def SND_SELEM_ITEM_PSWITCH : Fin 5 := 2
def SND_SELEM_ITEM_CSWITCH : Fin 5 := 3
def SND_SELEM_ITEM_ENUM : Fin 5 := 4

def SND_SM_CAP_VOLUME_SHIFT : Nat := 0
def SND_SM_CAP_SWITCH_SHIFT : Nat := 4
def SND_SM_CAP_ENUM_SHIFT : Nat := 8
def SND_SM_CAP_GVOLUME : BitVec 32 := 4#32 <<< SND_SM_CAP_VOLUME_SHIFT
def SND_SM_CAP_GSWITCH : BitVec 32 := 4#32 <<< SND_SM_CAP_SWITCH_SHIFT

/-- The type of a control, as far as it matters here. -/
inductive CtlType where
  | boolean
  | integer
  | enumerated
  | other
deriving DecidableEq

/-- What an item is: `snd_selem_vol_item_t`, `snd_selem_sw_item_t` or `snd_selem_enum_item_t`. -/
inductive Kind where
  | volume
  | switch
  | enum
deriving DecidableEq

/-- An item, with the values of its channels as they were read last. -/
structure SndSelemItem where
  helem : Nat
  numid : BitVec 32
  channels : Nat
  kind : Kind
  values : List Int

structure SndMixerElem where
  name : List Char
  index : BitVec 32
  caps : BitVec 32
  channels : Fin 2 → Nat
  items : Fin 5 → Option Nat

structure SndHctlElem where
  id : SndCtlElemId
  /-- The callback is `hctl_elem_event_handler`. -/
  callback : Bool
  private_data : Option Nat

/-- A mixer with its hctl. The numbers from `next` on were never handed out as addresses. -/
structure SndMixer where
  hctl : List Nat
  helems : Nat → Option SndHctlElem
  melems : Nat → Option SndMixerElem
  items : Nat → Option SndSelemItem
  pelems : List Nat
  alloc : Nat
  next : Nat

/-- `qsort` with the comparison that is installed, or nothing without one. -/
structure Sorter where
  qsort : List Nat → List Nat
  perm : ∀ pelems, (qsort pelems).Perm pelems

def unsorted : Sorter := ⟨id, fun _ => List.Perm.refl _⟩

/-- How everything around turns out during one event: the ioctls with an errno, 0 for success,
the allocations and the callbacks. The value is read twice, for a new item and for an update. -/
structure World where
  info_errno : Nat
  type : CtlType
  numid : BitVec 32
  count : Nat
  read_errno : Nat
  value : Nat → Int
  update_errno : Nat
  update_value : Nat → Int
  alloc_item : Bool
  alloc_elem : Bool
  realloc : Bool
  compare : Sorter
  throw_event : Int
  elem_throw_event : BitVec 32 → Int

/-! ## Registration -/

/-- `caps` and `type` of a control, unless it is ignored. -/
def item_type (dir : Direction) : CtlType → Option (BitVec 32 × Fin 5 × Kind)
  | .boolean =>
    match dir with
    | .playback => some (1#32 <<< SND_SM_CAP_SWITCH_SHIFT, SND_SELEM_ITEM_PSWITCH, .switch)
    | .capture => some (2#32 <<< SND_SM_CAP_SWITCH_SHIFT, SND_SELEM_ITEM_CSWITCH, .switch)
    | .global => some (7#32 <<< SND_SM_CAP_SWITCH_SHIFT, SND_SELEM_ITEM_PSWITCH, .switch)
  | .integer =>
    match dir with
    | .playback => some (1#32 <<< SND_SM_CAP_VOLUME_SHIFT, SND_SELEM_ITEM_PVOLUME, .volume)
    | .capture => some (2#32 <<< SND_SM_CAP_VOLUME_SHIFT, SND_SELEM_ITEM_CVOLUME, .volume)
    | .global => some (7#32 <<< SND_SM_CAP_VOLUME_SHIFT, SND_SELEM_ITEM_PVOLUME, .volume)
  | .enumerated =>
    match dir with
    | .capture => some (2#32 <<< SND_SM_CAP_ENUM_SHIFT, SND_SELEM_ITEM_ENUM, .enum)
    | _ => some (1#32 <<< SND_SM_CAP_ENUM_SHIFT, SND_SELEM_ITEM_ENUM, .enum)
  | .other => none

/-- `caps & (SND_SM_CAP_GVOLUME | SND_SM_CAP_GSWITCH)` -/
def is_global (caps : BitVec 32) : Bool := caps &&& (SND_SM_CAP_GVOLUME ||| SND_SM_CAP_GSWITCH) != 0#32

def SndMixerElem.max_channels (elem : SndMixerElem) (dir : Fin 2) (channels : Nat) : SndMixerElem :=
  if channels > elem.channels dir then
    { elem with channels := Function.update elem.channels dir channels }
  else elem

/-- The effect of `add_cap` on the mixer element. -/
def SndMixerElem.add_cap (elem : SndMixerElem) (caps : BitVec 32) (type : Fin 5) (item channels : Nat) :
    SndMixerElem :=
  let elem :=
    { elem with caps := elem.caps ||| caps, items := Function.update elem.items type (some item) }
  if type = SND_SELEM_ITEM_ENUM then elem
  else
    let elem :=
      if is_global caps then
        { elem with items := Function.update elem.items (type + 1) (some item) }
      else elem
    let dir : Fin 2 := ⟨type.val % 2, Nat.mod_lt _ (by decide)⟩
    let elem := elem.max_channels dir channels
    if is_global caps then elem.max_channels (dir + 1) channels else elem

def add_cap (s : SndMixer) (e : Nat) (elem : SndMixerElem) (caps : BitVec 32) (type : Fin 5) (it : Nat)
    (item : SndSelemItem) : SndMixer :=
  { s with
    melems := Function.update s.melems e (some (elem.add_cap caps type it item.channels))
    helems :=
      Function.update s.helems item.helem
        ((s.helems item.helem).map fun he => { he with private_data := some e }) }

/-- `strncpy` cuts the name to the 59 characters that `sid.name` has room for. -/
def new_mixer_elem (name : List Char) (index : BitVec 32) : SndMixerElem :=
  { name := name.take 59, index, caps := 0#32, channels := fun _ => 0, items := fun _ => none }

/-- The item, unless its values cannot be read or it cannot be allocated. -/
def new_selem_item (w : World) (h : Nat) (kind : Kind) : Option SndSelemItem :=
  if w.read_errno ≠ 0 then none
  else if ¬ w.alloc_item then none
  else
    some
      { helem := h, numid := w.numid, channels := w.count, kind
        values := (List.range w.count).map w.value }

/-- The loop over the mixer elements: the first one of that name with the slot free, or else the
index for a new one. -/
def find_elem (s : SndMixer) (name : List Char) (type : Fin 5) : List Nat → BitVec 32 → Option (Nat ⊕ BitVec 32)
  | [], index => some (.inr index)
  | e :: rest, index =>
    (s.melems e).bind fun elem =>
      if elem.name = name then
        let index := if index ≤ elem.index then elem.index + 1 else index
        if (elem.items type).isSome then find_elem s name type rest index else some (.inl e)
      else find_elem s name type rest index

def add_mixer_elem (w : World) (s : SndMixer) (e : Nat) : Int × SndMixer :=
  if s.pelems.length = s.alloc ∧ ¬ w.realloc then (-ENOMEM, s)
  else
    let alloc := if s.pelems.length = s.alloc then s.alloc + 32 else s.alloc
    (w.throw_event, { s with pelems := w.compare.qsort (s.pelems ++ [e]), alloc })

def snd_mixer_sort (w : World) (s : SndMixer) : SndMixer := { s with pelems := w.compare.qsort s.pelems }

def add_simple_element (w : World) (s : SndMixer) (h : Nat) : Option (Int × SndMixer) :=
  (s.helems h).bind fun he =>
    let d := decode_name he.id.name
    if w.info_errno ≠ 0 then some (-(w.info_errno : Int), s)
    else
      match item_type d.dir w.type with
      | none => some (0, s)
      | some (caps, type, kind) =>
        match new_selem_item w h kind with
        | none => some (-ENOMEM, s)
        | some item =>
          let it := s.next
          let s := { s with items := Function.update s.items it (some item), next := it + 1 }
          (find_elem s d.name type s.pelems 0#32).bind fun place =>
            match place with
            | .inl e => (s.melems e).map fun elem => (0, add_cap s e elem caps type it item)
            | .inr index =>
              if ¬ w.alloc_elem then
                some (-ENOMEM, { s with items := Function.update s.items it none })
              else
                let e := s.next
                let s := add_cap { s with next := e + 1 } e (new_mixer_elem d.name index) caps type it item
                some (add_mixer_elem w s e)

/-! ## Removal -/

def find_item (s : SndMixer) (elem : SndMixerElem) (h : Nat) : List (Fin 5) → Option (Option (Fin 5 × Nat))
  | [] => some none
  | i :: rest =>
    match elem.items i with
    | none => find_item s elem h rest
    | some it =>
      (s.items it).bind fun item =>
        if item.helem = h then some (some (i, it)) else find_item s elem h rest

/-- The slot is cleared, and with it the one behind if the element has the cap for it. -/
def SndMixerElem.clear_slot (elem : SndMixerElem) (i : Fin 5) : SndMixerElem :=
  let items := Function.update elem.items i none
  if i = SND_SELEM_ITEM_PVOLUME ∧ elem.caps &&& SND_SM_CAP_GVOLUME ≠ 0#32 then
    { elem with items := Function.update items SND_SELEM_ITEM_CVOLUME none }
  else if i = SND_SELEM_ITEM_PSWITCH ∧ elem.caps &&& SND_SM_CAP_GSWITCH ≠ 0#32 then
    { elem with items := Function.update items SND_SELEM_ITEM_CSWITCH none }
  else { elem with items }

def remove_mixer_elem (s : SndMixer) (e : Nat) : SndMixer :=
  { s with pelems := s.pelems.erase e, melems := Function.update s.melems e none }

def remove_simple_element (s : SndMixer) (h : Nat) (remove_mixer : Bool) : Option (Int × SndMixer) :=
  ((s.helems h).bind fun he => he.private_data).bind fun e =>
    (s.melems e).bind fun elem =>
      (find_item s elem h (List.finRange 5)).map fun found =>
        match found with
        | none => (-ENOENT, s)
        | some (i, it) =>
          let elem := elem.clear_slot i
          let s :=
            { s with
              melems := Function.update s.melems e (some elem), items := Function.update s.items it none }
          if ¬ remove_mixer then (0, s)
          else if (List.finRange 5).any fun i => (elem.items i).isSome then (0, s)
          else (0, remove_mixer_elem s e)

/-! ## Events -/

/-- Returns whether a value has changed. -/
def update_simple_element (w : World) (s : SndMixer) (h e : Nat) : Option (Int × SndMixer) :=
  (s.melems e).bind fun elem =>
    (find_item s elem h (List.finRange 5)).bind fun found =>
      match found with
      | none => some (0, s)
      | some (_, it) =>
        (s.items it).map fun item =>
          if w.update_errno ≠ 0 then (0, s)
          else
            let values := (List.range item.channels).map w.update_value
            (if values = item.values then 0 else 1,
              { s with items := Function.update s.items it (some { item with values }) })

/-- The part of `hctl_elem_event_handler` for `SND_CTL_EVENT_MASK_INFO`. -/
def handle_info (w : World) (s : SndMixer) (h e : Nat) : Option (Int × SndMixer) :=
  (remove_simple_element s h false).bind fun (_, s) =>
    (add_simple_element w s h).bind fun (_, s) =>
      (s.melems e).map fun _ =>
        let err := w.elem_throw_event SND_CTL_EVENT_MASK_INFO
        if err < 0 then (err, s) else (0, snd_mixer_sort w s)

/-- The part of `hctl_elem_event_handler` for `SND_CTL_EVENT_MASK_VALUE`. -/
def handle_value (w : World) (s : SndMixer) (h e : Nat) : Option (Int × SndMixer) :=
  (update_simple_element w s h e).map fun (changed, s) =>
    if changed ≠ 0 then (min 0 (w.elem_throw_event SND_CTL_EVENT_MASK_VALUE), s) else (0, s)

def hctl_elem_event_handler (w : World) (s : SndMixer) (h : Nat) (mask : BitVec 32) :
    Option (Int × SndMixer) :=
  (s.helems h).bind fun he =>
    match he.private_data with
    | none => some (0, s)
    | some e =>
      (s.melems e).bind fun _ =>
        if mask = SND_CTL_EVENT_MASK_REMOVE then
          let err := w.elem_throw_event mask
          if err < 0 then some (err, s) else (remove_simple_element s h true).map fun (_, s) => (0, s)
        else
          (if mask &&& SND_CTL_EVENT_MASK_INFO ≠ 0#32 then handle_info w s h e else some (0, s)).bind
            fun (err, s) =>
              if err < 0 then some (err, s)
              else if mask &&& SND_CTL_EVENT_MASK_VALUE ≠ 0#32 then handle_value w s h e
              else some (0, s)

/-- With `SND_CTL_EVENT_MASK_ADD`, for an element that is in the list. -/
def hctl_event_handler (w : World) (s : SndMixer) (h : Nat) : Option (Int × SndMixer) :=
  (s.helems h).bind fun he =>
    if he.id.iface ≠ SND_CTL_ELEM_IFACE_MIXER then some (0, s)
    else
      add_simple_element w
        { s with helems := Function.update s.helems h (some { he with callback := true }) } h

/-- `snd_hctl_elem_remove`; an element without a callback is just freed. -/
def snd_hctl_elem_remove (w : World) (s : SndMixer) (h : Nat) (he : SndHctlElem) : Option SndMixer :=
  let s := { s with hctl := s.hctl.erase h }
  let handled :=
    if he.callback then hctl_elem_event_handler w s h SND_CTL_EVENT_MASK_REMOVE else some (0, s)
  handled.map fun (_, s) => { s with helems := Function.update s.helems h none }

inductive Act where
  /-- An element that no other one has the id of: from an event, or listed by `snd_hctl_load`. -/
  | add (id : SndCtlElemId) (w : World)
  /-- A VALUE or INFO event for an element. -/
  | notify (h : Nat) (mask : BitVec 32) (w : World)
  | remove (h : Nat) (w : World)

def snd_hctl_elem_add (w : World) (s : SndMixer) (id : SndCtlElemId) : Option SndMixer :=
  let h := s.next
  let he : SndHctlElem := { id, callback := false, private_data := none }
  (hctl_event_handler w
    { s with hctl := s.hctl ++ [h], helems := Function.update s.helems h (some he), next := h + 1 }
    h).map fun (_, s) => s

/-- An event for an element that is not there does nothing. -/
def step (s : SndMixer) : Act → Option SndMixer
  | .add id w => snd_hctl_elem_add w s id
  | .notify h mask w =>
    match s.helems h with
    | none => some s
    | some he =>
      let mask := mask &&& (SND_CTL_EVENT_MASK_VALUE ||| SND_CTL_EVENT_MASK_INFO)
      if he.callback then (hctl_elem_event_handler w s h mask).map fun (_, s) => s else some s
  | .remove h w =>
    match s.helems h with
    | none => some s
    | some he => snd_hctl_elem_remove w s h he

def attached : SndMixer :=
  { hctl := [], helems := fun _ => none, melems := fun _ => none, items := fun _ => none, pelems := []
    alloc := 0, next := 0 }

end Salsa.Mixer
