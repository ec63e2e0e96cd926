import Salsa.Ctl.ElemId
import Salsa.Lib.Replica

/-!
# The elements of an hctl

The list of `hcontrol.c` and the events that change it. An element stands for its id, and a
pointer to one for its place in the list.
-/

namespace Salsa.Hctl

open Ctl Replica

def SND_CTL_EVENT_ELEM : Int := 0
def SND_CTL_EVENT_MASK_REMOVE : BitVec 32 := -1#32
def SND_CTL_EVENT_MASK_VALUE : BitVec 32 := 1#32
def SND_CTL_EVENT_MASK_INFO : BitVec 32 := 2#32
def SND_CTL_EVENT_MASK_ADD : BitVec 32 := 4#32

structure SndCtlEvent where
  type : Int
  mask : BitVec 32
  id : SndCtlElemId
deriving DecidableEq

/-- What the callbacks of the hctl and of an element return; a missing one returns 0. -/
structure Callbacks where
  throw_event : BitVec 32 → SndCtlElemId → Int
  elem_throw_event : BitVec 32 → SndCtlElemId → Int

/-- The comparison of `snd_hctl_find_elem`. -/
def is_found (id elem : SndCtlElemId) : Bool :=
  elem.iface == id.iface && elem.index == id.index && elem.name == id.name

def snd_hctl_find_elem (hctl : List SndCtlElemId) (id : SndCtlElemId) : Option Nat :=
  hctl.findIdx? (is_found id)

def add_elem_list (hctl : List SndCtlElemId) (elem : SndCtlElemId) : List SndCtlElemId := hctl ++ [elem]

def del_elem_list (hctl : List SndCtlElemId) (elem : Nat) : List SndCtlElemId := hctl.eraseIdx elem

def snd_hctl_elem_add (cb : Callbacks) (hctl : List SndCtlElemId) (elem : SndCtlElemId) :
    Int × List SndCtlElemId :=
  if (snd_hctl_find_elem hctl elem).isSome then (-EBUSY, hctl)
  else (cb.throw_event SND_CTL_EVENT_MASK_ADD elem, add_elem_list hctl elem)

/-- What the callback of the element returns is not looked at. -/
def snd_hctl_elem_remove (hctl : List SndCtlElemId) (elem : Nat) : List SndCtlElemId :=
  del_elem_list hctl elem

/-- The part of `snd_hctl_handle_event` for `SND_CTL_EVENT_MASK_ADD`. -/
def handle_add (cb : Callbacks) (alloc : Bool) (hctl : List SndCtlElemId) (event : SndCtlEvent) :
    Int × List SndCtlElemId :=
  if event.mask &&& SND_CTL_EVENT_MASK_ADD = 0#32 then (0, hctl)
  else if ¬ alloc then (-ENOMEM, hctl)
  else snd_hctl_elem_add cb hctl event.id

def snd_hctl_handle_event (cb : Callbacks) (alloc : Bool) (hctl : List SndCtlElemId)
    (event : SndCtlEvent) : Int × List SndCtlElemId :=
  if event.type ≠ SND_CTL_EVENT_ELEM then (0, hctl)
  else if event.mask = SND_CTL_EVENT_MASK_REMOVE then
    match snd_hctl_find_elem hctl event.id with
    | none => (-ENOENT, hctl)
    | some elem => (0, snd_hctl_elem_remove hctl elem)
  else
    let (err, hctl) := handle_add cb alloc hctl event
    let mask := event.mask &&& (SND_CTL_EVENT_MASK_VALUE ||| SND_CTL_EVENT_MASK_INFO)
    if err < 0 then (err, hctl)
    else if mask = 0#32 then (0, hctl)
    else
      match snd_hctl_find_elem hctl event.id with
      | none => (-ENOENT, hctl)
      | some elem => (min 0 (cb.elem_throw_event mask (hctl.getD elem event.id)), hctl)

/-! ## What an event stands for -/

/-- The change at the kernel that an event tells of. -/
def change (event : SndCtlEvent) : Change SndCtlElemId :=
  if event.type ≠ SND_CTL_EVENT_ELEM then .none
  else if event.mask = SND_CTL_EVENT_MASK_REMOVE then .remove event.id
  else if event.mask &&& SND_CTL_EVENT_MASK_ADD = 0#32 then .none
  else .add event.id

/-- No element, or none but the one in question, stands in front under the same interface,
index and name, and an element to add can be allocated. -/
def Distinguishes (alloc : Bool) (hctl : List SndCtlElemId) (event : SndCtlEvent) : Prop :=
  match change event with
  | .none => True
  | .add id => alloc ∧ ∀ elem ∈ hctl, ¬ is_found id elem
  | .remove id => ∃ before after, hctl = before ++ id :: after ∧ ∀ elem ∈ before, ¬ is_found id elem

theorem find_elem_none (hctl : List SndCtlElemId) (id : SndCtlElemId)
    (h : ∀ elem ∈ hctl, ¬ is_found id elem) : snd_hctl_find_elem hctl id = none := by
  unfold snd_hctl_find_elem
  rw [List.findIdx?_eq_none_iff]
  intro elem helem
  exact Bool.eq_false_iff.mpr (h elem helem)

theorem find_elem_append (before after : List SndCtlElemId) (id : SndCtlElemId)
    (h : ∀ elem ∈ before, ¬ is_found id elem) :
    snd_hctl_find_elem (before ++ id :: after) id = some before.length := by
  have hself : is_found id id = true := by simp [is_found]
  have hbefore := find_elem_none before id h
  unfold snd_hctl_find_elem at hbefore ⊢
  simp [List.findIdx?_append, hbefore, List.findIdx?_cons, hself]

theorem remove_spec (before after : List SndCtlElemId) (id : SndCtlElemId) :
    (snd_hctl_elem_remove (before ++ id :: after) before.length : Multiset SndCtlElemId) =
      (↑(before ++ id :: after) : Multiset SndCtlElemId).erase id := by
  have hdel : snd_hctl_elem_remove (before ++ id :: after) before.length = before ++ after := by
    unfold snd_hctl_elem_remove del_elem_list
    rw [List.eraseIdx_append_of_length_le (Nat.le_refl _), Nat.sub_self]
    rfl
  have hperm : (before ++ id :: after).Perm (id :: (before ++ after)) := List.perm_middle
  rw [hdel, Multiset.coe_eq_coe.mpr hperm, ← Multiset.cons_coe, Multiset.erase_cons_head]

theorem add_spec (cb : Callbacks) (hctl : List SndCtlElemId) (id : SndCtlElemId)
    (h : ∀ elem ∈ hctl, ¬ is_found id elem) :
    ((snd_hctl_elem_add cb hctl id).2 : Multiset SndCtlElemId) = id ::ₘ ↑hctl := by
  unfold snd_hctl_elem_add
  rw [find_elem_none hctl id h, if_neg (by simp)]
  exact Multiset.coe_eq_coe.mpr List.perm_append_comm

theorem handle_event_of_not_remove (cb : Callbacks) (alloc : Bool) (hctl : List SndCtlElemId)
    (event : SndCtlEvent) (htype : event.type = SND_CTL_EVENT_ELEM)
    (hmask : event.mask ≠ SND_CTL_EVENT_MASK_REMOVE) :
    (snd_hctl_handle_event cb alloc hctl event).2 = (handle_add cb alloc hctl event).2 := by
  unfold snd_hctl_handle_event
  rw [if_neg (not_not_intro htype), if_neg hmask]
  dsimp only
  split
  · rfl
  · split
    · rfl
    · split <;> rfl

theorem handle_event_spec (cb : Callbacks) (alloc : Bool) (hctl : List SndCtlElemId)
    (event : SndCtlEvent) (h : Distinguishes alloc hctl event) :
    ((snd_hctl_handle_event cb alloc hctl event).2 : Multiset SndCtlElemId) =
      (change event).apply hctl := by
  by_cases htype : event.type = SND_CTL_EVENT_ELEM
  · by_cases hremove : event.mask = SND_CTL_EVENT_MASK_REMOVE
    · have hchange : change event = .remove event.id := by
        rw [change, if_neg (not_not_intro htype), if_pos hremove]
      unfold Distinguishes at h
      rw [hchange] at h ⊢
      obtain ⟨before, after, rfl, hbefore⟩ := h
      unfold snd_hctl_handle_event
      rw [if_neg (not_not_intro htype), if_pos hremove, find_elem_append before after event.id hbefore]
      exact remove_spec before after event.id
    · rw [handle_event_of_not_remove cb alloc hctl event htype hremove]
      by_cases hadd : event.mask &&& SND_CTL_EVENT_MASK_ADD = 0#32
      · rw [change, if_neg (not_not_intro htype), if_neg hremove, if_pos hadd, handle_add, if_pos hadd]
        rfl
      · have hchange : change event = .add event.id := by
          rw [change, if_neg (not_not_intro htype), if_neg hremove, if_neg hadd]
        unfold Distinguishes at h
        rw [hchange] at h ⊢
        obtain ⟨halloc, hfree⟩ := h
        rw [handle_add, if_neg hadd, if_neg (not_not_intro halloc)]
        exact add_spec cb hctl event.id hfree
  · rw [change, if_pos htype, snd_hctl_handle_event, if_pos htype]
    rfl

end Salsa.Hctl
