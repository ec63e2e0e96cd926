import Salsa.Hctl.Load
import Salsa.Lib.Lookup

/-!
# The element that an event names

`snd_hctl_handle_event` with the callbacks that it calls. An event names its element by all of the
id, and `snd_hctl_find_elem` looks at the interface, index and name.
-/

namespace Salsa.Hctl

open Ctl Lookup

/-- A call of a callback: that of the hctl for an element, or that of an element. -/
inductive Thrown where
  | hctl (mask : BitVec 32) (elem : SndCtlElemId)
  | elem (mask : BitVec 32) (elem : SndCtlElemId)
deriving DecidableEq

/-! ## The code with its calls -/

def elem_add_thrown (cb : Callbacks) (hctl : List SndCtlElemId) (elem : SndCtlElemId) :
    Int × List SndCtlElemId × List Thrown :=
  if (snd_hctl_find_elem hctl elem).isSome then (-EBUSY, hctl, [])
  else
    (cb.throw_event SND_CTL_EVENT_MASK_ADD elem, add_elem_list hctl elem, [.hctl SND_CTL_EVENT_MASK_ADD elem])

def handle_add_thrown (cb : Callbacks) (alloc : Bool) (hctl : List SndCtlElemId) (event : SndCtlEvent) :
    Int × List SndCtlElemId × List Thrown :=
  if event.mask &&& SND_CTL_EVENT_MASK_ADD = 0#32 then (0, hctl, [])
  else if ¬ alloc then (-ENOMEM, hctl, [])
  else elem_add_thrown cb hctl event.id

/-- The element is taken from the list before its callback is called. -/
def elem_remove_thrown (hctl : List SndCtlElemId) (elem : Nat) (id : SndCtlElemId) :
    List SndCtlElemId × List Thrown :=
  (del_elem_list hctl elem, [.elem SND_CTL_EVENT_MASK_REMOVE (hctl.getD elem id)])

/-- `mask` of the event without the bits that are no element's. -/
def notify_mask (event : SndCtlEvent) : BitVec 32 :=
  event.mask &&& (SND_CTL_EVENT_MASK_VALUE ||| SND_CTL_EVENT_MASK_INFO)

def handle_event_thrown (cb : Callbacks) (alloc : Bool) (hctl : List SndCtlElemId) (event : SndCtlEvent) :
    Int × List SndCtlElemId × List Thrown :=
  if event.type ≠ SND_CTL_EVENT_ELEM then (0, hctl, [])
  else if event.mask = SND_CTL_EVENT_MASK_REMOVE then
    match snd_hctl_find_elem hctl event.id with
    | none => (-ENOENT, hctl, [])
    | some elem => (0, elem_remove_thrown hctl elem event.id)
  else
    let (err, hctl, thrown) := handle_add_thrown cb alloc hctl event
    if err < 0 then (err, hctl, thrown)
    else if notify_mask event = 0#32 then (0, hctl, thrown)
    else
      match snd_hctl_find_elem hctl event.id with
      | none => (-ENOENT, hctl, thrown)
      | some elem =>
        let elem := hctl.getD elem event.id
        (min 0 (cb.elem_throw_event (notify_mask event) elem), hctl, thrown ++ [.elem (notify_mask event) elem])

/-- Apart from the calls it is `snd_hctl_handle_event`. -/
theorem handle_event_thrown_eq (cb : Callbacks) (alloc : Bool) (hctl : List SndCtlElemId) (event : SndCtlEvent) :
    ((handle_event_thrown cb alloc hctl event).1, (handle_event_thrown cb alloc hctl event).2.1) =
      snd_hctl_handle_event cb alloc hctl event := by
  have hadd : ((handle_add_thrown cb alloc hctl event).1, (handle_add_thrown cb alloc hctl event).2.1) =
      handle_add cb alloc hctl event := by
    unfold handle_add_thrown handle_add elem_add_thrown snd_hctl_elem_add
    split_ifs <;> rfl
  unfold handle_event_thrown snd_hctl_handle_event
  split
  · rfl
  · split
    · cases snd_hctl_find_elem hctl event.id <;> rfl
    · rw [← hadd]
      dsimp only
      split
      · rfl
      · change _ = if notify_mask event = 0#32 then _ else _
        split
        · rfl
        · cases snd_hctl_find_elem (handle_add_thrown cb alloc hctl event).2.1 event.id <;> rfl

/-! ## What the events are to do -/

/-- The element has the id, apart from the numid. -/
def is_named (id elem : SndCtlElemId) : Bool :=
  elem.iface == id.iface && elem.device == id.device && elem.subdevice == id.subdevice && elem.name == id.name &&
    elem.index == id.index

/-- No two elements have the same id. -/
def DistinctIds (hctl : List SndCtlElemId) : Prop :=
  hctl.Pairwise fun a b => a.iface ≠ b.iface ∨ a.device ≠ b.device ∨ a.subdevice ≠ b.subdevice ∨ a.name ≠ b.name ∨
    a.index ≠ b.index

structure SndCtlEvent.Removes (event : SndCtlEvent) : Prop where
  type : event.type = SND_CTL_EVENT_ELEM
  mask : event.mask = SND_CTL_EVENT_MASK_REMOVE

structure SndCtlEvent.Adds (event : SndCtlEvent) : Prop where
  type : event.type = SND_CTL_EVENT_ELEM
  mask : event.mask ≠ SND_CTL_EVENT_MASK_REMOVE
  add : event.mask &&& SND_CTL_EVENT_MASK_ADD ≠ 0#32

/-- The value or the info has changed. -/
structure SndCtlEvent.Notifies (event : SndCtlEvent) : Prop where
  type : event.type = SND_CTL_EVENT_ELEM
  mask : event.mask ≠ SND_CTL_EVENT_MASK_REMOVE
  notify : notify_mask event ≠ 0#32

/-- The event acts on the element that it names, and on no other one. Without memory nothing is added. -/
structure ActsExactly (cb : Callbacks) (alloc : Bool) (hctl : List SndCtlElemId) (event : SndCtlEvent) : Prop where
  others_stay : (handle_event_thrown cb alloc hctl event).2.1.filter (fun elem => !is_named event.id elem) =
    hctl.filter fun elem => !is_named event.id elem
  others_quiet : ∀ mask elem, .elem mask elem ∈ (handle_event_thrown cb alloc hctl event).2.2 →
    is_named event.id elem = true
  remove : event.Removes → ∀ elem ∈ hctl, is_named event.id elem = true →
    handle_event_thrown cb alloc hctl event =
      (0, hctl.filter (fun elem => !is_named event.id elem), [.elem SND_CTL_EVENT_MASK_REMOVE elem])
  remove_absent : event.Removes → (∀ elem ∈ hctl, is_named event.id elem = false) →
    handle_event_thrown cb alloc hctl event = (-ENOENT, hctl, [])
  add : event.Adds → alloc = true → (∀ elem ∈ hctl, is_named event.id elem = false) →
    (handle_event_thrown cb alloc hctl event).2.1 = hctl ++ [event.id]
  notify : event.Notifies → ∀ elem ∈ hctl, is_named event.id elem = true →
    (handle_event_thrown cb alloc hctl event).2 = (hctl, [.elem (notify_mask event) elem])

/-- No other device or subdevice has an element of the same interface, index and name in front of the
one that the event names, or anywhere if there is none; and it does not both add an element that
is there and tell of its value or info. -/
structure Unambiguous (alloc : Bool) (hctl : List SndCtlElemId) (event : SndCtlEvent) : Prop where
  remove : event.Removes → NoneInFront (is_found event.id) (is_named event.id) hctl
  add : event.Adds → alloc = true → (∀ elem ∈ hctl, is_named event.id elem = false) →
    NoneInFront (is_found event.id) (is_named event.id) hctl
  notify : event.Notifies → ¬ event.Adds → NoneInFront (is_found event.id) (is_named event.id) hctl
  both : event.Notifies → event.Adds → ∀ elem ∈ hctl, is_named event.id elem = false

/-! ## One event -/

theorem is_named_iff (id elem : SndCtlElemId) : is_named id elem = true ↔
    elem.iface = id.iface ∧ elem.device = id.device ∧ elem.subdevice = id.subdevice ∧ elem.name = id.name ∧
      elem.index = id.index := by
  simp [is_named, and_assoc]

theorem is_named_self (id : SndCtlElemId) : is_named id id = true := by simp [is_named]

theorem is_found_of_named (id elem : SndCtlElemId) (h : is_named id elem = true) : is_found id elem = true := by
  obtain ⟨hiface, -, -, hname, hindex⟩ := (is_named_iff id elem).mp h
  simp [is_found, hiface, hname, hindex]

theorem DistinctIds.named {hctl : List SndCtlElemId} (h : DistinctIds hctl) (id : SndCtlElemId) :
    hctl.Pairwise fun a b => ¬ (is_named id a = true ∧ is_named id b = true) := by
  refine h.imp fun {a b} hab ⟨ha, hb⟩ => ?_
  obtain ⟨ha₁, ha₂, ha₃, ha₄, ha₅⟩ := (is_named_iff id a).mp ha
  obtain ⟨hb₁, hb₂, hb₃, hb₄, hb₅⟩ := (is_named_iff id b).mp hb
  rcases hab with h | h | h | h | h
  · exact h (ha₁.trans hb₁.symm)
  · exact h (ha₂.trans hb₂.symm)
  · exact h (ha₃.trans hb₃.symm)
  · exact h (ha₄.trans hb₄.symm)
  · exact h (ha₅.trans hb₅.symm)

section Event

variable (cb : Callbacks) (alloc : Bool) {hctl : List SndCtlElemId} {event : SndCtlEvent}

/-- The part behind `SND_CTL_EVENT_MASK_ADD`, when nothing is added. -/
theorem thrown_of_not_add (htype : event.type = SND_CTL_EVENT_ELEM) (hmask : event.mask ≠ SND_CTL_EVENT_MASK_REMOVE)
    (hadd : event.mask &&& SND_CTL_EVENT_MASK_ADD = 0#32) :
    handle_event_thrown cb alloc hctl event =
      if notify_mask event = 0#32 then (0, hctl, [])
      else
        match snd_hctl_find_elem hctl event.id with
        | none => (-ENOENT, hctl, [])
        | some elem =>
          (min 0 (cb.elem_throw_event (notify_mask event) (hctl.getD elem event.id)), hctl,
            [.elem (notify_mask event) (hctl.getD elem event.id)]) := by
  unfold handle_event_thrown
  rw [if_neg (not_not_intro htype), if_neg hmask, handle_add_thrown, if_pos hadd]
  rfl

theorem getD_found (before after : List SndCtlElemId) (x id : SndCtlElemId) :
    (before ++ x :: after).getD before.length id = x := by
  simp [List.getD_eq_getElem?_getD]

theorem not_named_of_not_found {id : SndCtlElemId} (h : ∀ elem ∈ hctl, is_found id elem = false) :
    ∀ elem ∈ hctl, is_named id elem = false := fun elem helem =>
  Bool.eq_false_iff.mpr fun hn => Bool.eq_false_iff.mp (h elem helem) (is_found_of_named id elem hn)

theorem removes_iff (hids : DistinctIds hctl) (h : event.Removes) :
    ActsExactly cb alloc hctl event ↔ NoneInFront (is_found event.id) (is_named event.id) hctl := by
  have hadds : ¬ event.Adds := fun hadds => hadds.mask h.mask
  have hnotifies : ¬ event.Notifies := fun hnotifies => hnotifies.mask h.mask
  have hthrown : handle_event_thrown cb alloc hctl event =
      match snd_hctl_find_elem hctl event.id with
      | none => (-ENOENT, hctl, [])
      | some elem => (0, elem_remove_thrown hctl elem event.id) := by
    unfold handle_event_thrown
    rw [if_neg (not_not_intro h.type), if_pos h.mask]
  unfold snd_hctl_find_elem at hthrown
  rcases findIdx_cases (is_found event.id) hctl with ⟨hnone, hall⟩ | ⟨before, x, after, rfl, hbefore, hx, hidx⟩
  · rw [hnone] at hthrown
    have hnamed := not_named_of_not_found hall
    refine ⟨fun _ => noneInFront_of_absent hall, fun _ => ?_⟩
    exact {
      others_stay := by rw [hthrown]
      others_quiet := by
        rw [hthrown]
        intro mask elem hmem
        cases hmem
      remove := fun _ elem helem hn => absurd hn (Bool.eq_false_iff.mp (hnamed elem helem))
      remove_absent := fun _ _ => hthrown
      add := fun hadd => absurd hadd hadds
      notify := fun hnotify => absurd hnotify hnotifies }
  · rw [hidx] at hthrown
    unfold elem_remove_thrown del_elem_list at hthrown
    dsimp only at hthrown
    rw [getD_found, List.eraseIdx_append_of_length_le (Nat.le_refl _), Nat.sub_self, List.eraseIdx_zero, List.tail_cons]
      at hthrown
    rw [noneInFront_iff (is_found_of_named event.id) hbefore hx]
    constructor
    · intro hacts
      exact hacts.others_quiet SND_CTL_EVENT_MASK_REMOVE x (by rw [hthrown]; exact List.mem_singleton_self _)
    · intro hn
      have hfilter := filter_named (hids.named event.id) hn
      exact {
        others_stay := by
          rw [hthrown, hfilter, ← hfilter, List.filter_filter]
          simp
        others_quiet := by
          rw [hthrown]
          intro mask elem hmem
          rw [List.mem_singleton] at hmem
          cases hmem
          exact hn
        remove := fun _ elem helem hen => by
          rw [hthrown, hfilter, eq_of_named (hids.named event.id) hn helem hen]
        remove_absent := fun _ habsent => absurd hn (Bool.eq_false_iff.mp (habsent x (by simp)))
        add := fun hadd => absurd hadd hadds
        notify := fun hnotify => absurd hnotify hnotifies }

/-- An event that does nothing acts exactly if nothing is to be done. -/
theorem quiet_iff (hremoves : ¬ event.Removes) (hquiet : (handle_event_thrown cb alloc hctl event).2 = (hctl, [])) :
    ActsExactly cb alloc hctl event ↔
      (event.Adds → alloc = true → ¬ ∀ elem ∈ hctl, is_named event.id elem = false) ∧
      (event.Notifies → ∀ elem ∈ hctl, is_named event.id elem = false) := by
  constructor
  · intro hacts
    constructor
    · intro hadd halloc habsent
      have hlist := hacts.add hadd halloc habsent
      rw [hquiet] at hlist
      simp at hlist
    · intro hnotify elem helem
      rw [← Bool.not_eq_true]
      intro hn
      have hcalls := hacts.notify hnotify elem helem hn
      rw [hquiet] at hcalls
      simp at hcalls
  · rintro ⟨hadd, hnotify⟩
    exact {
      others_stay := by rw [hquiet]
      others_quiet := by
        rw [hquiet]
        intro mask elem hmem
        cases hmem
      remove := fun hremove => absurd hremove hremoves
      remove_absent := fun hremove => absurd hremove hremoves
      add := fun h halloc habsent => absurd habsent (hadd h halloc)
      notify := fun h elem helem hn => absurd hn (Bool.eq_false_iff.mp (hnotify h elem helem)) }

theorem notifies_iff (hids : DistinctIds hctl) (h : event.Notifies) (hadds : ¬ event.Adds) :
    ActsExactly cb alloc hctl event ↔ NoneInFront (is_found event.id) (is_named event.id) hctl := by
  have hremoves : ¬ event.Removes := fun hremoves => h.mask hremoves.mask
  have hadd : event.mask &&& SND_CTL_EVENT_MASK_ADD = 0#32 := by
    by_contra hadd
    exact hadds ⟨h.type, h.mask, hadd⟩
  have hthrown := @thrown_of_not_add cb alloc hctl event h.type h.mask hadd
  rw [if_neg h.notify] at hthrown
  unfold snd_hctl_find_elem at hthrown
  rcases findIdx_cases (is_found event.id) hctl with ⟨hnone, hall⟩ | ⟨before, x, after, rfl, hbefore, hx, hidx⟩
  · rw [hnone] at hthrown
    have hnamed := not_named_of_not_found hall
    rw [quiet_iff cb alloc hremoves (by rw [hthrown])]
    exact iff_of_true ⟨fun hadd => absurd hadd hadds, fun _ => hnamed⟩ (noneInFront_of_absent hall)
  · rw [hidx] at hthrown
    dsimp only at hthrown
    rw [getD_found] at hthrown
    rw [noneInFront_iff (is_found_of_named event.id) hbefore hx]
    constructor
    · intro hacts
      exact hacts.others_quiet (notify_mask event) x (by rw [hthrown]; exact List.mem_singleton_self _)
    · intro hn
      exact {
        others_stay := by rw [hthrown]
        others_quiet := by
          rw [hthrown]
          intro mask elem hmem
          rw [List.mem_singleton] at hmem
          cases hmem
          exact hn
        remove := fun hremove => absurd hremove hremoves
        remove_absent := fun hremove => absurd hremove hremoves
        add := fun hadd => absurd hadd hadds
        notify := fun _ elem helem hen => by
          rw [hthrown, eq_of_named (hids.named event.id) hn helem hen] }

/-- The element is added if no other one looks like it. -/
theorem added (h : event.Adds) (hall : ∀ elem ∈ hctl, is_found event.id elem = false) :
    ∃ err more, handle_event_thrown cb true hctl event =
      (err, hctl ++ [event.id], .hctl SND_CTL_EVENT_MASK_ADD event.id :: more) ∧
      ∀ mask elem, .elem mask elem ∈ more → elem = event.id := by
  have hnone : snd_hctl_find_elem hctl event.id = none := by
    unfold snd_hctl_find_elem
    exact List.findIdx?_eq_none_iff.mpr hall
  have hnew : snd_hctl_find_elem (hctl ++ [event.id]) event.id = some hctl.length :=
    find_elem_append hctl [] event.id fun elem helem => by simp [hall elem helem]
  unfold handle_event_thrown
  rw [if_neg (not_not_intro h.type), if_neg h.mask, handle_add_thrown, if_neg h.add, if_neg (not_not_intro rfl),
    elem_add_thrown, hnone, if_neg (by simp)]
  unfold add_elem_list
  dsimp only
  split
  · exact ⟨_, [], rfl, fun mask elem hmem => absurd hmem List.not_mem_nil⟩
  · split
    · exact ⟨_, [], rfl, fun mask elem hmem => absurd hmem List.not_mem_nil⟩
    · rw [hnew]
      refine ⟨_, [.elem (notify_mask event) event.id], by dsimp only; rw [getD_found]; rfl, fun mask elem hmem => ?_⟩
      rw [List.mem_singleton] at hmem
      cases hmem
      rfl

theorem adds_iff (h : event.Adds) :
    ActsExactly cb alloc hctl event ↔
      (alloc = true → (∀ elem ∈ hctl, is_named event.id elem = false) →
        NoneInFront (is_found event.id) (is_named event.id) hctl) ∧
      (event.Notifies → ∀ elem ∈ hctl, is_named event.id elem = false) := by
  have hremoves : ¬ event.Removes := fun hremoves => h.mask hremoves.mask
  cases halloc : alloc with
  | false =>
    have hquiet : (handle_event_thrown cb false hctl event).2 = (hctl, []) := by
      unfold handle_event_thrown
      rw [if_neg (not_not_intro h.type), if_neg h.mask, handle_add_thrown, if_neg h.add, if_pos Bool.false_ne_true]
      rfl
    rw [quiet_iff cb false hremoves hquiet]
    simp
  | true =>
    rcases findIdx_cases (is_found event.id) hctl with ⟨-, hall⟩ | ⟨before, x, after, rfl, hbefore, hx, hidx⟩
    · obtain ⟨err, more, hthrown, hmore⟩ := added cb h hall
      have hnamed := not_named_of_not_found hall
      refine ⟨fun _ => ⟨fun _ _ => noneInFront_of_absent hall, fun _ => hnamed⟩, fun _ => ?_⟩
      exact {
        others_stay := by
          rw [hthrown]
          simp [is_named_self]
        others_quiet := by
          rw [hthrown]
          intro mask elem hmem
          rcases List.mem_cons.mp hmem with heq | hmem
          · cases heq
          · rw [hmore mask elem hmem]
            exact is_named_self event.id
        remove := fun hremove => absurd hremove hremoves
        remove_absent := fun hremove => absurd hremove hremoves
        add := fun _ _ _ => by rw [hthrown]
        notify := fun _ elem helem hn => absurd hn (Bool.eq_false_iff.mp (hnamed elem helem)) }
    · have hquiet : (handle_event_thrown cb true (before ++ x :: after) event).2 = (before ++ x :: after, []) := by
        have hfound : snd_hctl_find_elem (before ++ x :: after) event.id = some before.length := hidx
        unfold handle_event_thrown
        rw [if_neg (not_not_intro h.type), if_neg h.mask, handle_add_thrown, if_neg h.add, if_neg (not_not_intro rfl),
          elem_add_thrown, hfound]
        rfl
      rw [quiet_iff cb true hremoves hquiet, noneInFront_iff (is_found_of_named event.id) hbefore hx]
      have hiff : (¬ ∀ elem ∈ before ++ x :: after, is_named event.id elem = false) ↔
          ((∀ elem ∈ before ++ x :: after, is_named event.id elem = false) → is_named event.id x = true) := by
        refine ⟨fun hnot hall => absurd hall hnot, fun himp hall => ?_⟩
        exact Bool.eq_false_iff.mp (hall x (by simp)) (himp hall)
      simp only [h, true_implies, hiff]

end Event

/-- An event acts exactly on the element that it names if and only if it is unambiguous. -/
theorem acts_exactly_iff (cb : Callbacks) (alloc : Bool) (hctl : List SndCtlElemId) (event : SndCtlEvent)
    (hids : DistinctIds hctl) : ActsExactly cb alloc hctl event ↔ Unambiguous alloc hctl event := by
  by_cases hremoves : event.Removes
  · have hadds : ¬ event.Adds := fun hadds => hadds.mask hremoves.mask
    have hnotifies : ¬ event.Notifies := fun hnotifies => hnotifies.mask hremoves.mask
    rw [removes_iff cb alloc hids hremoves]
    constructor
    · intro h
      exact ⟨fun _ => h, fun hadd => absurd hadd hadds, fun hnotify => absurd hnotify hnotifies,
        fun hnotify => absurd hnotify hnotifies⟩
    · intro h
      exact h.remove hremoves
  · by_cases hadds : event.Adds
    · rw [adds_iff cb alloc hadds]
      constructor
      · rintro ⟨hadd, hnotify⟩
        exact ⟨fun hremove => absurd hremove hremoves, fun _ => hadd, fun _ hnot => absurd hadds hnot,
          fun hnotifies _ => hnotify hnotifies⟩
      · intro h
        exact ⟨h.add hadds, fun hnotify => h.both hnotify hadds⟩
    · by_cases hnotifies : event.Notifies
      · rw [notifies_iff cb alloc hids hnotifies hadds]
        constructor
        · intro h
          exact ⟨fun hremove => absurd hremove hremoves, fun hadd => absurd hadd hadds, fun _ _ => h,
            fun _ hadd => absurd hadd hadds⟩
        · intro h
          exact h.notify hnotifies hadds
      · have hquiet : (handle_event_thrown cb alloc hctl event).2 = (hctl, []) := by
          by_cases htype : event.type = SND_CTL_EVENT_ELEM
          · have hmask : event.mask ≠ SND_CTL_EVENT_MASK_REMOVE := fun hmask => hremoves ⟨htype, hmask⟩
            have hadd : event.mask &&& SND_CTL_EVENT_MASK_ADD = 0#32 := by
              by_contra hadd
              exact hadds ⟨htype, hmask, hadd⟩
            have hnotify : notify_mask event = 0#32 := by
              by_contra hnotify
              exact hnotifies ⟨htype, hmask, hnotify⟩
            rw [thrown_of_not_add cb alloc htype hmask hadd, if_pos hnotify]
          · unfold handle_event_thrown
            rw [if_pos htype]
        rw [quiet_iff cb alloc hremoves hquiet]
        constructor
        · intro _
          exact ⟨fun hremove => absurd hremove hremoves, fun hadd => absurd hadd hadds,
            fun hnotify => absurd hnotify hnotifies, fun hnotify => absurd hnotify hnotifies⟩
        · intro _
          exact ⟨fun hadd => absurd hadd hadds, fun hnotify => absurd hnotify hnotifies⟩

/-! The channel maps of two PCM devices. -/

def map_of_device (device : BitVec 32) : SndCtlElemId :=
  { zeroed_id with iface := 3#32, device, name := "Playback Channel Map".toList }

theorem acts_exactly_first_device :
    ActsExactly no_callbacks true [map_of_device 0#32, map_of_device 1#32]
      ⟨SND_CTL_EVENT_ELEM, SND_CTL_EVENT_MASK_VALUE, map_of_device 0#32⟩ := by
  have hids : DistinctIds [map_of_device 0#32, map_of_device 1#32] := by
    unfold DistinctIds
    decide
  refine (acts_exactly_iff no_callbacks true _ _ hids).mpr ⟨?_, ?_, fun _ _ => ?_, ?_⟩
  · exact fun h => absurd h.mask (by decide)
  · exact fun h => absurd rfl h.add
  · have hbefore : ∀ y ∈ ([] : List SndCtlElemId), is_found (map_of_device 0#32) y = false :=
      fun _ hy => absurd hy List.not_mem_nil
    exact (noneInFront_iff (is_found_of_named _) hbefore (by decide)).mpr (by decide)
  · exact fun _ h => absurd rfl h.add

/-- The map of the first device is removed with that of the second. -/
theorem first_device_is_removed : ¬ ∀ cb alloc hctl event, DistinctIds hctl → ActsExactly cb alloc hctl event := by
  intro h
  have hids : DistinctIds [map_of_device 0#32, map_of_device 1#32] := by
    unfold DistinctIds
    decide
  have hacts := h no_callbacks true [map_of_device 0#32, map_of_device 1#32]
    ⟨SND_CTL_EVENT_ELEM, SND_CTL_EVENT_MASK_REMOVE, map_of_device 1#32⟩ hids
  have hquiet := hacts.others_quiet SND_CTL_EVENT_MASK_REMOVE (map_of_device 0#32) (by decide)
  exact absurd hquiet (by decide)

end Salsa.Hctl
