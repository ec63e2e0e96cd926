import Salsa.Mixer.Decode

/-!
# What is filed where

The mixer element of a control carries the base name that the control's own name decodes to, and the item there is
of the kind that goes with the control's type. This holds whatever else happens around the mixer.
-/

namespace Salsa.Mixer

open Cells Ctl
open Hctl (SND_CTL_EVENT_MASK_REMOVE SND_CTL_EVENT_MASK_VALUE SND_CTL_EVENT_MASK_INFO)

/-! ## The invariant -/

/-- What the items of a control are, where `type` says what the infos of the controls say: nothing for one that is
not of the mixer, and for a type that it does not know. -/
def shown (type : SndCtlElemId → CtlType) (id : SndCtlElemId) : Option Kind :=
  if id.iface = SND_CTL_ELEM_IFACE_MIXER then (item_type (decode_name id.name).dir (type id)).map fun p => p.2.2
  else none

/-- The name that `sid.name` has room for. -/
def filing_name (id : SndCtlElemId) : List Char := (decode_name id.name).name.take 59

/-- The items are of the kind of their controls, and these stand under their names. All that are shown have a mixer
element, but perhaps those that the mixer was not told of. -/
structure Labelled (type : SndCtlElemId → CtlType) (s : SndMixer) (untold : List Nat) : Prop where
  helem_lt : ∀ h, (s.helems h).isSome → h < s.next
  melem_lt : ∀ e, (s.melems e).isSome → e < s.next
  short : ∀ e elem, s.melems e = some elem → elem.name.length ≤ 59
  data_lt : ∀ h he e, s.helems h = some he → he.private_data = some e → e < s.next
  item_lt : ∀ it item, s.items it = some item → item.helem < s.next
  named : ∀ h he e elem, s.helems h = some he → he.private_data = some e → s.melems e = some elem →
    elem.name = filing_name he.id
  kind : ∀ it item he, s.items it = some item → s.helems item.helem = some he → shown type he.id = some item.kind
  all : ∀ h he, s.helems h = some he → (shown type he.id).isSome → h ∉ untold → he.private_data.isSome

theorem Labelled.told {type : SndCtlElemId → CtlType} {s : SndMixer} {untold : List Nat} (hs : Labelled type s untold)
    (h : Nat) : Labelled type s (h :: untold) :=
  { hs with all := fun h' he hhe hsome hmem => hs.all h' he hhe hsome (List.not_mem_of_not_mem_cons hmem) }

/-- The same controls in the same places. -/
structure SameIds (s t : SndMixer) : Prop where
  hctl : t.hctl = s.hctl
  id : ∀ h, (t.helems h).map SndHctlElem.id = (s.helems h).map SndHctlElem.id

theorem SameIds.refl (s : SndMixer) : SameIds s s := ⟨rfl, fun _ => rfl⟩

theorem SameIds.trans {s t u : SndMixer} (hst : SameIds s t) (htu : SameIds t u) : SameIds s u :=
  ⟨htu.hctl.trans hst.hctl, fun h => (htu.id h).trans (hst.id h)⟩

/-! ## Steps that file nothing -/

/-- `t` has no mixer elements and items that `s` has not, but for their slots and values. -/
structure Within (s t : SndMixer) : Prop where
  hctl : t.hctl = s.hctl
  helems : t.helems = s.helems
  next : s.next ≤ t.next
  melem : ∀ e new, t.melems e = some new → ∃ old, s.melems e = some old ∧ new.name = old.name
  item : ∀ it new, t.items it = some new → ∃ old, s.items it = some old ∧ new.helem = old.helem ∧ new.kind = old.kind

theorem Within.refl (s : SndMixer) : Within s s :=
  ⟨rfl, rfl, le_refl _, fun _ new h => ⟨new, h, rfl⟩, fun _ new h => ⟨new, h, rfl, rfl⟩⟩

theorem Within.trans {s t u : SndMixer} (hst : Within s t) (htu : Within t u) : Within s u where
  hctl := htu.hctl.trans hst.hctl
  helems := htu.helems.trans hst.helems
  next := hst.next.trans htu.next
  melem e new hnew := by
    obtain ⟨mid, hmid, hname⟩ := htu.melem e new hnew
    obtain ⟨old, hold, hname'⟩ := hst.melem e mid hmid
    exact ⟨old, hold, hname.trans hname'⟩
  item it new hnew := by
    obtain ⟨mid, hmid, hof, hkind⟩ := htu.item it new hnew
    obtain ⟨old, hold, hof', hkind'⟩ := hst.item it mid hmid
    exact ⟨old, hold, hof.trans hof', hkind.trans hkind'⟩

theorem Within.sameIds {s t : SndMixer} (h : Within s t) : SameIds s t := ⟨h.hctl, fun x => by rw [h.helems]⟩

theorem Within.labelled {type : SndCtlElemId → CtlType} {s t : SndMixer} {untold : List Nat} (h : Within s t)
    (hs : Labelled type s untold) : Labelled type t untold where
  helem_lt a ha := by
    rw [h.helems] at ha
    exact lt_of_lt_of_le (hs.helem_lt a ha) h.next
  melem_lt e he := by
    obtain ⟨new, hnew⟩ := Option.isSome_iff_exists.mp he
    obtain ⟨old, hold, -⟩ := h.melem e new hnew
    refine lt_of_lt_of_le (hs.melem_lt e ?_) h.next
    rw [hold]
    rfl
  short e new hnew := by
    obtain ⟨old, hold, hname⟩ := h.melem e new hnew
    rw [hname]
    exact hs.short e old hold
  data_lt a he e hhe hdata := by
    rw [h.helems] at hhe
    exact lt_of_lt_of_le (hs.data_lt a he e hhe hdata) h.next
  item_lt it new hnew := by
    obtain ⟨old, hold, hof, -⟩ := h.item it new hnew
    rw [hof]
    exact lt_of_lt_of_le (hs.item_lt it old hold) h.next
  named a he e new hhe hdata hnew := by
    obtain ⟨old, hold, hname⟩ := h.melem e new hnew
    rw [h.helems] at hhe
    rw [hname]
    exact hs.named a he e old hhe hdata hold
  kind it new he hnew hhe := by
    obtain ⟨old, hold, hof, hkind⟩ := h.item it new hnew
    rw [h.helems, hof] at hhe
    rw [hkind]
    exact hs.kind it old he hold hhe
  all a he hhe := by
    rw [h.helems] at hhe
    exact hs.all a he hhe

theorem clear_slot_name (elem : SndMixerElem) (i : Fin 5) : (elem.clear_slot i).name = elem.name := by
  unfold SndMixerElem.clear_slot
  dsimp only
  split_ifs <;> rfl

theorem within_clear (s : SndMixer) (e it : Nat) (i : Fin 5) (elem : SndMixerElem) (helem : s.melems e = some elem) :
    Within s
      { s with
        melems := Function.update s.melems e (some (elem.clear_slot i))
        items := Function.update s.items it none } where
  hctl := rfl
  helems := rfl
  next := le_refl _
  melem e' new hnew := by
    rcases stored_eq_some.mp hnew with ⟨rfl, rfl⟩ | ⟨-, hold⟩
    · exact ⟨elem, helem, clear_slot_name elem i⟩
    · exact ⟨new, hold, rfl⟩
  item it' new hnew := ⟨new, (freed_eq_some.mp hnew).2, rfl, rfl⟩

theorem within_remove_mixer_elem (s : SndMixer) (e : Nat) : Within s (remove_mixer_elem s e) where
  hctl := rfl
  helems := rfl
  next := le_refl _
  melem _ new hnew := ⟨new, (freed_eq_some.mp hnew).2, rfl⟩
  item _ new hnew := ⟨new, hnew, rfl, rfl⟩

theorem within_sort (w : World) (s : SndMixer) : Within s (snd_mixer_sort w s) :=
  ⟨rfl, rfl, le_refl _, fun _ new h => ⟨new, h, rfl⟩, fun _ new h => ⟨new, h, rfl, rfl⟩⟩

theorem remove_within (s t : SndMixer) (h : Nat) (remove_mixer : Bool) (err : Int)
    (hremove : remove_simple_element s h remove_mixer = some (err, t)) : Within s t := by
  unfold remove_simple_element at hremove
  obtain ⟨e, -, hremove⟩ := Option.bind_eq_some_iff.mp hremove
  obtain ⟨elem, helem, hremove⟩ := Option.bind_eq_some_iff.mp hremove
  obtain ⟨found, -, hremove⟩ := Option.map_eq_some_iff.mp hremove
  cases found with
  | none =>
    obtain ⟨-, rfl⟩ := Prod.mk.inj hremove
    exact Within.refl s
  | some p =>
    have hclear := within_clear s e p.2 p.1 elem helem
    dsimp only at hremove
    split at hremove
    · obtain ⟨-, rfl⟩ := Prod.mk.inj hremove
      exact hclear
    · split at hremove
      · obtain ⟨-, rfl⟩ := Prod.mk.inj hremove
        exact hclear
      · obtain ⟨-, rfl⟩ := Prod.mk.inj hremove
        exact hclear.trans (within_remove_mixer_elem _ e)

theorem update_within (w : World) (s t : SndMixer) (h e : Nat) (changed : Int)
    (hupdate : update_simple_element w s h e = some (changed, t)) : Within s t := by
  unfold update_simple_element at hupdate
  obtain ⟨elem, -, hupdate⟩ := Option.bind_eq_some_iff.mp hupdate
  obtain ⟨found, -, hupdate⟩ := Option.bind_eq_some_iff.mp hupdate
  cases found with
  | none =>
    obtain ⟨-, rfl⟩ := Prod.mk.inj (Option.some.inj hupdate)
    exact Within.refl s
  | some p =>
    obtain ⟨item, hitem, hupdate⟩ := Option.map_eq_some_iff.mp hupdate
    split at hupdate
    · obtain ⟨-, rfl⟩ := Prod.mk.inj hupdate
      exact Within.refl s
    · obtain ⟨-, rfl⟩ := Prod.mk.inj hupdate
      refine ⟨rfl, rfl, le_refl _, fun _ new h => ⟨new, h, rfl⟩, fun it new hnew => ?_⟩
      rcases stored_eq_some.mp hnew with ⟨rfl, rfl⟩ | ⟨-, hold⟩
      · exact ⟨item, hitem, rfl, rfl⟩
      · exact ⟨new, hold, rfl, rfl⟩

theorem handle_value_within (w : World) (s t : SndMixer) (h e : Nat) (err : Int)
    (hhandle : handle_value w s h e = some (err, t)) : Within s t := by
  unfold handle_value at hhandle
  obtain ⟨p, hupdate, hhandle⟩ := Option.map_eq_some_iff.mp hhandle
  have hwithin := update_within w s p.2 h e p.1 hupdate
  dsimp only at hhandle
  split at hhandle
  · obtain ⟨-, rfl⟩ := Prod.mk.inj hhandle
    exact hwithin
  · obtain ⟨-, rfl⟩ := Prod.mk.inj hhandle
    exact hwithin

/-! ## The registration -/

theorem find_elem_name (s : SndMixer) (name : List Char) (type : Fin 5) (l : List Nat) (index : BitVec 32) (e : Nat)
    (h : find_elem s name type l index = some (.inl e)) : ∃ elem, s.melems e = some elem ∧ elem.name = name := by
  induction l generalizing index with
  | nil => cases h
  | cons e' l ih =>
    unfold find_elem at h
    obtain ⟨elem, helem, h⟩ := Option.bind_eq_some_iff.mp h
    dsimp only at h
    split at h
    · rename_i hname
      split at h
      · exact ih _ h
      · obtain rfl := Sum.inl.inj (Option.some.inj h)
        exact ⟨elem, helem, hname⟩
    · exact ih _ h

/-- The control `h` gets the new item of `kind` in the mixer element `e`, an old one or a new one. -/
structure Files (w : World) (h : Nat) (he : SndHctlElem) (s t : SndMixer) (kind : Kind) (e : Nat)
    (elem : SndMixerElem) : Prop where
  hctl : t.hctl = s.hctl
  helems : t.helems = Function.update s.helems h (some { he with private_data := some e })
  melems : t.melems = Function.update s.melems e (some elem)
  items : t.items = Function.update s.items s.next (some (made_item w h kind))
  next : s.next < t.next
  bound : e < t.next
  name : (∃ old, s.melems e = some old ∧ old.name = (decode_name he.id.name).name ∧ elem.name = old.name) ∨
    (s.next ≤ e ∧ elem.name = filing_name he.id)

/-- All that can come of a registration. -/
theorem add_cases (w : World) (s t : SndMixer) (h : Nat) (he : SndHctlElem) (err : Int)
    (hlt : ∀ e, (s.melems e).isSome → e < s.next) (hhe : s.helems h = some he)
    (hadd : add_simple_element w s h = some (err, t)) :
    (Within s t ∧ (creates w (decode_name he.id.name).dir = none ∨ ¬ w.alloc_elem)) ∨
      ∃ caps first kind e elem, creates w (decode_name he.id.name).dir = some (caps, first, kind) ∧
        Files w h he s t kind e elem := by
  cases hcreates : creates w (decode_name he.id.name).dir with
  | none =>
    obtain ⟨_, hnone⟩ := add_none w s h he hhe hcreates
    obtain ⟨-, rfl⟩ := Prod.mk.inj (Option.some.inj (hadd.symm.trans hnone))
    exact Or.inl ⟨Within.refl _, Or.inl rfl⟩
  | some found =>
    obtain ⟨caps, first, kind⟩ := found
    obtain ⟨hinfo, htype, hitem⟩ := creates_some w _ caps first kind hcreates
    unfold add_simple_element at hadd
    simp only [hhe, hinfo, htype, hitem, Option.bind_some, ne_eq, not_true_eq_false, if_false] at hadd
    obtain ⟨place, hplace, hadd⟩ := Option.bind_eq_some_iff.mp hadd
    cases place with
    | inl e =>
      obtain ⟨old, hold, hname⟩ := find_elem_name _ _ _ _ _ _ hplace
      obtain ⟨elem, helem, hadd⟩ := Option.map_eq_some_iff.mp hadd
      obtain rfl : old = elem := Option.some.inj (hold.symm.trans helem)
      obtain ⟨-, rfl⟩ := Prod.mk.inj hadd
      have hbound : e < s.next := hlt e (by rw [show s.melems e = some old from hold]; rfl)
      refine Or.inr ⟨caps, first, kind, e, old.add_cap caps first s.next w.count, rfl, ?_⟩
      refine ⟨rfl, ?_, rfl, rfl, Nat.lt_succ_self _, Nat.lt_succ_of_lt hbound, ?_⟩
      · simp [add_cap, made_item, hhe]
      · exact Or.inl ⟨old, hold, hname, add_cap_name _ _ _ _ _⟩
    | inr index =>
      dsimp only at hadd
      split at hadd
      · rename_i halloc
        obtain ⟨-, rfl⟩ := Prod.mk.inj (Option.some.inj hadd)
        refine Or.inl ⟨?_, Or.inr halloc⟩
        refine ⟨rfl, rfl, Nat.le_succ _, fun _ new hnew => ⟨new, hnew, rfl⟩, fun it new hnew => ?_⟩
        dsimp only at hnew
        rw [Function.update_idem] at hnew
        exact ⟨new, (freed_eq_some.mp hnew).2, rfl, rfl⟩
      · refine Or.inr ⟨caps, first, kind, s.next + 1,
          (new_mixer_elem (decode_name he.id.name).name index).add_cap caps first s.next w.count, rfl, ?_⟩
        have hlt : s.next < s.next + 1 + 1 := Nat.lt_succ_of_lt (Nat.lt_succ_self _)
        unfold add_mixer_elem at hadd
        split at hadd
        · obtain ⟨-, rfl⟩ := Prod.mk.inj (Option.some.inj hadd)
          refine ⟨rfl, ?_, rfl, rfl, hlt, Nat.lt_succ_self _, Or.inr ⟨Nat.le_succ _, ?_⟩⟩
          · simp [add_cap, made_item, hhe]
          · exact add_cap_name _ _ _ _ _
        · obtain ⟨-, rfl⟩ := Prod.mk.inj (Option.some.inj hadd)
          refine ⟨rfl, ?_, rfl, rfl, hlt, Nat.lt_succ_self _, Or.inr ⟨Nat.le_succ _, ?_⟩⟩
          · simp [add_cap, made_item, hhe]
          · exact add_cap_name _ _ _ _ _

section Files

variable {type : SndCtlElemId → CtlType} {w : World} {s t : SndMixer} {h e : Nat} {he : SndHctlElem} {kind : Kind}
  {elem : SndMixerElem} (hfiles : Files w h he s t kind e elem) (hhe : s.helems h = some he)

include hfiles

theorem Files.helem (h' : Nat) (he' : SndHctlElem) (hhe' : t.helems h' = some he') :
    (h' = h ∧ he'.id = he.id ∧ he'.private_data = some e) ∨ (h' ≠ h ∧ s.helems h' = some he') := by
  rw [hfiles.helems] at hhe'
  rcases stored_eq_some.mp hhe' with ⟨rfl, rfl⟩ | hold
  · exact Or.inl ⟨rfl, rfl, rfl⟩
  · exact Or.inr hold

include hhe

theorem Files.sameIds : SameIds s t where
  hctl := hfiles.hctl
  id h' := by
    rw [hfiles.helems]
    rcases eq_or_ne h' h with rfl | hne
    · rw [Function.update_self, hhe]
      rfl
    · rw [Function.update_of_ne hne]

/-- The mixer has been told of the control that is registered. -/
theorem Files.labelled {untold : List Nat} (hs : Labelled type s (h :: untold))
    (hshown : shown type he.id = some kind) : Labelled type t untold where
  helem_lt h' hsome := by
    obtain ⟨he', hhe'⟩ := Option.isSome_iff_exists.mp hsome
    refine lt_trans (hs.helem_lt h' ?_) hfiles.next
    rcases hfiles.helem h' he' hhe' with ⟨rfl, -, -⟩ | ⟨-, hold⟩
    · rw [hhe]
      rfl
    · rw [hold]
      rfl
  melem_lt e' hsome := by
    obtain ⟨new, hnew⟩ := Option.isSome_iff_exists.mp hsome
    rw [hfiles.melems] at hnew
    rcases stored_eq_some.mp hnew with ⟨rfl, -⟩ | ⟨-, hold⟩
    · exact hfiles.bound
    · refine lt_trans (hs.melem_lt e' ?_) hfiles.next
      rw [hold]
      rfl
  short e' new hnew := by
    rw [hfiles.melems] at hnew
    rcases stored_eq_some.mp hnew with ⟨rfl, rfl⟩ | ⟨-, hold⟩
    · rcases hfiles.name with ⟨old, hold, -, hname⟩ | ⟨-, hname⟩
      · rw [hname]
        exact hs.short e' old hold
      · rw [hname]
        exact List.length_take_le 59 _
    · exact hs.short e' new hold
  data_lt h' he' e' hhe' hdata := by
    rcases hfiles.helem h' he' hhe' with ⟨-, -, hnew⟩ | ⟨-, hold⟩
    · obtain rfl := Option.some.inj (hnew.symm.trans hdata)
      exact hfiles.bound
    · exact lt_trans (hs.data_lt h' he' e' hold hdata) hfiles.next
  item_lt it item hitem := by
    rw [hfiles.items] at hitem
    refine lt_trans ?_ hfiles.next
    rcases stored_eq_some.mp hitem with ⟨-, rfl⟩ | ⟨-, hold⟩
    · exact hs.helem_lt h (by rw [hhe]; rfl)
    · exact hs.item_lt it item hold
  named h' he' e' new hhe' hdata hnew := by
    rw [hfiles.melems] at hnew
    rcases hfiles.helem h' he' hhe' with ⟨rfl, hid, hthis⟩ | ⟨hne, hold⟩
    · obtain rfl := Option.some.inj (hthis.symm.trans hdata)
      obtain rfl : elem = new := by simpa using hnew
      rw [hid]
      rcases hfiles.name with ⟨old, holde, hname, heq⟩ | ⟨-, heq⟩
      · have hshort := hs.short _ old holde
        rw [heq, filing_name, List.take_of_length_le (hname ▸ hshort), hname]
      · exact heq
    · rcases stored_eq_some.mp hnew with ⟨rfl, rfl⟩ | ⟨-, holde⟩
      · rcases hfiles.name with ⟨old, holde, -, heq⟩ | ⟨hge, -⟩
        · rw [heq]
          exact hs.named h' he' e' old hold hdata holde
        · exact absurd (hs.data_lt h' he' e' hold hdata) (Nat.not_lt.mpr hge)
      · exact hs.named h' he' e' new hold hdata holde
  kind it item he' hitem hhe' := by
    rw [hfiles.items] at hitem
    rcases stored_eq_some.mp hitem with ⟨-, rfl⟩ | ⟨-, hold⟩
    · rcases hfiles.helem _ he' hhe' with ⟨-, hid, -⟩ | ⟨hne, -⟩
      · rw [hid]
        exact hshown
      · exact absurd rfl hne
    · rcases hfiles.helem _ he' hhe' with ⟨heq, hid, -⟩ | ⟨-, hhold⟩
      · rw [hid]
        exact hs.kind it item he hold (by rw [heq, hhe])
      · exact hs.kind it item he' hold hhold
  all h' he' hhe' hsome hne := by
    rcases hfiles.helem h' he' hhe' with ⟨-, -, hdata⟩ | ⟨hne', hold⟩
    · rw [hdata]
      rfl
    · exact hs.all h' he' hold hsome (List.not_mem_cons_of_ne_of_not_mem hne' hne)

end Files

/-! ## The callbacks -/

/-- The ioctls for a control work and tell its type, and there is memory. -/
structure Serves (type : SndCtlElemId → CtlType) (w : World) (id : SndCtlElemId) : Prop where
  info : w.info_errno = 0
  read : w.read_errno = 0
  item : w.alloc_item
  elem : w.alloc_elem
  type : w.type = type id

theorem Serves.creates {type : SndCtlElemId → CtlType} {w : World} {id : SndCtlElemId} (h : Serves type w id) :
    creates w (decode_name id.name).dir = item_type (decode_name id.name).dir (type id) := by
  rw [Mixer.creates, if_pos ⟨h.info, h.read, h.item⟩, h.type]

theorem shown_of_mixer (type : SndCtlElemId → CtlType) (id : SndCtlElemId) (h : id.iface = SND_CTL_ELEM_IFACE_MIXER) :
    shown type id = (item_type (decode_name id.name).dir (type id)).map fun p => p.2.2 := if_pos h

theorem iface_of_shown {type : SndCtlElemId → CtlType} {id : SndCtlElemId} {kind : Kind}
    (h : shown type id = some kind) : id.iface = SND_CTL_ELEM_IFACE_MIXER := by
  unfold shown at h
  split at h
  · assumption
  · cases h

/-- With the registration behind it the control is filed if it is to be, and the other ones are as they were. -/
theorem add_labelled {type : SndCtlElemId → CtlType} {w : World} {s t : SndMixer} {h : Nat} {he : SndHctlElem}
    {err : Int} {untold : List Nat} (hs : Labelled type s (h :: untold)) (hhe : s.helems h = some he)
    (hiface : he.id.iface = SND_CTL_ELEM_IFACE_MIXER) (hserves : Serves type w he.id)
    (hadd : add_simple_element w s h = some (err, t)) :
    Labelled type t untold ∧ SameIds s t ∧ ∀ h', h' ≠ h → t.helems h' = s.helems h' := by
  have hshown := shown_of_mixer type he.id hiface
  rw [← hserves.creates] at hshown
  rcases add_cases w s t h he err hs.melem_lt hhe hadd with
    ⟨hwithin, hnot⟩ | ⟨caps, first, kind, e, elem, hcreates, hfiles⟩
  · refine ⟨{ hwithin.labelled hs with all := fun h' he' hhe' hsome hmem => ?_ }, hwithin.sameIds, fun h' _ => ?_⟩
    · rcases eq_or_ne h' h with rfl | hne
      · rw [hwithin.helems, hhe] at hhe'
        obtain rfl := Option.some.inj hhe'
        rcases hnot with hnone | halloc
        · rw [hshown, hnone] at hsome
          cases hsome
        · exact absurd hserves.elem halloc
      · exact (hwithin.labelled hs).all h' he' hhe' hsome (List.not_mem_cons_of_ne_of_not_mem hne hmem)
    · rw [hwithin.helems]
  · rw [hcreates] at hshown
    refine ⟨hfiles.labelled hhe hs hshown, hfiles.sameIds hhe, fun h' hne => ?_⟩
    rw [hfiles.helems, Function.update_of_ne hne]

/-- Neither the ids nor where anything is filed depends on the callbacks. -/
theorem callback_labelled {type : SndCtlElemId → CtlType} {s : SndMixer} {untold : List Nat}
    (hs : Labelled type s untold) (h : Nat) (he : SndHctlElem) (hhe : s.helems h = some he) :
    Labelled type { s with helems := Function.update s.helems h (some { he with callback := true }) } untold ∧
      SameIds s { s with helems := Function.update s.helems h (some { he with callback := true }) } := by
  have hold (h' : Nat) (he' : SndHctlElem)
      (hhe' : Function.update s.helems h (some { he with callback := true }) h' = some he') :
      ∃ old, s.helems h' = some old ∧ he'.id = old.id ∧ he'.private_data = old.private_data := by
    rcases stored_eq_some.mp hhe' with ⟨rfl, rfl⟩ | ⟨-, hold⟩
    · exact ⟨he, hhe, rfl, rfl⟩
    · exact ⟨he', hold, rfl, rfl⟩
  constructor
  · refine { hs with helem_lt := ?_, data_lt := ?_, named := ?_, kind := ?_, all := ?_ }
    · intro h' hsome
      obtain ⟨he', hhe'⟩ := Option.isSome_iff_exists.mp hsome
      obtain ⟨old, hhold, -⟩ := hold h' he' hhe'
      exact hs.helem_lt h' (by rw [hhold]; rfl)
    · intro h' he' e hhe' hdata
      obtain ⟨old, hhold, -, heq⟩ := hold h' he' hhe'
      exact hs.data_lt h' old e hhold (heq.symm.trans hdata)
    · intro h' he' e elem hhe' hdata helem
      obtain ⟨old, hhold, hid, heq⟩ := hold h' he' hhe'
      rw [hid]
      exact hs.named h' old e elem hhold (heq.symm.trans hdata) helem
    · intro it item he' hitem hhe'
      obtain ⟨old, hhold, hid, -⟩ := hold _ he' hhe'
      rw [hid]
      exact hs.kind it item old hitem hhold
    · intro h' he' hhe' hsome hne
      obtain ⟨old, hhold, hid, heq⟩ := hold h' he' hhe'
      rw [heq]
      exact hs.all h' old hhold (hid ▸ hsome) hne
  · refine ⟨rfl, fun h' => ?_⟩
    rcases eq_or_ne h' h with rfl | hne
    · dsimp only
      rw [Function.update_self, hhe]
      rfl
    · dsimp only
      rw [Function.update_of_ne hne]

theorem throw_add_labelled {type : SndCtlElemId → CtlType} {w : World} {s t : SndMixer} {h : Nat} {he : SndHctlElem}
    {err : Int} {untold : List Nat} (hs : Labelled type s (h :: untold)) (hhe : s.helems h = some he)
    (hserves : he.id.iface = SND_CTL_ELEM_IFACE_MIXER → Serves type w he.id)
    (hhandle : hctl_event_handler w s h = some (err, t)) :
    Labelled type t untold ∧ SameIds s t ∧ ∀ h', h' ≠ h → t.helems h' = s.helems h' := by
  unfold hctl_event_handler at hhandle
  rw [hhe, Option.bind_some] at hhandle
  split at hhandle
  · rename_i hiface
    obtain ⟨-, rfl⟩ := Prod.mk.inj (Option.some.inj hhandle)
    refine ⟨{ hs with all := fun h' he' hhe' hsome hmem => ?_ }, SameIds.refl s, fun _ _ => rfl⟩
    obtain ⟨kind, hkind⟩ := Option.isSome_iff_exists.mp hsome
    refine hs.all h' he' hhe' hsome (List.not_mem_cons_of_ne_of_not_mem ?_ hmem)
    rintro rfl
    obtain rfl := Option.some.inj (hhe.symm.trans hhe')
    exact hiface (iface_of_shown hkind)
  · rename_i hiface
    obtain ⟨hcalled, hids⟩ := callback_labelled hs h he hhe
    obtain ⟨hlabelled, hids', hframe⟩ := add_labelled hcalled (Function.update_self _ _ _) (not_not.mp hiface)
      (hserves (not_not.mp hiface)) hhandle
    refine ⟨hlabelled, hids.trans hids', fun h' hne => ?_⟩
    rw [hframe h' hne]
    exact Function.update_of_ne hne _ _

theorem handle_info_labelled {type : SndCtlElemId → CtlType} {w : World} {s : SndMixer} {h e : Nat} {he : SndHctlElem}
    {p : Int × SndMixer} {untold : List Nat} (hs : Labelled type s untold) (hhe : s.helems h = some he)
    (hiface : he.id.iface = SND_CTL_ELEM_IFACE_MIXER) (hserves : Serves type w he.id)
    (hhandle : handle_info w s h e = some p) : Labelled type p.2 untold ∧ SameIds s p.2 := by
  obtain ⟨err, t⟩ := p
  unfold handle_info at hhandle
  obtain ⟨p, hremove, hhandle⟩ := Option.bind_eq_some_iff.mp hhandle
  obtain ⟨q, hadd, hhandle⟩ := Option.bind_eq_some_iff.mp hhandle
  obtain ⟨elem, -, hhandle⟩ := Option.map_eq_some_iff.mp hhandle
  have hwithin := remove_within s p.2 h false p.1 hremove
  have hhe' : p.2.helems h = some he := by rw [hwithin.helems, hhe]
  obtain ⟨hlabelled, hids, -⟩ := add_labelled ((hwithin.labelled hs).told h) hhe' hiface hserves hadd
  have hids := hwithin.sameIds.trans hids
  dsimp only at hhandle
  split at hhandle
  · obtain ⟨-, rfl⟩ := Prod.mk.inj hhandle
    exact ⟨hlabelled, hids⟩
  · obtain ⟨-, rfl⟩ := Prod.mk.inj hhandle
    have hsort := within_sort w q.2
    exact ⟨hsort.labelled hlabelled, hids.trans hsort.sameIds⟩

theorem throw_elem_labelled {type : SndCtlElemId → CtlType} {w : World} {s : SndMixer} {h : Nat} {he : SndHctlElem}
    {mask : BitVec 32} {p : Int × SndMixer} {untold : List Nat} (hs : Labelled type s untold)
    (hhe : s.helems h = some he)
    (hserves : mask ≠ SND_CTL_EVENT_MASK_REMOVE → mask &&& SND_CTL_EVENT_MASK_INFO ≠ 0#32 → he.private_data.isSome →
      he.id.iface = SND_CTL_ELEM_IFACE_MIXER ∧ Serves type w he.id)
    (hhandle : hctl_elem_event_handler w s h mask = some p) : Labelled type p.2 untold ∧ SameIds s p.2 := by
  obtain ⟨err, t⟩ := p
  unfold hctl_elem_event_handler at hhandle
  rw [hhe, Option.bind_some] at hhandle
  cases hdata : he.private_data with
  | none =>
    rw [hdata] at hhandle
    obtain ⟨-, rfl⟩ := Prod.mk.inj (Option.some.inj hhandle)
    exact ⟨hs, SameIds.refl s⟩
  | some e =>
    rw [hdata] at hhandle
    obtain ⟨elem, -, hhandle⟩ := Option.bind_eq_some_iff.mp hhandle
    split at hhandle
    · dsimp only at hhandle
      split at hhandle
      · obtain ⟨-, rfl⟩ := Prod.mk.inj (Option.some.inj hhandle)
        exact ⟨hs, SameIds.refl s⟩
      · obtain ⟨p, hremove, heq⟩ := Option.map_eq_some_iff.mp hhandle
        have hwithin := remove_within s p.2 h true p.1 hremove
        obtain rfl : p.2 = t := (Prod.mk.inj heq).2
        exact ⟨hwithin.labelled hs, hwithin.sameIds⟩
    · rename_i hremove
      obtain ⟨p, hinfo, hhandle⟩ := Option.bind_eq_some_iff.mp hhandle
      have hmid : Labelled type p.2 untold ∧ SameIds s p.2 := by
        split at hinfo
        · rename_i hmask
          obtain ⟨hiface, hserves⟩ := hserves hremove hmask (by rw [hdata]; rfl)
          exact handle_info_labelled hs hhe hiface hserves hinfo
        · obtain rfl := Option.some.inj hinfo
          exact ⟨hs, SameIds.refl s⟩
      dsimp only at hhandle
      split at hhandle
      · obtain ⟨-, rfl⟩ := Prod.mk.inj (Option.some.inj hhandle)
        exact hmid
      · split at hhandle
        · have hwithin := handle_value_within w p.2 t h e err hhandle
          exact ⟨hwithin.labelled hmid.1, hmid.2.trans hwithin.sameIds⟩
        · obtain ⟨-, rfl⟩ := Prod.mk.inj (Option.some.inj hhandle)
          exact hmid

end Salsa.Mixer
