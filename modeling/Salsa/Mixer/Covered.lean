import Salsa.Mixer.Ownership

/-!
# Items put over others

A global item takes the second slot from whatever is there. The control that is covered so keeps the
mixer element and has no item any more, and a mixer element that the list has no room for is lost.
Every slot still holds the item of a registered control, which is enough for caps and channels.
-/

namespace Salsa.Mixer

open Cells Ctl Run
open Hctl (SND_CTL_EVENT_MASK_REMOVE SND_CTL_EVENT_MASK_VALUE SND_CTL_EVENT_MASK_INFO)

/-- What registrations keep whatever is in the second slot; the mixer element `y` has no item yet. -/
structure Covered (s : SndMixer) (y : Option Nat) : Prop where
  hctl_nodup : s.hctl.Nodup
  hctl : ∀ h, h ∈ s.hctl ↔ (s.helems h).isSome
  filled : Filled s none
  whole : Whole s
  pelems_nodup : s.pelems.Nodup
  pelems : ∀ e ∈ s.pelems, (s.melems e).isSome
  data : ∀ h he e, s.helems h = some he → he.private_data = some e → (s.melems e).isSome
  used : Used s y

/-- Nothing is covered, and every mixer element is listed. -/
def Bare (s : SndMixer) : Prop := Owning s none ∧ ∀ e elem, s.melems e = some elem → e ∈ s.pelems

theorem Inv.covered (s : SndMixer) (hs : Inv s) : Covered s none where
  hctl_nodup := hs.hctl_nodup
  hctl := hs.hctl
  filled := hs.held.toFilled
  whole := hs.held.whole
  pelems_nodup := hs.held.pelems_nodup
  pelems := fun e => (hs.held.pelems e).mp
  data := by
    intro h he e hhe hdata
    obtain ⟨elem, -, -, helem, -⟩ := hs.held.owner h he e hhe hdata (by simp)
    rw [helem]
    rfl
  used := hs.used

theorem Inv.bare (s : SndMixer) (hs : Inv s) : Bare s := by
  refine ⟨hs.held.owner, fun e elem helem => (hs.held.pelems e).mpr ?_⟩
  rw [helem]
  rfl

theorem Covered.inv (s : SndMixer) (hs : Covered s none) (hbare : Bare s) : Inv s where
  hctl_nodup := hs.hctl_nodup
  hctl := hs.hctl
  used := hs.used
  held :=
    { hs.filled with
      pelems_nodup := hs.pelems_nodup
      pelems := by
        intro e
        refine ⟨hs.pelems e, fun hlive => ?_⟩
        obtain ⟨elem, helem⟩ := Option.isSome_iff_exists.mp hlive
        exact hbare.2 e elem helem
      owner := hbare.1 }

theorem Covered.congr (s t : SndMixer) (y : Option Nat) (hs : Covered s y) (hhctl : t.hctl = s.hctl)
    (hhelems : t.helems = s.helems) (hmelems : t.melems = s.melems) (hitems : t.items = s.items)
    (hpelems : t.pelems = s.pelems) (hnext : s.next ≤ t.next) : Covered t y where
  hctl_nodup := hhctl ▸ hs.hctl_nodup
  hctl := by
    rw [hhctl, hhelems]
    exact hs.hctl
  filled := hs.filled.congr s t none hhelems hmelems hitems hnext
  whole := by
    unfold Whole
    rw [hhelems, hmelems, hitems]
    exact hs.whole
  pelems_nodup := hpelems ▸ hs.pelems_nodup
  pelems := by
    rw [hpelems, hmelems]
    exact hs.pelems
  data := by
    rw [hhelems, hmelems]
    exact hs.data
  used := by
    unfold Used
    rw [hmelems]
    exact hs.used

/-! ## An item in its place -/

/-- With the first slot free, what a global item is put over fills no slot but the second. -/
theorem slots_covered (dir : Direction) (ctl : CtlType) (caps : BitVec 32) (type : Fin 5) (kind : Kind)
    (htype : item_type dir ctl = some (caps, type, kind)) (dir' : Direction) (kind' : Kind) (i : Fin 5)
    (hi : i ∈ slots dir kind) (hi' : i ∈ slots dir' kind') (hfree : type ∉ slots dir' kind') :
    caps_of dir kind &&& caps_of dir' kind' = caps_of dir' kind' ∧
      ∀ j ∈ slots dir' kind', j ∈ slots dir kind := by
  revert i
  cases ctl <;> cases dir <;> cases htype <;> cases dir' <;> cases kind' <;> revert hfree <;> decide

section Placed

variable (t : SndMixer) (h e it : Nat) (he : SndHctlElem) (item : SndSelemItem)
  (elem elem' : SndMixerElem) (ht : Covered t (some e)) (hhe : t.helems h = some he)
  (hcallback : he.callback) (hdata : he.private_data = none) (helem : t.melems e = some elem)
  (hfresh : t.items it = none) (hof : item.helem = h)
  (hitems : ∀ i, elem'.items i = if i ∈ slots_of he item then some it else elem.items i)
  (hover : ∀ i it', elem.items i = some it' → i ∈ slots_of he item → ∀ j, elem.items j = some it' →
    j ∈ slots_of he item)

include ht hhe hdata helem hfresh hof hitems hover in
theorem whole_placed : Whole (placed t h e it he item elem') := by
  have hfilled := (filled_of_unplaced t h he hhe hdata).mp ht.filled
  have hold (e' : Nat) (old : SndMixerElem) (i : Fin 5) (it' : Nat) (item' : SndSelemItem) (he' : SndHctlElem)
      (hmelem : t.melems e' = some old) (hslot : old.items i = some it')
      (hitem' : (placed t h e it he item elem').items it' = some item')
      (hhe' : (placed t h e it he item elem').helems item'.helem = some he') :
      ∀ j ∈ slots_of he' item', old.items j = some it' := by
    obtain ⟨own, heown, hown, hheown, -⟩ := hfilled.slot e' old i it' hmelem hslot
    rw [item_placed t h e it he item elem' hfresh it' own hown, Option.some.injEq] at hitem'
    subst hitem'
    rw [control_placed t h e it he item elem' hfilled it' own hown] at hhe'
    exact ht.whole e' old i it' own he' hmelem hslot hown hhe'
  intro e' new i it' item' he' hnew hslot hitem' hhe' j hj
  rcases (placed_melem t h e it he item elem' _ _).mp hnew with ⟨rfl, rfl⟩ | ⟨-, hmelem⟩
  · rw [hitems i] at hslot
    rw [hitems j]
    split at hslot
    · obtain rfl := Option.some.inj hslot
      obtain rfl := Option.some.inj ((placed_self t h e' it he item elem').symm.trans hitem')
      rw [placed_control t h e' it he item elem' hof, Option.some.injEq] at hhe'
      rw [← hhe'] at hj
      exact if_pos hj
    · rename_i hi
      have hheld := hold e' elem i it' item' he' helem hslot hitem' hhe' j hj
      rw [if_neg fun hmem => hi (hover j it' hheld hmem i hslot)]
      exact hheld
  · exact hold e' new i it' item' he' hmelem hslot hitem' hhe' j hj

include ht hhe hcallback hdata helem hfresh hof hitems hover in
theorem covered_placed (hit : it < t.next) (hcaps : ∀ it', HasCaps elem' it') :
    Covered (placed t h e it he item elem') none where
  hctl_nodup := ht.hctl_nodup
  hctl := by
    intro h'
    show h' ∈ t.hctl ↔ (Function.update t.helems h _ h').isSome
    rw [ht.hctl h']
    rcases eq_or_ne h' h with rfl | hne
    · rw [Function.update_self, hhe]
      simp
    · rw [Function.update_of_ne hne]
  filled := filled_placed t h e it he item elem elem' ((filled_of_unplaced t h he hhe hdata).mp ht.filled) hhe
    hcallback helem hfresh hof hitems hit hcaps
  whole := whole_placed t h e it he item elem elem' ht hhe hdata helem hfresh hof hitems hover
  pelems_nodup := ht.pelems_nodup
  pelems := by
    intro e' he'
    rw [placed_isSome t h e it he item elem elem' helem]
    exact ht.pelems e' he'
  data := by
    intro h' he' e' hhe' hdata'
    rw [placed_isSome t h e it he item elem elem' helem]
    rcases (placed_helem t h e it he item elem' _ _).mp hhe' with ⟨-, rfl⟩ | ⟨-, hold⟩
    · obtain rfl : e = e' := Option.some.inj hdata'
      rw [helem]
      rfl
    · exact ht.data h' he' e' hold hdata'
  used := used_placed t h e it he item elem elem' hitems ht.used

end Placed

theorem covered_extended (t : SndMixer) (e : Nat) (elem : SndMixerElem) (pelems : List Nat) (alloc next : Nat)
    (hempty : ∀ i, elem.items i = none) (hfresh : t.melems e = none) (ht : Covered t none)
    (hnodup : pelems.Nodup) (hsub : ∀ e' ∈ pelems, e' ∈ t.pelems ∨ e' = e) (hlt : e < next)
    (hnext : t.next ≤ next) : Covered (extended t e elem pelems alloc next) (some e) where
  hctl_nodup := ht.hctl_nodup
  hctl := ht.hctl
  filled := filled_extended t none e elem pelems alloc next hempty ht.filled hlt hnext
  whole := by
    intro e' elem' i it item he helem' hslot hitem hhe
    rcases stored_eq_some.mp helem' with ⟨-, rfl⟩ | ⟨-, helem'⟩
    · rw [hempty i] at hslot
      cases hslot
    · exact ht.whole e' elem' i it item he helem' hslot hitem hhe
  pelems_nodup := hnodup
  pelems := by
    intro e' he'
    rcases hsub e' he' with hold | rfl
    · obtain ⟨old, hmelem⟩ := Option.isSome_iff_exists.mp (ht.pelems e' hold)
      rw [show (extended t e elem pelems alloc next).melems e' = some old from stored_of_free hfresh hmelem]
      rfl
    · unfold extended
      dsimp only
      rw [Function.update_self]
      rfl
  data := by
    intro h he e' hhe hdata
    obtain ⟨old, hmelem⟩ := Option.isSome_iff_exists.mp (ht.data h he e' hhe hdata)
    rw [show (extended t e elem pelems alloc next).melems e' = some old from stored_of_free hfresh hmelem]
    rfl
  used := used_extended t e elem pelems alloc next ht.used

/-! ## A new control -/

/-- The channels of what a new control is put over are not missed. -/
def AddsSpare (w : World) (s : SndMixer) (id : SndCtlElemId) : Prop :=
  match creates w (decode_name id.name).dir with
  | none => True
  | some (_, type, kind) =>
    match place s s.next (decode_name id.name).name type with
    | none => True
    | some e => ∀ elem, s.melems e = some elem → Spares s elem (decode_name id.name).dir kind w.count

section Add

variable (w : World) (t : SndMixer) (h : Nat) (he : SndHctlElem) (caps : BitVec 32) (type : Fin 5)
  (kind : Kind) (hhe : t.helems h = some he) (hcallback : he.callback) (hdata : he.private_data = none)
  (hsome : creates w (decode_name he.id.name).dir = some (caps, type, kind))

include hhe hcallback hdata hsome in
theorem placed_covered (s : SndMixer) (e it : Nat) (elem : SndMixerElem) (hs : Covered s (some e))
    (hhelems : s.helems = t.helems) (helem : s.melems e = some elem) (hfresh : s.items it = none)
    (hit : it < s.next) (hfree : elem.items type = none) :
    Covered (placed s h e it he (made_item w h kind) (elem.add_cap caps type it w.count)) none ∧
      (Described s (some e) → FitsWith s elem (decode_name he.id.name).dir kind w.count →
        Spares s elem (decode_name he.id.name).dir kind w.count →
        Described (placed s h e it he (made_item w h kind) (elem.add_cap caps type it w.count)) none) := by
  obtain ⟨-, htype, -⟩ := creates_some w _ caps type kind hsome
  have hhe' : s.helems h = some he := by rw [hhelems, hhe]
  have hitems (i : Fin 5) : (elem.add_cap caps type it w.count).items i =
      if i ∈ slots_of he (made_item w h kind) then some it else elem.items i :=
    add_cap_items elem _ _ caps type kind it w.count htype i
  have hcaps := hasCaps_added w he caps type kind hsome s _ hs.filled e it elem helem hfresh
  -- Whatever is covered does not fill the first slot, which is free.
  have hcovers (i : Fin 5) (it' : Nat) (hslot : elem.items i = some it')
      (hi : i ∈ slots (decode_name he.id.name).dir kind) :
      ∃ desc, slot_desc s (some it') = some desc ∧
        caps_of (decode_name he.id.name).dir kind &&& caps_of desc.dir desc.kind = caps_of desc.dir desc.kind ∧
        ∀ j, elem.items j = some it' → j ∈ slots (decode_name he.id.name).dir kind := by
    obtain ⟨desc, hdesc, hslots⟩ := desc_slots s e elem hs.filled hs.whole helem i it' hslot
    have hoff : type ∉ slots desc.dir desc.kind := by
      rw [← hslots type, hfree]
      simp
    obtain ⟨hand, hsub⟩ := slots_covered _ _ caps type kind htype desc.dir desc.kind i hi ((hslots i).mp hslot) hoff
    exact ⟨desc, hdesc, hand, fun j hj => hsub j ((hslots j).mp hj)⟩
  constructor
  · apply covered_placed s h e it he (made_item w h kind) elem _ hs hhe' hcallback hdata helem hfresh rfl hitems _
      hit hcaps
    intro i it' hslot hi j hj
    obtain ⟨-, -, -, hsub⟩ := hcovers i it' hslot hi
    exact hsub j hj
  · intro hdescribed hfits hspares
    have houtranks : Outranks s elem (decode_name he.id.name).dir kind := by
      intro i hi desc hdesc
      cases hslot : elem.items i with
      | none =>
        rw [hslot] at hdesc
        cases hdesc
      | some it' =>
        obtain ⟨desc', hdesc', hand, -⟩ := hcovers i it' hslot hi
        rw [hslot, hdesc', Option.some.injEq] at hdesc
        exact hdesc ▸ hand
    have hunplaced := (filled_of_unplaced s h he hhe' hdata).mp hs.filled
    apply described_placed s h e it he (made_item w h kind) elem _ hunplaced helem hfresh rfl hitems hdescribed
      houtranks hspares _ _ hfits
    · rw [add_cap_caps, item_type_caps _ _ caps type kind htype]
      rfl
    · exact add_cap_channels elem _ _ caps type kind it w.count htype

variable (ht : Covered t none)

include ht hhe hcallback hdata hsome in
theorem add_existing_covered (e : Nat) (hplace : place t h (decode_name he.id.name).name type = some e) :
    ∃ t', add_simple_element w t h = some (0, t') ∧ Covered t' none ∧
      (Described t none →
        (∀ elem, t.melems e = some elem → Spares t elem (decode_name he.id.name).dir kind w.count) →
        Described t' none) := by
  obtain ⟨elem, helem, hslot, hadd⟩ := add_taken w t h he caps type kind
    ((filled_of_unplaced t h he hhe hdata).mp ht.filled) ht.pelems hhe hsome e hplace
  have hnext := ht.congr t { t with next := t.next + 1 } none rfl rfl rfl rfl rfl (Nat.le_succ _)
  obtain ⟨hcovered, hdescribed⟩ := placed_covered w t h he caps type kind hhe hcallback hdata hsome _ e t.next elem
    { hnext with used := fun e' elem' helem' _ => hnext.used e' elem' helem' (by simp) } rfl helem
    ((ht.filled.fresh _ (le_refl _)).2.2) (Nat.lt_succ_self _) hslot
  refine ⟨_, hadd, hcovered, fun hbefore hspares => hdescribed ?_ ?_ (hspares elem helem)⟩
  · exact fun e' elem' helem' _ => (hbefore e' elem' helem' (by simp)).congr t _ elem' fun _ => rfl
  · exact (hbefore e elem helem (by simp)).with t elem _ kind w.count

include ht hhe hcallback hdata hsome in
theorem add_new_covered (hplace : place t h (decode_name he.id.name).name type = none)
    (halloc : w.alloc_elem) :
    ∃ err t', add_simple_element w t h = some (err, t') ∧ Covered t' none ∧
      (Described t none → Described t' none) := by
  obtain ⟨err, index, pelems, alloc, hlist, hadd⟩ := add_made w t h he caps type kind
    ((filled_of_unplaced t h he hhe hdata).mp ht.filled) ht.pelems hhe hsome hplace halloc
  set elem := new_mixer_elem (decode_name he.id.name).name index
  have hempty (i : Fin 5) : elem.items i = none := rfl
  have hfresh : t.melems (t.next + 1) = none := (ht.filled.fresh _ (Nat.le_succ _)).2.1
  have hnew : t.next + 1 ∉ t.pelems := by
    intro hmem
    have hlive := ht.pelems _ hmem
    rw [hfresh] at hlive
    cases hlive
  -- With or without room, the list holds no more than the old elements and the new one.
  have hlisted : pelems.Nodup ∧ ∀ e ∈ pelems, e ∈ t.pelems ∨ e = t.next + 1 := by
    rcases hlist with ⟨-, rfl⟩ | hperm
    · exact ⟨ht.pelems_nodup, fun _ => .inl⟩
    · refine ⟨hperm.nodup_iff.mpr (List.nodup_append.mpr ⟨ht.pelems_nodup, List.nodup_singleton _,
        fun a ha b hb heq => hnew (List.mem_singleton.mp hb ▸ heq ▸ ha)⟩), fun e he => ?_⟩
      exact (List.mem_append.mp (hperm.mem_iff.mp he)).imp_right List.mem_singleton.mp
  have hextended := covered_extended t (t.next + 1) elem pelems alloc (t.next + 2) hempty hfresh ht hlisted.1 hlisted.2
    (Nat.lt_succ_self _) (Nat.le_add_right _ 2)
  obtain ⟨hcovered, hdescribed⟩ := placed_covered w t h he caps type kind hhe hcallback hdata hsome
    (extended t (t.next + 1) elem pelems alloc (t.next + 2)) (t.next + 1) t.next elem hextended rfl
    (Function.update_self _ _ _) ((ht.filled.fresh _ (le_refl _)).2.2) (by show t.next < t.next + 2; omega)
    (hempty type)
  refine ⟨err, _, hadd, hcovered, fun hbefore => hdescribed ?_ ?_ ?_⟩
  · exact described_extended t _ elem pelems alloc _ hbefore
  · exact (fitting_empty _ elem rfl (fun _ => rfl) hempty).with _ elem _ kind w.count
  · exact spares_free _ elem _ kind w.count fun i _ => hempty i

end Add

theorem covered_listed (s : SndMixer) (hs : Covered s none) (id : SndCtlElemId) (callback : Bool) :
    Covered (listed s id callback) none := by
  obtain ⟨hnodup, hctl⟩ := hctl_listed s hs.filled id callback hs.hctl_nodup hs.hctl
  refine
    { hctl_nodup := hnodup, hctl := hctl, filled := filled_listed s hs.filled id callback, whole := ?_
      pelems_nodup := hs.pelems_nodup, pelems := hs.pelems, data := ?_, used := hs.used }
  · intro e elem i it item he helem hslot hitem hhe
    obtain ⟨own, heown, hown, hheown, -⟩ := hs.filled.slot e elem i it helem hslot
    obtain rfl := Option.some.inj (hown.symm.trans hitem)
    obtain rfl := Option.some.inj ((helem_listed s hs.filled id callback _ heown hheown).symm.trans hhe)
    exact hs.whole e elem i it own heown helem hslot hown hheown
  · exact fun h he e hhe hdata => hs.data h he e (helem_of_listed s id callback h he e hhe hdata) hdata

theorem add_listed_covered (w : World) (s : SndMixer) (hs : Covered s none) (id : SndCtlElemId) :
    ∃ err s', add_simple_element w (listed s id true) s.next = some (err, s') ∧ Covered s' none ∧
      (Described s none → AddsSpare w s id → Described s' none) := by
  have hself := listed_self s id true
  have hcovered := covered_listed s hs id true
  have hlisted := described_listed s hs.filled id true
  unfold AddsSpare
  cases hcreates : creates w (decode_name id.name).dir with
  | none =>
    obtain ⟨err, hadd⟩ := add_none w _ s.next _ hself hcreates
    exact ⟨err, _, hadd, hcovered, fun hbefore _ => hlisted hbefore⟩
  | some found =>
    obtain ⟨caps, type, kind⟩ := found
    dsimp only
    cases hplace : place s s.next (decode_name id.name).name type with
    | none =>
      by_cases halloc : w.alloc_elem
      · obtain ⟨err, t, hadd, ht, hdescribed⟩ := add_new_covered w _ s.next _ caps type kind hself rfl rfl hcreates
          hcovered hplace halloc
        exact ⟨err, t, hadd, ht, fun hbefore _ => hdescribed (hlisted hbefore)⟩
      · have hunplaced := (filled_of_unplaced _ s.next _ hself rfl).mp hcovered.filled
        have hadd := add_unplaced w _ s.next _ caps type kind hunplaced hcovered.pelems hself hcreates hplace halloc
        refine ⟨_, _, hadd, ?_, fun hbefore _ => (hlisted hbefore).congr _ _ none rfl rfl rfl⟩
        exact hcovered.congr _ _ none rfl rfl rfl rfl rfl (Nat.le_succ _)
    | some e =>
      obtain ⟨t, hadd, ht, hdescribed⟩ := add_existing_covered w _ s.next _ caps type kind hself rfl rfl hcreates
        hcovered e hplace
      refine ⟨0, t, hadd, ht, fun hbefore hspares => hdescribed (hlisted hbefore) fun elem helem => ?_⟩
      exact (hspares elem helem).congr s _ elem _ kind w.count (desc_listed s hs.filled id true e elem helem)

/-! ## Steps -/

/-- Caps and channels stay right at an ADD that misses no channels, at a VALUE, and while nothing is
covered at an INFO or REMOVE that owns its slots and leaves nothing behind. -/
def Describing (s : SndMixer) : Act → Prop
  | .add id w => id.iface = SND_CTL_ELEM_IFACE_MIXER → AddsSpare w s id
  | .notify h mask w =>
    mask &&& SND_CTL_EVENT_MASK_INFO ≠ 0#32 →
      Bare s ∧ Intact s (.notify h mask w) ∧ Fits s (.notify h mask w)
  | .remove h w => Bare s ∧ Intact s (.remove h w) ∧ Fits s (.remove h w)

theorem Inv.addsSpare (s : SndMixer) (hs : Inv s) (w : World) (id : SndCtlElemId) (howns : AddsOwn w s id) :
    AddsSpare w s id := by
  have hself := listed_self s id true
  have hunplaced := (filled_of_unplaced _ s.next _ hself rfl).mp (filled_listed s hs.held.toFilled id true)
  unfold AddsOwn at howns
  unfold AddsSpare
  cases hcreates : creates w (decode_name id.name).dir with
  | none => trivial
  | some found =>
    obtain ⟨caps, type, kind⟩ := found
    rw [hcreates] at howns
    dsimp only at howns ⊢
    cases hplace : place s s.next (decode_name id.name).name type with
    | none => trivial
    | some e =>
      rw [hplace] at howns
      intro elem helem
      obtain ⟨-, htype, -⟩ := creates_some w _ caps type kind hcreates
      have htakes : takes (listed s id true) s.next (decode_name id.name).name type e := List.find?_some hplace
      obtain ⟨-, hslot⟩ := (takes_iff _ s.next hunplaced _ type e elem helem).mp htakes
      refine spares_free s elem _ kind w.count (slots_free elem _ _ caps type kind htype hslot fun hglobal => ?_)
      exact Option.isNone_iff_eq_none.mp (howns elem helem hglobal)

/-- A run in which every control keeps its slots is a case of this. -/
theorem describing_of_intact (as : List Act) (h : AllSteps step (fun s a => Intact s a ∧ Fits s a) attached as) :
    AllSteps step Describing attached as := by
  apply allSteps_of_inv Inv _ Describing _ _ attached as inv_attached h
  · exact fun s a s' hs ha hstep => (step_inv s a s' hs ha.1 hstep).1
  · rintro s a hs ⟨hintact, hfits⟩
    cases a with
    | add id w => exact fun hiface => hs.addsSpare s w id (hintact hiface)
    | notify h mask w => exact fun _ => ⟨hs.bare, hintact, hfits⟩
    | remove h w => exact ⟨hs.bare, hintact, hfits⟩

theorem add_covered (w : World) (s : SndMixer) (hs : Covered s none) (id : SndCtlElemId) :
    ∃ s', step s (.add id w) = some s' ∧ Covered s' none ∧
      (Described s none → Describing s (.add id w) → Described s' none) := by
  have hhandle : ∃ err s', hctl_event_handler w (listed s id false) s.next = some (err, s') ∧ Covered s' none ∧
      (Described s none → Describing s (.add id w) → Described s' none) := by
    rw [add_handled]
    split
    · exact ⟨0, _, rfl, covered_listed s hs id false, fun hbefore _ =>
        described_listed s hs.filled id false hbefore⟩
    · rename_i hiface
      obtain ⟨err, s', hadd, hcovered, hdescribed⟩ := add_listed_covered w s hs id
      exact ⟨err, s', hadd, hcovered, fun hbefore hfits => hdescribed hbefore (hfits (not_not.mp hiface))⟩
  obtain ⟨err, s', hhandle, hrest⟩ := hhandle
  refine ⟨s', ?_, hrest⟩
  show (hctl_event_handler w (listed s id false) s.next).map _ = _
  rw [hhandle]
  rfl

theorem Updated.covered (s s' : SndMixer) (hs : Covered s none) (hupdated : Updated s s') :
    Covered s' none ∧ (Described s none → Described s' none) := by
  rcases hupdated with rfl | ⟨it, item, values, hitem, rfl⟩
  · exact ⟨hs, fun h => h⟩
  · refine ⟨{ hs with filled := hs.filled.set_values s it item hitem values none, whole := ?_ },
      described_set_values s it item hitem values none⟩
    intro e elem i it' new he helem hslot hnew hhe
    obtain ⟨old, he', hold, hhe', -⟩ := hs.filled.slot e elem i it' helem hslot
    obtain ⟨new', hnew', hof, hslots⟩ := item_set_values s it item hitem values it' old hold
    obtain rfl := Option.some.inj (hnew'.symm.trans hnew)
    rw [hslots he]
    exact hs.whole e elem i it' old he helem hslot hold (hof ▸ hhe)

/-- A VALUE event, which finds the item of a control or none. -/
theorem value_covered (w : World) (s : SndMixer) (hs : Covered s none) (h : Nat) (mask : BitVec 32)
    (hmask : mask &&& SND_CTL_EVENT_MASK_INFO = 0#32) :
    ∃ s', step s (.notify h mask w) = some s' ∧ Covered s' none ∧ (Described s none → Described s' none) := by
  unfold step
  dsimp only
  cases hhe : s.helems h with
  | none => exact ⟨s, rfl, hs, fun h => h⟩
  | some he =>
    dsimp only
    split
    · unfold hctl_elem_event_handler
      rw [hhe, Option.bind_some]
      cases hdata : he.private_data with
      | none => exact ⟨s, rfl, hs, fun h => h⟩
      | some e =>
        have hlive := hs.data h he e hhe hdata
        obtain ⟨elem, helem⟩ := Option.isSome_iff_exists.mp hlive
        dsimp only
        rw [helem, Option.bind_some, if_neg (not_remove mask), info_of_masked, if_neg (not_not_intro hmask),
          Option.bind_some]
        dsimp only
        rw [if_neg (lt_irrefl 0)]
        split
        · obtain ⟨err, t, hvalue, hupdated⟩ := handle_value_spec w s none hs.filled h e hlive
          rw [hvalue]
          exact ⟨t, rfl, hupdated.covered s t hs⟩
        · exact ⟨s, rfl, hs, fun h => h⟩
    · exact ⟨s, rfl, hs, fun h => h⟩

theorem step_covered (s : SndMixer) (a : Act) (hs : Covered s none) (hdescribed : Described s none)
    (ha : Describing s a) : ∃ s', step s a = some s' ∧ Covered s' none ∧ Described s' none := by
  have howned (hbare : Bare s) (hintact : Intact s a) (hfits : Fits s a) :
      ∃ s', step s a = some s' ∧ Covered s' none ∧ Described s' none := by
    obtain ⟨s', hstep, hinv, -, hafter⟩ := step_spec s a (hs.inv s hbare) hintact
    exact ⟨s', hstep, hinv.covered, hafter hdescribed hfits⟩
  cases a with
  | add id w =>
    obtain ⟨s', hstep, hcovered, hafter⟩ := add_covered w s hs id
    exact ⟨s', hstep, hcovered, hafter hdescribed ha⟩
  | notify h mask w =>
    by_cases hmask : mask &&& SND_CTL_EVENT_MASK_INFO = 0#32
    · obtain ⟨s', hstep, hcovered, hafter⟩ := value_covered w s hs h mask hmask
      exact ⟨s', hstep, hcovered, hafter hdescribed⟩
    · exact howned (ha hmask).1 (ha hmask).2.1 (ha hmask).2.2
  | remove h w => exact howned ha.1 ha.2.1 ha.2.2

end Salsa.Mixer
