import Salsa.Lib.Run
import Salsa.Mixer.Register

/-!
# Ownership of the slots

Over any run of events whose steps meet `Intact`, controls, items and mixer elements belong
together. What `Intact` leaves out are the events at which the code drops the item of another
control, or keeps an element or a control without its item.
-/

namespace Salsa.Mixer

open Cells Ctl Run
open Hctl (SND_CTL_EVENT_MASK_REMOVE SND_CTL_EVENT_MASK_VALUE SND_CTL_EVENT_MASK_INFO)

/-! ## The condition -/

/-- A new control that gets an item finds both slots of a global item free, and room in the list
for a mixer element that it needs. -/
def AddsOwn (w : World) (s : SndMixer) (id : SndCtlElemId) : Prop :=
  match creates w (decode_name id.name).dir with
  | none => True
  | some (caps, type, _) =>
    match place s s.next (decode_name id.name).name type with
    | some e => ∀ elem, s.melems e = some elem → is_global caps → (elem.items (type + 1)).isNone
    | none => w.alloc_elem → has_room w s

/-- The control `h` with an item in `e` gets one again, in a place that is free but for its own
items, and does not leave `e` empty. -/
def RenewsOwn (w : World) (s : SndMixer) (h e : Nat) (id : SndCtlElemId) (elem : SndMixerElem) : Prop :=
  ClearsOwn s h elem ∧
  match creates w (decode_name id.name).dir with
  | none => False
  | some (caps, type, _) =>
    match place s h (decode_name id.name).name type with
    | some e' =>
      (∀ elem', s.melems e' = some elem' → is_global caps → is_free_for s h (elem'.items (type + 1))) ∧
        (e' = e ∨ HasOther s h elem)
    | none => w.alloc_elem ∧ has_room w s ∧ HasOther s h elem

def Intact (s : SndMixer) : Act → Prop
  | .add id w => id.iface = SND_CTL_ELEM_IFACE_MIXER → AddsOwn w s id
  | .notify h mask w =>
    mask &&& SND_CTL_EVENT_MASK_INFO ≠ 0#32 →
      ∀ he e elem, s.helems h = some he → he.private_data = some e → s.melems e = some elem →
        RenewsOwn w s h e he.id elem
  | .remove h w => RemovesOwn w s h

/-- The item that `h` gets again has the kind and the place of the old one, and no channels get lost
that no other item has. -/
def Refits (w : World) (s : SndMixer) (h e : Nat) (id : SndCtlElemId) (elem : SndMixerElem) : Prop :=
  ∀ it item caps type kind, s.items it = some item → item.helem = h →
    creates w (decode_name id.name).dir = some (caps, type, kind) →
    kind = item.kind ∧ place s h (decode_name id.name).name type = some e ∧
      ∀ d,
        (volume_slot d ∈ slots (decode_name id.name).dir kind →
          item.channels ≤ max w.count (slot_channels s (elem.items (switch_slot d)))) ∧
        (switch_slot d ∈ slots (decode_name id.name).dir kind →
          item.channels ≤ max w.count (slot_channels s (elem.items (volume_slot d))))

/-- No caps or channels are left behind. -/
def Fits (s : SndMixer) : Act → Prop
  | .add _ _ => True
  | .notify h mask w =>
    mask &&& SND_CTL_EVENT_MASK_INFO ≠ 0#32 →
      ∀ he e elem, s.helems h = some he → he.private_data = some e → s.melems e = some elem →
        Refits w s h e he.id elem
  | .remove h _ => Empties s h

/-! ## A new value -/

section SetValues

variable (s : SndMixer) (it : Nat) (item : SndSelemItem) (hitem : s.items it = some item) (values : List Int)

include hitem

theorem item_set_values (it' : Nat) (old : SndSelemItem) (hold : s.items it' = some old) :
    ∃ new, Function.update s.items it (some { item with values }) it' = some new ∧
      new.helem = old.helem ∧ ∀ he, slots_of he new = slots_of he old := by
  rcases eq_or_ne it' it with rfl | hne
  · obtain rfl : old = item := Option.some.inj (hold.symm.trans hitem)
    exact ⟨_, Function.update_self _ _ _, rfl, fun _ => rfl⟩
  · exact ⟨old, (Function.update_of_ne hne _ _).trans hold, rfl, fun _ => rfl⟩

theorem item_of_set_values (it' : Nat) (new : SndSelemItem)
    (hnew : Function.update s.items it (some { item with values }) it' = some new) :
    ∃ old, s.items it' = some old ∧ new.helem = old.helem := by
  rcases stored_eq_some.mp hnew with ⟨rfl, rfl⟩ | ⟨-, hold⟩
  · exact ⟨item, hitem, rfl⟩
  · exact ⟨new, hold, rfl⟩

theorem Filled.set_values (x : Option Nat) (hs : Filled s x) :
    Filled { s with items := Function.update s.items it (some { item with values }) } x := by
  have hnew := item_set_values s it item hitem values
  have hold := item_of_set_values s it item hitem values
  refine { hs with fresh := ?_, slot := ?_, item := ?_, unique := ?_ }
  · intro n hn
    obtain ⟨hhelem, hmelem, hnone⟩ := hs.fresh n hn
    refine ⟨hhelem, hmelem, ?_⟩
    rw [Option.eq_none_iff_forall_ne_some]
    intro new hsome
    obtain ⟨old, hold, -⟩ := hold n new hsome
    rw [hnone] at hold
    cases hold
  · intro e elem i it' helem hslot
    obtain ⟨old, he, hget, hhe, hdata, hmem⟩ := hs.slot e elem i it' helem hslot
    obtain ⟨new, hset, hof, hslots⟩ := hnew it' old hget
    exact ⟨new, he, hset, by rw [hof]; exact hhe, hdata, by rw [hslots he]; exact hmem⟩
  · intro it' new hset
    obtain ⟨old, hget, hof⟩ := hold it' new hset
    rw [hof]
    exact hs.item it' old hget
  · intro it₁ it₂ new₁ new₂ hset₁ hset₂ heq
    obtain ⟨old₁, hget₁, hof₁⟩ := hold it₁ new₁ hset₁
    obtain ⟨old₂, hget₂, hof₂⟩ := hold it₂ new₂ hset₂
    exact hs.unique it₁ it₂ old₁ old₂ hget₁ hget₂ (hof₁.symm.trans (heq.trans hof₂))

theorem Held.set_values (x : Option Nat) (hs : Held s x) :
    Held { s with items := Function.update s.items it (some { item with values }) } x := by
  refine { hs.toFilled.set_values s it item hitem values x, hs with owner := ?_ }
  intro h he e hhe hdata hx
  obtain ⟨elem, it', old, helem, hget, hof, hheld⟩ := hs.owner h he e hhe hdata hx
  obtain ⟨new, hset, hof', hslots⟩ := item_set_values s it item hitem values it' old hget
  refine ⟨elem, it', new, helem, hset, hof'.trans hof, ?_⟩
  rw [hslots he]
  exact hheld

theorem keeps_set_values (h : Nat) :
    Keeps h s { s with items := Function.update s.items it (some { item with values }) } := by
  intro e elem i it' old helem hslot hold _
  obtain ⟨new, hnew, hof, -⟩ := item_set_values s it item hitem values it' old hold
  exact ⟨elem, new, helem, hslot, hnew, hof⟩

theorem described_set_values (y : Option Nat) (hs : Described s y) :
    Described { s with items := Function.update s.items it (some { item with values }) } y := by
  intro e elem helem hne
  refine (hs e elem helem hne).congr s _ elem fun i => ?_
  unfold slot_desc
  dsimp only
  cases elem.items i with
  | none => rfl
  | some it' =>
    rw [Option.bind_some, Option.bind_some]
    rcases eq_or_ne it' it with rfl | hne
    · rw [Function.update_self, hitem]
      rfl
    · rw [Function.update_of_ne hne]

end SetValues

theorem Registered.refl (h : Nat) (s : SndMixer) (hs : Held s none) : Registered h s s :=
  ⟨rfl, fun _ => rfl, fun _ h => h, hs, Keeps.refl h s⟩

theorem Registered.trans (h : Nat) (s t u : SndMixer) (hst : Registered h s t) (htu : Registered h t u) :
    Registered h s u :=
  ⟨htu.hctl.trans hst.hctl, fun h' => (htu.helems h').trans (hst.helems h'),
    fun e he => htu.melems e (hst.melems e he), htu.held, hst.keeps.trans _ _ _ _ htu.keeps⟩

/-- What an update leaves: nothing but the values of an item are new. -/
def Updated (s s' : SndMixer) : Prop :=
  s' = s ∨ ∃ it item values, s.items it = some item ∧
    s' = { s with items := Function.update s.items it (some { item with values }) }

theorem update_simple_spec (w : World) (s : SndMixer) (x : Option Nat) (hs : Filled s x) (h e : Nat)
    (helem : (s.melems e).isSome) :
    ∃ changed s', update_simple_element w s h e = some (changed, s') ∧ Updated s s' := by
  obtain ⟨elem, helem⟩ := Option.isSome_iff_exists.mp helem
  have hlive := hs.slots_live s x e elem helem
  unfold update_simple_element
  rw [helem, Option.bind_some, find_item_eq s elem h _ hlive, Option.bind_some]
  split
  · exact ⟨0, s, rfl, .inl rfl⟩
  · rename_i i it hfound
    obtain ⟨j, -, hj⟩ := Option.bind_eq_some_iff.mp hfound
    obtain ⟨it', hslot, heq⟩ := Option.map_eq_some_iff.mp hj
    obtain rfl : it' = it := (Prod.mk.inj heq).2
    obtain ⟨item, hitem⟩ := Option.isSome_iff_exists.mp (hlive j it' hslot)
    rw [hitem, Option.map_some]
    split
    · exact ⟨0, s, rfl, .inl rfl⟩
    · exact ⟨_, _, rfl, .inr ⟨it', item, _, hitem, rfl⟩⟩

theorem handle_value_spec (w : World) (s : SndMixer) (x : Option Nat) (hs : Filled s x) (h e : Nat)
    (helem : (s.melems e).isSome) :
    ∃ err s', handle_value w s h e = some (err, s') ∧ Updated s s' := by
  obtain ⟨changed, s', hupdate, hupdated⟩ := update_simple_spec w s x hs h e helem
  unfold handle_value
  rw [hupdate, Option.map_some]
  dsimp only
  split <;> exact ⟨_, s', rfl, hupdated⟩

theorem Updated.registered (s s' : SndMixer) (hs : Held s none) (h : Nat) (hupdated : Updated s s') :
    Registered h s s' ∧ (Used s none → Used s' none) ∧ (Described s none → Described s' none) := by
  rcases hupdated with rfl | ⟨it, item, values, hitem, rfl⟩
  · exact ⟨Registered.refl h _ hs, fun h => h, fun h => h⟩
  · exact ⟨⟨rfl, fun _ => rfl, fun _ h => h, hs.set_values s it item hitem values none,
      keeps_set_values s it item hitem values h⟩, fun h => h, described_set_values s it item hitem values none⟩

/-! ## A control that has changed -/

theorem free_without (s : SndMixer) (h e it : Nat) (elem : SndMixerElem)
    (he : SndHctlElem) (hs : Held s none) (hhe : s.helems h = some he) (hdata : he.private_data = some e)
    (helem : s.melems e = some elem) (e' : Nat) (old : SndMixerElem) (hold : s.melems e' = some old) :
    ∃ new, (without s h e it elem).melems e' = some new ∧ new.name = old.name ∧
      ∀ i, new.items i = none ↔ is_free_for s h (old.items i) := by
  rcases eq_or_ne e' e with rfl | hne
  · obtain rfl : old = elem := Option.some.inj (hold.symm.trans helem)
    refine ⟨_, without_self s h e' it old, rfl, fun i => ?_⟩
    unfold vacated is_free_for
    dsimp only
    split
    · simp [*]
    · simp [*]
  · refine ⟨old, (without_melem s h e it elem _ _).mpr (.inr ⟨hne, hold⟩), rfl, fun i => ?_⟩
    have hnot := others_not_item_of s h e he hs hhe hdata e' old hold hne i
    simp [is_free_for, hnot]

theorem place_without (s : SndMixer) (h e it : Nat) (elem : SndMixerElem) (he : SndHctlElem)
    (hs : Held s none) (hhe : s.helems h = some he) (hdata : he.private_data = some e)
    (helem : s.melems e = some elem) (hwithout : Held (without s h e it elem) (some h))
    (name : List Char) (type : Fin 5) : place (without s h e it elem) h name type = place s h name type := by
  unfold place
  rw [← List.head?_filter, ← List.head?_filter]
  refine congrArg List.head? (List.filter_congr fun e' he' => ?_)
  obtain ⟨old, hold⟩ := Option.isSome_iff_exists.mp ((hs.pelems e').mp he')
  obtain ⟨new, hnew, hname, hfree⟩ := free_without s h e it elem he hs hhe hdata helem e' old hold
  rw [Bool.eq_iff_iff, takes_iff _ h hwithout.toFilled name type e' new hnew, hname, hfree type]
  simp [takes, hold]

theorem used_of_other (s : SndMixer) (h e it : Nat) (elem : SndMixerElem) (hused : Used s none)
    (hother : HasOther s h elem) : Used (without s h e it elem) none := by
  intro e' new hnew _
  rcases (without_melem s h e it elem _ _).mp hnew with ⟨-, rfl⟩ | ⟨-, hold⟩
  · obtain ⟨i, hi, hnot⟩ := hother
    refine ⟨i, ?_⟩
    unfold vacated
    dsimp only
    rw [if_neg hnot]
    exact hi
  · exact hused e' new hold (by simp)

/-- An item is in its slots, and in no other ones. -/
theorem desc_own (s : SndMixer) (h e it : Nat) (elem : SndMixerElem) (item : SndSelemItem)
    (he : SndHctlElem) (hs : Held s none) (hhe : s.helems h = some he) (hdata : he.private_data = some e)
    (helem : s.melems e = some elem) (hitem : s.items it = some item) (hof : item.helem = h) (i : Fin 5) :
    (is_item_of s h (elem.items i) ↔ i ∈ slots_of he item) ∧
      (i ∈ slots_of he item → slot_desc s (elem.items i) =
        some { dir := (decode_name he.id.name).dir, kind := item.kind, channels := item.channels }) := by
  obtain ⟨elem', it', item', helem', hitem', hof', hheld, hslots⟩ :=
    hs.is_item_of_iff s none h e he hhe hdata (by simp)
  obtain rfl := Option.some.inj (helem.symm.trans helem')
  obtain rfl := hs.unique it it' item item' hitem hitem' (hof.trans hof'.symm)
  obtain rfl := Option.some.inj (hitem.symm.trans hitem')
  refine ⟨hslots i, fun hi => ?_⟩
  rw [hheld i hi]
  exact slot_desc_some s it item he hitem (hof.symm ▸ hhe)

theorem fits_vacated (s : SndMixer) (h e it : Nat) (elem : SndMixerElem) (item : SndSelemItem)
    (he : SndHctlElem) (hs : Held s none) (hhe : s.helems h = some he) (hdata : he.private_data = some e)
    (helem : s.melems e = some elem) (hitem : s.items it = some item) (hof : item.helem = h)
    (hfits : Fitting s elem) (count : Nat)
    (hchannels : ∀ d,
      (volume_slot d ∈ slots_of he item →
        item.channels ≤ max count (slot_channels s (elem.items (switch_slot d)))) ∧
      (switch_slot d ∈ slots_of he item →
        item.channels ≤ max count (slot_channels s (elem.items (volume_slot d))))) :
    FitsWith (without s h e it elem) (vacated s h elem) (decode_name he.id.name).dir item.kind count := by
  have hown := desc_own s h e it elem item he hs hhe hdata helem hitem hof
  have hdesc := desc_vacated s h e it elem item hs helem hitem hof
  constructor
  · intro m hm
    refine (hfits.caps m).trans ⟨?_, ?_⟩
    · rintro ⟨i, desc, hi, hbit⟩
      refine ⟨i, desc, ?_, hbit⟩
      rw [hdesc, if_neg, hi]
      intro hmem
      rw [(hown i).2 ((hown i).1.mp hmem), Option.some.injEq] at hi
      rw [← hi] at hbit
      exact hbit hm
    · rintro ⟨i, desc, hi, hbit⟩
      rw [hdesc] at hi
      split at hi
      · cases hi
      · exact ⟨i, desc, hi, hbit⟩
  · intro d
    have hfit := hfits.channels d
    have hone := slots_one (decode_name he.id.name).dir item.kind d
    have hleft (i : Fin 5) : slot_channels (without s h e it elem) ((vacated s h elem).items i) =
        if i ∈ slots_of he item then 0 else slot_channels s (elem.items i) :=
      (channels_vacated s h e it elem item hs helem hitem hof i).trans (if_congr (hown i).1 rfl rfl)
    have hhad (i : Fin 5) (hi : i ∈ slots_of he item) : slot_channels s (elem.items i) = item.channels := by
      unfold slot_channels
      rw [(hown i).2 hi]
      rfl
    obtain ⟨hvolume, hswitch⟩ := hchannels d
    rw [hleft, hleft]
    show if volume_slot d ∈ slots_of he item ∨ switch_slot d ∈ slots_of he item then
      max (elem.channels d) count = _ else elem.channels d = _
    rw [hfit]
    by_cases hv : volume_slot d ∈ slots_of he item
    · have hnot : switch_slot d ∉ slots_of he item := hone hv
      have hmost := hvolume hv
      rw [if_pos (.inl hv), if_pos hv, if_neg hnot, hhad _ hv]
      omega
    · by_cases hw : switch_slot d ∈ slots_of he item
      · have hmost := hswitch hw
        rw [if_pos (.inr hw), if_neg hv, if_pos hw, hhad _ hw]
        omega
      · rw [if_neg (not_or.mpr ⟨hv, hw⟩), if_neg hv, if_neg hw]

/-- The item is added again, to the place it had or to another. -/
theorem add_again_spec (w : World) (s : SndMixer) (h e it : Nat) (elem : SndMixerElem) (item : SndSelemItem)
    (he : SndHctlElem) (hs : Held s none) (hused : Used s none) (hhe : s.helems h = some he)
    (hdata : he.private_data = some e) (helem : s.melems e = some elem) (hitem : s.items it = some item)
    (hof : item.helem = h) (hrenews : RenewsOwn w s h e he.id elem) :
    ∃ err t, add_simple_element w (without s h e it elem) h = some (err, t) ∧
      Registered h (without s h e it elem) t ∧ Used t none ∧
      (Described s none → (∀ elem, s.melems e = some elem → Refits w s h e he.id elem) → Described t none) := by
  have hheld := held_without s h e it elem item he hs hhe hdata helem hitem hof
  have hplace := place_without s h e it elem he hs hhe hdata helem hheld
  have hcallback := hs.callback h he e hhe hdata
  obtain ⟨-, hcreates⟩ := hrenews
  split at hcreates
  · exact hcreates.elim
  · rename_i caps type kind hsome
    rw [← hplace] at hcreates
    split at hcreates
    · rename_i e' hfound
      obtain ⟨hnext, hwhere⟩ := hcreates
      obtain ⟨t, hadd, hregistered, hafter, hdescribed⟩ := add_existing w _ h he caps type kind hheld hhe hcallback
        hsome e' hfound (fun new hnew hglobal => by
          obtain ⟨old, hold⟩ := Option.isSome_iff_exists.mp
            ((without_isSome s h e it elem helem e').symm.trans (by rw [hnew]; rfl))
          obtain ⟨new', hnew', -, hfree⟩ := free_without s h e it elem he hs hhe hdata helem e' old hold
          obtain rfl : new' = new := Option.some.inj (hnew'.symm.trans hnew)
          exact (hfree _).mpr (hnext old hold hglobal))
      refine ⟨0, t, hadd, hregistered, hafter ?_, fun hbefore hrefits => ?_⟩
      · rcases hwhere with rfl | hother
        · exact used_without s h e' it elem hused
        · intro e'' new hnew _
          exact used_of_other s h e it elem hused hother e'' new hnew (by simp)
      · obtain ⟨rfl, hsame, hchannels⟩ := hrefits elem helem it item caps type kind hitem hof hsome
        rw [hplace, hsame] at hfound
        obtain rfl : e = e' := Option.some.inj hfound
        apply hdescribed (described_without s h e it elem item he hs hhe hdata hitem hof hbefore)
        intro new hnew
        obtain rfl := Option.some.inj ((without_self s h e it elem).symm.trans hnew)
        exact fits_vacated s h e it elem item he hs hhe hdata helem hitem hof (hbefore e elem helem (by simp))
          w.count hchannels
    · rename_i hfound
      obtain ⟨halloc, hroom, hother⟩ := hcreates
      obtain ⟨err, t, hadd, hregistered, hafter, -⟩ := add_new w _ h he caps type kind hheld hhe hcallback
        hsome hfound halloc hroom
      refine ⟨err, t, hadd, hregistered, hafter (used_of_other s h e it elem hused hother), fun _ hrefits => ?_⟩
      obtain ⟨-, hsame, -⟩ := hrefits elem helem it item caps type kind hitem hof hsome
      rw [hplace, hsame] at hfound
      cases hfound

theorem handle_info_spec (w : World) (s : SndMixer) (hs : Held s none) (hused : Used s none) (h e : Nat)
    (he : SndHctlElem) (hhe : s.helems h = some he) (hdata : he.private_data = some e)
    (hrenews : ∀ elem, s.melems e = some elem → RenewsOwn w s h e he.id elem) :
    ∃ err s', handle_info w s h e = some (err, s') ∧ Registered h s s' ∧ Used s' none ∧
      (Described s none → (∀ elem, s.melems e = some elem → Refits w s h e he.id elem) →
        Described s' none) := by
  obtain ⟨elem, it, item, helem, hitem, hof, hremove⟩ :=
    remove_spec s hs h e he hhe hdata (fun elem helem => (hrenews elem helem).1) false
  have hkeeps := keeps_without s h e it elem item hs helem hitem hof
  obtain ⟨err, t, hadd, hregistered, hafter, hdescribed⟩ :=
    add_again_spec w s h e it elem item he hs hused hhe hdata helem hitem hof (hrenews elem helem)
  have hwhole : Registered h s t :=
    { hctl := hregistered.hctl
      helems := hregistered.helems
      melems := fun e' he' => hregistered.melems e' ((without_isSome s h e it elem helem e').trans he')
      held := hregistered.held
      keeps := hkeeps.trans _ _ _ _ hregistered.keeps }
  obtain ⟨elem', helem'⟩ := Option.isSome_iff_exists.mp (hwhole.melems e (by rw [helem]; rfl))
  unfold handle_info
  rw [hremove, Option.bind_some]
  dsimp only
  rw [if_pos (by simp), hadd, Option.bind_some]
  dsimp only
  rw [helem', Option.map_some]
  split
  · exact ⟨_, t, rfl, hwhole, hafter, hdescribed⟩
  · refine ⟨0, snd_mixer_sort w t, rfl, ⟨hwhole.hctl, hwhole.helems, hwhole.melems, ?_, hwhole.keeps⟩, hafter,
      fun hbefore hrefits => (hdescribed hbefore hrefits).congr t _ none rfl rfl rfl⟩
    exact hwhole.held.congr t _ none rfl rfl rfl (w.compare.perm _) (le_refl _)

/-! ## One step -/

theorem Inv.registered (h : Nat) (s s' : SndMixer) (hs : Inv s) (hregistered : Registered h s s')
    (hused : Used s' none) : Inv s' where
  hctl_nodup := by
    rw [hregistered.hctl]
    exact hs.hctl_nodup
  hctl := by
    intro h'
    rw [hregistered.hctl, hregistered.helems h']
    exact hs.hctl h'
  held := hregistered.held
  used := hused

theorem not_remove (mask : BitVec 32) :
    mask &&& (SND_CTL_EVENT_MASK_VALUE ||| SND_CTL_EVENT_MASK_INFO) ≠ SND_CTL_EVENT_MASK_REMOVE := by
  intro heq
  have hbit := congrArg (fun v : BitVec 32 => v.getLsbD 31) heq
  simp [SND_CTL_EVENT_MASK_VALUE, SND_CTL_EVENT_MASK_INFO, SND_CTL_EVENT_MASK_REMOVE] at hbit

theorem info_of_masked (mask : BitVec 32) :
    mask &&& (SND_CTL_EVENT_MASK_VALUE ||| SND_CTL_EVENT_MASK_INFO) &&& SND_CTL_EVENT_MASK_INFO =
      mask &&& SND_CTL_EVENT_MASK_INFO := by
  rw [BitVec.and_assoc]
  rfl

theorem notify_spec (w : World) (s : SndMixer) (hs : Inv s) (h : Nat) (mask : BitVec 32)
    (hintact : Intact s (.notify h mask w)) :
    ∃ s', step s (.notify h mask w) = some s' ∧ Inv s' ∧ Keeps h s s' ∧
      (Described s none → Fits s (.notify h mask w) → Described s' none) := by
  unfold step
  dsimp only
  cases hhe : s.helems h with
  | none => exact ⟨s, rfl, hs, Keeps.refl h s, fun h _ => h⟩
  | some he =>
    dsimp only
    split
    · rename_i hcallback
      unfold hctl_elem_event_handler
      rw [hhe, Option.bind_some]
      cases hdata : he.private_data with
      | none => exact ⟨s, rfl, hs, Keeps.refl h s, fun h _ => h⟩
      | some e =>
        obtain ⟨elem, it, item, helem, -⟩ := hs.held.owner h he e hhe hdata (by simp)
        dsimp only
        rw [helem, Option.bind_some, if_neg (not_remove mask), info_of_masked]
        have hinfo : ∃ err t, (if mask &&& SND_CTL_EVENT_MASK_INFO ≠ 0#32 then handle_info w s h e
            else some (0, s)) = some (err, t) ∧ Registered h s t ∧ Used t none ∧
            (Described s none → Fits s (.notify h mask w) → Described t none) := by
          split
          · rename_i hmask
            obtain ⟨err, t, hinfo, hregistered, hused, hdescribed⟩ :=
              handle_info_spec w s hs.held hs.used h e he hhe hdata fun elem helem =>
                hintact hmask he e elem hhe hdata helem
            exact ⟨err, t, hinfo, hregistered, hused, fun hbefore hfits =>
              hdescribed hbefore fun elem helem => hfits hmask he e elem hhe hdata helem⟩
          · exact ⟨0, s, rfl, Registered.refl h s hs.held, hs.used, fun h _ => h⟩
        obtain ⟨err, t, hinfo, hregistered, hused, hdescribed⟩ := hinfo
        rw [hinfo, Option.bind_some]
        dsimp only
        split
        · exact ⟨t, rfl, hs.registered h s t hregistered hused, hregistered.keeps, hdescribed⟩
        · split
          · obtain ⟨err', u, hvalue, hupdated⟩ := handle_value_spec w t none hregistered.held.toFilled h e
              (hregistered.melems e (by rw [helem]; rfl))
            obtain ⟨hregistered', hused', hdescribed'⟩ := hupdated.registered t u hregistered.held h
            have hwhole := hregistered.trans h s t u hregistered'
            rw [hvalue]
            exact ⟨u, rfl, hs.registered h s u hwhole (hused' hused), hwhole.keeps,
              fun hbefore hfits => hdescribed' (hdescribed hbefore hfits)⟩
          · exact ⟨t, rfl, hs.registered h s t hregistered hused, hregistered.keeps, hdescribed⟩
    · exact ⟨s, rfl, hs, Keeps.refl h s, fun h _ => h⟩

def listed (s : SndMixer) (id : SndCtlElemId) (callback : Bool) : SndMixer :=
  { s with
    hctl := s.hctl ++ [s.next],
    helems := Function.update s.helems s.next (some { id, callback, private_data := none }),
    next := s.next + 1 }

section Listed

variable (s : SndMixer) (hs : Filled s none) (id : SndCtlElemId) (callback : Bool)

theorem listed_self : (listed s id callback).helems s.next = some { id, callback, private_data := none } :=
  Function.update_self _ _ _

include hs

theorem next_free : s.helems s.next = none := (hs.fresh s.next (le_refl _)).1

theorem helem_listed (h : Nat) (he : SndHctlElem) (hhe : s.helems h = some he) :
    (listed s id callback).helems h = some he := stored_of_free (next_free s hs) hhe

omit hs in
/-- The new control has no mixer element yet. -/
theorem helem_of_listed (h : Nat) (he : SndHctlElem) (e : Nat) (hhe : (listed s id callback).helems h = some he)
    (hdata : he.private_data = some e) : s.helems h = some he := by
  rcases stored_eq_some.mp hhe with ⟨-, rfl⟩ | ⟨-, hold⟩
  · cases hdata
  · exact hold

theorem filled_listed : Filled (listed s id callback) none := by
  refine { hs with fresh := ?_, callback := ?_, slot := ?_, item := ?_ }
  · intro n hn
    have hn : s.next + 1 ≤ n := hn
    obtain ⟨hhelem, hmelem, hitem⟩ := hs.fresh n (by omega)
    exact ⟨(Function.update_of_ne (by omega) _ _).trans hhelem, hmelem, hitem⟩
  · intro h he e hhe hdata
    exact hs.callback h he e (helem_of_listed s id callback h he e hhe hdata) hdata
  · intro e elem i it helem hslot
    obtain ⟨item, he, hitem, hhe, hrest⟩ := hs.slot e elem i it helem hslot
    exact ⟨item, he, hitem, helem_listed s hs id callback _ he hhe, hrest⟩
  · intro it item hitem
    obtain ⟨hne, he, hhe, hsome⟩ := hs.item it item hitem
    exact ⟨hne, he, helem_listed s hs id callback _ he hhe, hsome⟩

theorem hctl_listed (hnodup : s.hctl.Nodup) (hctl : ∀ h, h ∈ s.hctl ↔ (s.helems h).isSome) :
    (listed s id callback).hctl.Nodup ∧
      ∀ h, h ∈ (listed s id callback).hctl ↔ ((listed s id callback).helems h).isSome := by
  have hfresh : s.next ∉ s.hctl := by
    rw [hctl, next_free s hs]
    simp
  constructor
  · show (s.hctl ++ [s.next]).Nodup
    rw [List.nodup_append]
    simp only [List.nodup_singleton, List.mem_singleton, true_and]
    exact ⟨hnodup, fun a ha b hb heq => hfresh (hb ▸ heq ▸ ha)⟩
  · intro h
    show h ∈ s.hctl ++ [s.next] ↔ (Function.update s.helems s.next _ h).isSome
    rw [List.mem_append, List.mem_singleton, hctl h]
    rcases eq_or_ne h s.next with rfl | hne
    · simp
    · simp [hne]

omit hs in
theorem inv_listed (hs : Inv s) : Inv (listed s id callback) := by
  have hfilled := hs.held.toFilled
  obtain ⟨hnodup, hctl⟩ := hctl_listed s hfilled id callback hs.hctl_nodup hs.hctl
  refine
    { hctl_nodup := hnodup, hctl := hctl, used := hs.used
      held := { filled_listed s hfilled id callback, hs.held with owner := ?_ } }
  intro h he e hhe hdata hx
  exact hs.held.owner h he e (helem_of_listed s id callback h he e hhe hdata) hdata hx

theorem desc_listed (e : Nat) (elem : SndMixerElem) (helem : s.melems e = some elem) (i : Fin 5) :
    slot_desc (listed s id callback) (elem.items i) = slot_desc s (elem.items i) := by
  cases hslot : elem.items i with
  | none => rfl
  | some it =>
    obtain ⟨item, he, hitem, hhe, -⟩ := hs.slot e elem i it helem hslot
    exact slot_desc_congr s _ it item hitem hitem (Function.update_of_ne (ne_of_free (next_free s hs) hhe) _ _)

theorem described_listed (hdescribed : Described s none) : Described (listed s id callback) none := by
  intro e elem helem _
  exact (hdescribed e elem helem (by simp)).congr s _ elem (desc_listed s hs id callback e elem helem)

end Listed

theorem add_listed_spec (w : World) (s : SndMixer) (hs : Inv s) (id : SndCtlElemId)
    (hintact : Intact s (.add id w)) (hiface : id.iface = SND_CTL_ELEM_IFACE_MIXER) :
    ∃ err s', add_simple_element w (listed s id true) s.next = some (err, s') ∧ Inv s' ∧
      Keeps s.next s s' ∧ (Described s none → Described s' none) := by
  have hself := listed_self s id true
  have hkeeps : Keeps s.next s (listed s id true) := Keeps.refl s.next s
  have hinv := inv_listed s id true hs
  have hheld := (held_of_unplaced _ s.next _ hself rfl).mp hinv.held
  have hlisted := described_listed s hs.held.toFilled id true
  have howns := hintact hiface
  unfold AddsOwn at howns
  split at howns
  · rename_i hnone
    obtain ⟨err, hadd⟩ := add_none w _ s.next _ hself hnone
    exact ⟨err, _, hadd, hinv, hkeeps, hlisted⟩
  · rename_i caps type kind hsome
    split at howns
    · rename_i e hplace
      obtain ⟨t, hadd, hregistered, hused, hdescribed⟩ := add_existing w _ s.next _ caps type kind hheld hself rfl
        hsome e hplace fun elem helem hglobal => Option.isNone_iff_eq_none.mp (howns elem helem hglobal)
      refine ⟨0, t, hadd, hinv.registered s.next _ t hregistered (hused ?_), hkeeps.trans _ _ _ _
        hregistered.keeps, fun hbefore => hdescribed ?_ fun elem helem => ?_⟩
      · exact fun e' elem helem _ => hs.used e' elem helem (by simp)
      · exact fun e' elem helem _ => hlisted hbefore e' elem helem (by simp)
      · exact (hlisted hbefore e elem helem (by simp)).with _ elem _ kind w.count
    · rename_i hplace
      by_cases halloc : w.alloc_elem
      · obtain ⟨err, t, hadd, hregistered, hused, hdescribed⟩ := add_new w _ s.next _ caps type kind hheld hself
          rfl hsome hplace halloc (howns halloc)
        exact ⟨err, t, hadd, hinv.registered s.next _ t hregistered (hused hs.used),
          hkeeps.trans _ _ _ _ hregistered.keeps, fun hbefore => hdescribed (hlisted hbefore)⟩
      · have hadd := add_unplaced w _ s.next _ caps type kind hheld.toFilled (fun e => (hheld.pelems e).mp) hself
          hsome hplace halloc
        refine ⟨_, _, hadd, ?_, hkeeps, fun hbefore => (hlisted hbefore).congr _ _ none rfl rfl rfl⟩
        exact { hinv with held := hinv.held.congr _ _ none rfl rfl rfl (.refl _) (Nat.le_succ _) }

/-- A control of another interface gets no callback. -/
theorem add_handled (w : World) (s : SndMixer) (id : SndCtlElemId) :
    hctl_event_handler w (listed s id false) s.next =
      if id.iface ≠ SND_CTL_ELEM_IFACE_MIXER then some (0, listed s id false)
      else add_simple_element w (listed s id true) s.next := by
  have hset : { listed s id false with
        helems := Function.update (listed s id false).helems s.next
          (some { id, callback := true, private_data := none }) } = listed s id true := by
    unfold listed
    rw [Function.update_idem]
  unfold hctl_event_handler
  rw [listed_self, Option.bind_some]
  dsimp only
  rw [hset]

theorem add_spec (w : World) (s : SndMixer) (hs : Inv s) (id : SndCtlElemId)
    (hintact : Intact s (.add id w)) :
    ∃ s', step s (.add id w) = some s' ∧ Inv s' ∧ Keeps s.next s s' ∧
      (Described s none → Described s' none) := by
  have hhandle : ∃ err s', hctl_event_handler w (listed s id false) s.next = some (err, s') ∧ Inv s' ∧
      Keeps s.next s s' ∧ (Described s none → Described s' none) := by
    rw [add_handled]
    split
    · exact ⟨0, _, rfl, inv_listed s id false hs, Keeps.refl s.next s,
        described_listed s hs.held.toFilled id false⟩
    · rename_i hiface
      exact add_listed_spec w s hs id hintact (not_not.mp hiface)
  obtain ⟨err, s', hhandle, hrest⟩ := hhandle
  refine ⟨s', ?_, hrest⟩
  show (hctl_event_handler w (listed s id false) s.next).map _ = _
  rw [hhandle]
  rfl

theorem remove_step_spec (w : World) (s : SndMixer) (hs : Inv s) (h : Nat) (hintact : Intact s (.remove h w)) :
    ∃ s', step s (.remove h w) = some s' ∧ Inv s' ∧ Keeps h s s' ∧ s'.hctl = s.hctl.erase h ∧
      (Described s none → Fits s (.remove h w) → Described s' none) := by
  unfold step
  dsimp only
  cases hhe : s.helems h with
  | none =>
    refine ⟨s, rfl, hs, Keeps.refl h s, (List.erase_of_not_mem ?_).symm, fun h _ => h⟩
    rw [hs.hctl h, hhe]
    simp
  | some he => exact snd_hctl_elem_remove_spec w s hs h he hhe hintact

def control (s : SndMixer) : Act → Nat
  | .add _ _ => s.next
  | .notify h _ _ => h
  | .remove h _ => h

theorem step_spec (s : SndMixer) (a : Act) (hs : Inv s) (ha : Intact s a) :
    ∃ s', step s a = some s' ∧ Inv s' ∧ Keeps (control s a) s s' ∧
      (Described s none → Fits s a → Described s' none) := by
  cases a with
  | add id w =>
    obtain ⟨s', hstep, hinv, hkeeps, hdescribed⟩ := add_spec w s hs id ha
    exact ⟨s', hstep, hinv, hkeeps, fun h _ => hdescribed h⟩
  | notify h mask w => exact notify_spec w s hs h mask ha
  | remove h w =>
    obtain ⟨s', hstep, hinv, hkeeps, -, hdescribed⟩ := remove_step_spec w s hs h ha
    exact ⟨s', hstep, hinv, hkeeps, hdescribed⟩

/-! ## Runs -/

/-- Controls, items and mixer elements belong together. -/
structure Owned (s : SndMixer) : Prop where
  live : ∀ h, h ∈ s.hctl ↔ (s.helems h).isSome
  /-- A control with a mixer element has its item there, in its slots and in no others. -/
  control : ∀ h he e, s.helems h = some he → he.private_data = some e →
    e ∈ s.pelems ∧ ∃ elem it item, s.melems e = some elem ∧ s.items it = some item ∧ item.helem = h ∧
      ∀ i, elem.items i = some it ↔ i ∈ slots_of he item
  slot : ∀ e elem i it, s.melems e = some elem → elem.items i = some it →
    ∃ item he, s.items it = some item ∧ item.helem ∈ s.hctl ∧ s.helems item.helem = some he ∧
      he.private_data = some e
  used : ∀ e elem, s.melems e = some elem → (e ∈ s.pelems ↔ ∃ i, (elem.items i).isSome)
  pelems : ∀ e ∈ s.pelems, (s.melems e).isSome
  emptied : s.hctl = [] → s.pelems = []

theorem Inv.owned (s : SndMixer) (hs : Inv s) : Owned s := by
  have hused (e : Nat) (elem : SndMixerElem) (helem : s.melems e = some elem) :
      ∃ i, (elem.items i).isSome := hs.used e elem helem (by simp)
  have hslot (e : Nat) (elem : SndMixerElem) (i : Fin 5) (it : Nat) (helem : s.melems e = some elem)
      (hi : elem.items i = some it) :
      ∃ item he, s.items it = some item ∧ item.helem ∈ s.hctl ∧ s.helems item.helem = some he ∧
        he.private_data = some e := by
    obtain ⟨item, he, hitem, hhe, hdata, -⟩ := hs.held.slot e elem i it helem hi
    refine ⟨item, he, hitem, ?_, hhe, hdata⟩
    rw [hs.hctl, hhe]
    rfl
  refine
    { live := hs.hctl, control := ?_, slot := hslot, used := ?_, pelems := fun e => (hs.held.pelems e).mp
      emptied := ?_ }
  · intro h he e hhe hdata
    obtain ⟨elem, it, item, helem, hitem, hof, hheld, hslots⟩ :=
      hs.held.is_item_of_iff s none h e he hhe hdata (by simp)
    refine ⟨(hs.held.pelems e).mpr (by rw [helem]; rfl), elem, it, item, helem, hitem, hof, fun i => ⟨?_, hheld i⟩⟩
    intro hi
    rw [← hslots i, is_item_of_iff]
    exact ⟨it, item, hi, hitem, hof⟩
  · intro e elem helem
    refine ⟨fun _ => hused e elem helem, fun _ => (hs.held.pelems e).mpr ?_⟩
    rw [helem]
    rfl
  · intro hempty
    rw [List.eq_nil_iff_forall_not_mem]
    intro e he
    obtain ⟨elem, helem⟩ := Option.isSome_iff_exists.mp ((hs.held.pelems e).mp he)
    obtain ⟨i, hi⟩ := hused e elem helem
    obtain ⟨it, hi⟩ := Option.isSome_iff_exists.mp hi
    obtain ⟨item, -, -, hmem, -⟩ := hslot e elem i it helem hi
    rw [hempty] at hmem
    cases hmem

theorem inv_attached : Inv attached where
  hctl_nodup := List.nodup_nil
  hctl := by simp [attached]
  used := by simp [Used, attached]
  held :=
    { (by constructor <;> simp [attached] : Filled attached none) with
      pelems_nodup := List.nodup_nil, pelems := by simp [attached], owner := by simp [Owning, attached] }

/-- `snd_hctl_free` removes the last element until there is none. -/
def snd_hctl_free (w : Nat → World) (s : SndMixer) : List Act := s.hctl.reverse.map fun h => .remove h (w h)

theorem free_spec (w : Nat → World) (l : List Nat) (s : SndMixer) (hs : Inv s) (hl : s.hctl = l.reverse)
    (hintact : AllSteps step Intact s (l.map fun h => .remove h (w h))) :
    ∃ u, run step s (l.map fun h => .remove h (w h)) = some u ∧ Inv u ∧ u.hctl = [] := by
  induction l generalizing s with
  | nil => exact ⟨s, rfl, hs, hl⟩
  | cons h l ih =>
    obtain ⟨s', hstep, hinv, -, hctl, -⟩ := remove_step_spec (w h) s hs h hintact.1
    have hlist : s'.hctl = l.reverse := by
      have hnodup := hs.hctl_nodup
      rw [hl, List.reverse_cons, List.nodup_append] at hnodup
      rw [hctl, hl, List.reverse_cons, List.erase_append_right]
      · simp
      · exact fun hmem => hnodup.2.2 h hmem h (List.mem_singleton_self h) rfl
    obtain ⟨u, hrun, hrest⟩ := ih s' hinv hlist (hintact.2 s' hstep)
    refine ⟨u, ?_, hrest⟩
    rw [List.map_cons, run_cons, hstep]
    exact hrun

theorem step_inv (s : SndMixer) (a : Act) (s' : SndMixer) (hs : Inv s) (ha : Intact s a)
    (hstep : step s a = some s') : Inv s' ∧ Keeps (control s a) s s' := by
  obtain ⟨t, ht, hinv, hkeeps, -⟩ := step_spec s a hs ha
  obtain rfl : t = s' := Option.some.inj (ht.symm.trans hstep)
  exact ⟨hinv, hkeeps⟩

/-- A run of intact steps keeps controls, items and mixer elements together, drops no item of another
control, and ends without mixer elements when everything is freed. -/
theorem slots_owned (as : List Act) (hintact : AllSteps step Intact attached as) :
    AllStates step Owned attached as ∧
      AllSteps step (fun s a => ∀ s', step s a = some s' → Keeps (control s a) s s') attached as ∧
      ∀ t w, run step attached as = some t → AllSteps step Intact t (snd_hctl_free w t) →
        ∃ u, run step t (snd_hctl_free w t) = some u ∧ u.hctl = [] ∧ u.pelems = [] := by
  refine ⟨?_, ?_, fun t w hrun hfree => ?_⟩
  · apply allStates_of_allSteps Inv Owned Intact Inv.owned _ attached as inv_attached hintact
    intro s a hs ha
    obtain ⟨s', hstep, hinv, -⟩ := step_spec s a hs ha
    exact ⟨s', hstep, hinv⟩
  · apply allSteps_of_inv Inv Intact _ _ _ attached as inv_attached hintact
    · exact fun s a s' hs ha hstep => (step_inv s a s' hs ha hstep).1
    · exact fun s a hs ha s' hstep => (step_inv s a s' hs ha hstep).2
  · have hinv := run_invariant Inv Intact (fun s a s' hs ha hstep => (step_inv s a s' hs ha hstep).1)
      attached t as inv_attached hintact hrun
    obtain ⟨u, hu, hinv, hempty⟩ := free_spec w t.hctl.reverse t hinv (List.reverse_reverse _).symm hfree
    exact ⟨u, hu, hempty, hinv.owned.emptied hempty⟩

/-! A card with volume controls on which everything works. -/

def volume_world : World :=
  { info_errno := 0, type := .integer, numid := 1#32, count := 2, read_errno := 0, value := fun _ => 0
    update_errno := 0, update_value := fun _ => 0, alloc_item := true, alloc_elem := true, realloc := true
    compare := unsorted, throw_event := 0, elem_throw_event := fun _ => 0 }

def volume_id (name : List Char) : SndCtlElemId :=
  { zeroed_id with iface := SND_CTL_ELEM_IFACE_MIXER, name }

theorem clearsOwn_of_directional (s : SndMixer) (h : Nat) (elem : SndMixerElem) (hcaps : elem.caps = 1#32) :
    ClearsOwn s h elem := by
  unfold ClearsOwn
  rw [hcaps]
  exact ⟨fun _ hcap => absurd rfl hcap, fun _ hcap => absurd rfl hcap⟩

/-- A control comes, changes and goes. -/
def playback_events : List Act :=
  [.add (volume_id "X Playback".toList) volume_world, .notify 0 3#32 volume_world, .remove 0 volume_world]

theorem playback_intact : AllSteps step Intact attached playback_events := by
  have hdecode : decode_name "X Playback".toList = ⟨['X'], .playback⟩ := by decide +kernel
  have hcreates : creates volume_world .playback = some (1#32, 0, .volume) := by decide +kernel
  refine ⟨fun _ => ?_, fun s hs => ⟨fun _ => ?_, fun t ht => ⟨?_, fun _ _ => trivial⟩⟩⟩
  · show AddsOwn volume_world attached (volume_id "X Playback".toList)
    unfold AddsOwn volume_id
    rw [hdecode, hcreates]
    exact fun _ _ => rfl
  · have hdata : ((step attached (.add (volume_id "X Playback".toList) volume_world)).bind fun s =>
        (s.helems 0).map fun he => (he.private_data, he.id.name)) = some (some 2, "X Playback".toList) := by
      decide +kernel
    have hcaps : ((step attached (.add (volume_id "X Playback".toList) volume_world)).bind fun s =>
        (s.melems 2).map (·.caps)) = some 1#32 := by decide +kernel
    have hplace : ((step attached (.add (volume_id "X Playback".toList) volume_world)).map fun s =>
        place s 0 ['X'] 0) = some (some 2) := by decide +kernel
    rw [hs] at hdata hcaps hplace
    intro he e elem hhe hdata' helem
    rw [Option.bind_some, hhe, Option.map_some, Option.some.injEq, Prod.mk.injEq] at hdata
    obtain rfl : e = 2 := Option.some.inj (hdata'.symm.trans hdata.1)
    rw [Option.bind_some, helem, Option.map_some, Option.some.injEq] at hcaps
    rw [Option.map_some, Option.some.injEq] at hplace
    refine ⟨clearsOwn_of_directional s 0 elem hcaps, ?_⟩
    rw [hdata.2, hdecode, hcreates]
    dsimp only
    rw [hplace]
    exact ⟨fun _ _ hglobal => absurd hglobal (by decide), .inl rfl⟩
  · have hdata : (((step attached (.add (volume_id "X Playback".toList) volume_world)).bind fun s =>
        step s (.notify 0 3#32 volume_world)).bind fun t => (t.helems 0).map (·.private_data)) =
        some (some 2) := by decide +kernel
    have hcaps : (((step attached (.add (volume_id "X Playback".toList) volume_world)).bind fun s =>
        step s (.notify 0 3#32 volume_world)).bind fun t => (t.melems 2).map (·.caps)) = some 1#32 := by
      decide +kernel
    rw [hs, Option.bind_some, ht, Option.bind_some] at hdata hcaps
    intro he e elem hhe hdata' helem
    rw [hhe, Option.map_some, Option.some.injEq] at hdata
    obtain rfl : e = 2 := Option.some.inj (hdata'.symm.trans hdata)
    rw [helem, Option.map_some, Option.some.injEq] at hcaps
    exact ⟨le_refl _, clearsOwn_of_directional t 0 elem hcaps⟩

theorem slots_owned_playback : AllStates step Owned attached playback_events :=
  (slots_owned playback_events playback_intact).1

/-- A global control takes the slot of a capture control with the same name. -/
theorem capture_is_overwritten :
    ∃ t, run step attached [.add (volume_id "X Capture".toList) volume_world,
      .add (volume_id "X".toList) volume_world] = some t ∧ ¬ Owned t := by
  have hrun : (run step attached [.add (volume_id "X Capture".toList) volume_world,
      .add (volume_id "X".toList) volume_world]).isSome := by decide +kernel
  have hdata : ((run step attached [.add (volume_id "X Capture".toList) volume_world,
      .add (volume_id "X".toList) volume_world]).bind fun t => (t.helems 0).map (·.private_data)) =
      some (some 2) := by decide +kernel
  have hslots : ((run step attached [.add (volume_id "X Capture".toList) volume_world,
      .add (volume_id "X".toList) volume_world]).bind fun t => (t.melems 2).map fun elem =>
        (List.finRange 5).map elem.items) = some [some 4, some 4, none, none, none] := by decide +kernel
  have hitem : ((run step attached [.add (volume_id "X Capture".toList) volume_world,
      .add (volume_id "X".toList) volume_world]).bind fun t => (t.items 4).map (·.helem)) =
      some 3 := by decide +kernel
  obtain ⟨t, ht⟩ := Option.isSome_iff_exists.mp hrun
  refine ⟨t, ht, fun howned => ?_⟩
  rw [ht, Option.bind_some] at hdata hslots hitem
  obtain ⟨he, hhe, hdata⟩ := Option.map_eq_some_iff.mp hdata
  obtain ⟨-, elem, it, item, helem, hitem', hof, hheld⟩ := howned.control 0 he 2 hhe hdata
  rw [helem, Option.map_some, Option.some.injEq] at hslots
  obtain ⟨i, hi⟩ := slots_nonempty (decode_name he.id.name).dir item.kind
  have hslot := (hheld i).mpr hi
  have hmem : some it ∈ (List.finRange 5).map elem.items :=
    List.mem_map.mpr ⟨i, List.mem_finRange i, hslot⟩
  rw [hslots] at hmem
  obtain rfl : it = 4 := by simpa using hmem
  rw [hitem', Option.map_some, hof] at hitem
  cases hitem

end Salsa.Mixer
