import Salsa.Mixer.Covered

/-!
# Caps and channels over whole runs

Caps and channels only ever grow, so they are right as long as no item leaves an element that stays.
-/

namespace Salsa.Mixer

open Run

/-- Every listed mixer element says what it has. -/
def Says (s : SndMixer) : Prop := ∀ e ∈ s.pelems, ∃ elem, s.melems e = some elem ∧ SaysItems s elem

theorem described_attached : Described attached none := by
  intro e elem helem
  cases helem

/-- In every run whose steps leave nothing behind, caps and channels describe the items. -/
theorem caps_describe (as : List Act) (h : AllSteps step Describing attached as) :
    AllStates step Says attached as := by
  apply allStates_of_allSteps (fun s => Covered s none ∧ Described s none) Says _ _ _ attached as
    ⟨inv_attached.covered, described_attached⟩ h
  · rintro s ⟨hs, hdescribed⟩ e he
    obtain ⟨elem, helem⟩ := Option.isSome_iff_exists.mp (hs.pelems e he)
    exact ⟨elem, helem, (hdescribed e elem helem (by simp)).describes s e elem hs.filled hs.whole helem⟩
  · rintro s a ⟨hs, hdescribed⟩ ha
    exact step_covered s a hs hdescribed ha

theorem playback_fits : AllSteps step Fits attached playback_events := by
  refine ⟨trivial, fun s hs => ⟨fun _ => ?_, fun t ht => ⟨?_, fun _ _ => trivial⟩⟩⟩
  · have hdecode : decode_name "X Playback".toList = ⟨['X'], .playback⟩ := by decide +kernel
    have hcreates : creates volume_world .playback = some (1#32, 0, .volume) := by decide +kernel
    have hdata : ((step attached (.add (volume_id "X Playback".toList) volume_world)).bind fun s =>
        (s.helems 0).map fun he => (he.private_data, he.id.name)) = some (some 2, "X Playback".toList) := by
      decide +kernel
    have hitem : ((step attached (.add (volume_id "X Playback".toList) volume_world)).bind fun s =>
        (s.items 1).map fun item => (item.helem, item.kind, item.channels)) = some (0, .volume, 2) := by
      decide +kernel
    have hplace : ((step attached (.add (volume_id "X Playback".toList) volume_world)).map fun s =>
        place s 0 ['X'] 0) = some (some 2) := by decide +kernel
    have hinv := (step_inv attached _ s inv_attached playback_intact.1 hs).1
    rw [hs] at hdata hitem hplace
    intro he e elem hhe hdata' helem it item caps type kind hget hof hsome
    rw [Option.bind_some, hhe, Option.map_some, Option.some.injEq, Prod.mk.injEq] at hdata
    obtain rfl : e = 2 := Option.some.inj (hdata'.symm.trans hdata.1)
    obtain ⟨item', hitem', heq⟩ := Option.map_eq_some_iff.mp hitem
    simp only [Prod.mk.injEq] at heq
    obtain rfl := hinv.held.unique it 1 item item' hget hitem' (hof.trans heq.1.symm)
    obtain rfl := Option.some.inj (hget.symm.trans hitem')
    rw [hdata.2, hdecode, hcreates, Option.some.injEq, Prod.mk.injEq, Prod.mk.injEq] at hsome
    obtain ⟨-, rfl, rfl⟩ := hsome
    rw [Option.map_some, Option.some.injEq] at hplace
    rw [hdata.2, hdecode, heq.2.2]
    exact ⟨heq.2.1.symm, hplace, fun d => ⟨fun _ => le_max_left _ _, fun _ => le_max_left _ _⟩⟩
  · have hitems : (((step attached (.add (volume_id "X Playback".toList) volume_world)).bind fun s =>
        step s (.notify 0 3#32 volume_world)).bind fun t => (t.melems 2).map fun elem =>
          (List.finRange 5).all fun i => (elem.items i).isNone || is_item_of t 0 (elem.items i)) =
        some true := by decide +kernel
    have hdata : (((step attached (.add (volume_id "X Playback".toList) volume_world)).bind fun s =>
        step s (.notify 0 3#32 volume_world)).bind fun t => (t.helems 0).map (·.private_data)) =
        some (some 2) := by decide +kernel
    rw [hs, Option.bind_some, ht, Option.bind_some] at hitems hdata
    rintro he e elem hhe hdata' helem ⟨i, hi, hnot⟩
    rw [hhe, Option.map_some, Option.some.injEq] at hdata
    obtain rfl : e = 2 := Option.some.inj (hdata'.symm.trans hdata)
    rw [helem, Option.map_some, Option.some.injEq, List.all_eq_true] at hitems
    have hfree := hitems i (List.mem_finRange i)
    rw [Bool.or_eq_true, Option.isNone_iff_eq_none] at hfree
    rcases hfree with hnone | hof
    · rw [hnone] at hi
      cases hi
    · exact hnot hof

/-- A global control is put over a capture control, whose value changes then. -/
def covering_events : List Act :=
  [.add (volume_id "X Capture".toList) volume_world, .add (volume_id "X".toList) volume_world,
    .notify 0 1#32 volume_world]

theorem covering_describing : AllSteps step Describing attached covering_events := by
  refine ⟨fun _ => ?_, fun s hs => ⟨fun _ => ?_, fun t _ => ⟨fun hmask => ?_, fun _ _ => trivial⟩⟩⟩
  · have hdecode : decode_name "X Capture".toList = ⟨['X'], .capture⟩ := by decide +kernel
    have hcreates : creates volume_world .capture = some (2#32, 1, .volume) := by decide +kernel
    show AddsSpare volume_world attached (volume_id "X Capture".toList)
    unfold AddsSpare volume_id
    rw [hdecode, hcreates]
    trivial
  · have hdecode : decode_name "X".toList = ⟨['X'], .global⟩ := by decide +kernel
    have hcreates : creates volume_world .global = some (7#32, 0, .volume) := by decide +kernel
    have hplace : ((step attached (.add (volume_id "X Capture".toList) volume_world)).map fun s =>
        place s s.next ['X'] 0) = some (some 2) := by decide +kernel
    have hchannels : ((step attached (.add (volume_id "X Capture".toList) volume_world)).bind fun s =>
        (s.melems 2).map fun elem => (List.finRange 5).all fun i => slot_channels s (elem.items i) ≤ 2) =
        some true := by decide +kernel
    rw [hs] at hplace hchannels
    rw [Option.map_some, Option.some.injEq] at hplace
    show AddsSpare volume_world s (volume_id "X".toList)
    unfold AddsSpare volume_id
    rw [hdecode, hcreates]
    dsimp only
    rw [hplace]
    intro elem helem d
    rw [Option.bind_some, helem, Option.map_some, Option.some.injEq, List.all_eq_true] at hchannels
    have hmost (i : Fin 5) := of_decide_eq_true (hchannels i (List.mem_finRange i))
    exact ⟨fun _ => (hmost _).trans (le_max_left _ _), fun _ => (hmost _).trans (le_max_left _ _)⟩
  · exact absurd hmask (by decide)

theorem caps_describe_playback :
    AllStates step Says attached playback_events ∧ AllStates step Says attached covering_events :=
  ⟨caps_describe playback_events (describing_of_intact _ (allSteps_and _ _ _ _ playback_intact playback_fits)),
    caps_describe covering_events covering_describing⟩

/-! A volume control that goes while the switch of the element stays. -/

def switch_world : World := { volume_world with type := .boolean }

def volume_and_switch : List Act :=
  [.add (volume_id "X Playback Volume".toList) volume_world,
    .add (volume_id "X Playback Switch".toList) switch_world, .remove 0 volume_world]

/-- The element keeps the cap of the volume. -/
theorem cap_is_left : ∃ t, run step attached volume_and_switch = some t ∧ ¬ Says t := by
  have hcaps : ((run step attached volume_and_switch).bind fun t => (t.melems 2).map fun elem =>
      (elem.caps &&& SND_SM_CAP_PVOLUME, elem.items SND_SELEM_ITEM_PVOLUME)) = some (1#32, none) := by
    decide +kernel
  have hpelems : ((run step attached volume_and_switch).map (·.pelems)) = some [2] := by decide +kernel
  obtain ⟨t, ht, hpelems⟩ := Option.map_eq_some_iff.mp hpelems
  refine ⟨t, ht, fun hsays => ?_⟩
  obtain ⟨elem, helem, hsays⟩ := hsays 2 (by rw [hpelems]; exact List.mem_cons_self)
  rw [ht, Option.bind_some, helem, Option.map_some, Option.some.injEq, Prod.mk.injEq] at hcaps
  have hset := hsays.pvolume.mp (by rw [hcaps.1]; decide)
  rw [hcaps.2] at hset
  cases hset

end Salsa.Mixer
