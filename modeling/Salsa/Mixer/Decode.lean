import Salsa.Mixer.Ownership
import Salsa.Lib.Marked

/-!
# Standard names of controls

A base name with a direction and a kind behind it. A suffix is only taken off if it does not occur in
the base name too.
-/

namespace Salsa.Mixer

inductive Stream where
  | playback
  | capture
deriving DecidableEq

def Stream.suffix : Stream → List Char
  | .playback => " Playback".toList
  | .capture => " Capture".toList

def Stream.dir : Stream → Direction
  | .playback => .playback
  | .capture => .capture

/-- The kinds of controls that a standard name ends with. -/
inductive Part where
  | volume
  | switch
deriving DecidableEq

def Part.suffix : Part → List Char
  | .volume => " Volume".toList
  | .switch => " Switch".toList

def Part.type : Part → CtlType
  | .volume => .integer
  | .switch => .boolean

def Part.kind : Part → Kind
  | .volume => .volume
  | .switch => .switch

def Part.slot (part : Part) (stream : Stream) : Fin 5 :=
  match part, stream with
  | .volume, .playback => SND_SELEM_ITEM_PVOLUME
  | .volume, .capture => SND_SELEM_ITEM_CVOLUME
  | .switch, .playback => SND_SELEM_ITEM_PSWITCH
  | .switch, .capture => SND_SELEM_ITEM_CSWITCH

def standard_name (base : List Char) (stream : Stream) (part : Part) : List Char :=
  base ++ stream.suffix ++ part.suffix

/-! ## Suffixes -/

theorem strstr_append (sfx name before p : List Char) (h : strstr sfx name = some (before, p)) :
    name = before ++ p := by
  induction name generalizing before with
  | nil =>
    unfold strstr at h
    split at h
    · cases h
      rfl
    · cases h
  | cons c name ih =>
    unfold strstr at h
    split at h
    · cases h
      rfl
    · obtain ⟨⟨before', p'⟩, hrest, heq⟩ := Option.map_eq_some_iff.mp h
      cases heq
      rw [List.cons_append, ← ih before' hrest]

theorem remove_suffix_append (name sfx rest : List Char) (h : remove_suffix name sfx = some rest) :
    name = rest ++ sfx := by
  obtain ⟨⟨before, p⟩, hfound, hrest⟩ := Option.bind_eq_some_iff.mp h
  dsimp only at hrest
  split at hrest
  · rename_i hp
    cases hrest
    rw [← hp]
    exact strstr_append sfx name rest p hfound
  · cases hrest

/-- A text with another end keeps it. -/
theorem remove_suffix_other (name sfx : List Char) (h : ¬ sfx <:+ name) : remove_suffix name sfx = none := by
  rw [Option.eq_none_iff_forall_ne_some]
  intro rest hrest
  exact h ⟨rest, (remove_suffix_append name sfx rest hrest).symm⟩

/-- In front of a text without the suffix nothing is found. -/
theorem strstr_skip (mark : Char) (word s : List Char) (hmark : mark ∉ word) (h : ¬ mark :: word <:+: s) :
    strstr (mark :: word) (s ++ mark :: word) = some (s, mark :: word) := by
  induction s with
  | nil =>
    unfold strstr
    dsimp only [List.nil_append]
    rw [if_pos (List.isPrefixOf_iff_prefix.mpr (List.prefix_refl _))]
  | cons c s ih =>
    rw [List.infix_cons_iff, not_or] at h
    rw [List.cons_append, strstr, if_neg, ih h.2]
    · rfl
    · rw [List.isPrefixOf_iff_prefix, ← List.cons_append, Marked.prefix_append_iff hmark (List.cons_ne_nil c s)]
      exact h.1

/-- An occurrence in the text in front is found first. -/
theorem strstr_inside (sfx s t : List Char) (h : sfx <:+: s) :
    ∃ before p, strstr sfx (s ++ t) = some (before, p) ∧ sfx.length + t.length ≤ p.length := by
  induction s with
  | nil =>
    obtain rfl := List.eq_nil_of_infix_nil h
    cases t with
    | nil => exact ⟨[], [], rfl, le_refl _⟩
    | cons c t => exact ⟨[], c :: t, rfl, (Nat.zero_add _).le⟩
  | cons c s ih =>
    rw [List.cons_append, strstr]
    by_cases hstarts : sfx <+: c :: (s ++ t)
    · rw [if_pos (List.isPrefixOf_iff_prefix.mpr hstarts)]
      have hlength := h.length_le
      rw [List.length_cons] at hlength
      refine ⟨[], _, rfl, ?_⟩
      rw [List.length_cons, List.length_append]
      omega
    · have hinside : sfx <:+: s := by
        refine (List.infix_cons_iff.mp h).resolve_left fun hfirst => hstarts ?_
        exact hfirst.trans (List.prefix_append (c :: s) t)
      obtain ⟨before, p, hfound, hlength⟩ := ih hinside
      rw [if_neg (mt List.isPrefixOf_iff_prefix.mp hstarts), hfound]
      exact ⟨c :: before, p, rfl, hlength⟩

theorem remove_suffix_first (mark : Char) (word s : List Char) (hmark : mark ∉ word) (h : ¬ mark :: word <:+: s) :
    remove_suffix (s ++ mark :: word) (mark :: word) = some s := by
  rw [remove_suffix, strstr_skip mark word s hmark h]
  exact if_pos rfl

theorem remove_suffix_twice (sfx s t : List Char) (ht : t ≠ []) (h : sfx <:+: s) :
    remove_suffix (s ++ t) sfx = none := by
  obtain ⟨before, p, hfound, hlength⟩ := strstr_inside sfx s t h
  have hpos := List.length_pos_iff.mpr ht
  rw [remove_suffix, hfound]
  apply if_neg
  rintro rfl
  omega

/-! ## Decoding -/

theorem stream_suffix_eq (stream : Stream) : ∃ word, stream.suffix = ' ' :: word ∧ ' ' ∉ word := by
  cases stream
  · exact ⟨"Playback".toList, rfl, by decide⟩
  · exact ⟨"Capture".toList, rfl, by decide⟩

theorem part_suffix_eq (part : Part) : ∃ word, part.suffix = ' ' :: word ∧ ' ' ∉ word := by
  cases part
  · exact ⟨"Volume".toList, rfl, by decide⟩
  · exact ⟨"Switch".toList, rfl, by decide⟩

/-- The end of a text decides which suffixes it has. -/
theorem not_suffix (s sfx other : List Char) (h : ¬ sfx <:+ other) (h' : ¬ other <:+ sfx) : ¬ sfx <:+ s ++ other :=
  fun hsfx => (List.suffix_or_suffix_of_suffix hsfx (List.suffix_append s other)).elim h h'

theorem getD_of_other (name sfx : List Char) (h : ¬ sfx <:+ name) : (remove_suffix name sfx).getD name = name := by
  rw [remove_suffix_other name sfx h]
  rfl

theorem part_not_suffix (s : List Char) (stream : Stream) (part : Part) : ¬ part.suffix <:+ s ++ stream.suffix := by
  apply not_suffix <;> cases part <;> cases stream <;> decide

theorem stream_not_suffix (s : List Char) (stream : Stream) (part : Part) : ¬ stream.suffix <:+ s ++ part.suffix := by
  apply not_suffix <;> cases part <;> cases stream <;> decide

theorem part_infix_iff (base : List Char) (stream : Stream) (part : Part) :
    part.suffix <:+: base ++ stream.suffix ↔ part.suffix <:+: base := by
  have hnot : ¬ part.suffix <:+: stream.suffix := by cases part <;> cases stream <;> decide
  obtain ⟨word, hpart, hmark⟩ := part_suffix_eq part
  obtain ⟨rest, hstream, -⟩ := stream_suffix_eq stream
  rw [hpart, hstream] at hnot ⊢
  rw [Marked.infix_append_iff hmark, or_iff_left hnot]

theorem remove_part (s : List Char) (part : Part) (h : ¬ part.suffix <:+: s) :
    remove_suffix (s ++ part.suffix) part.suffix = some s := by
  obtain ⟨word, hpart, hmark⟩ := part_suffix_eq part
  rw [hpart] at h ⊢
  exact remove_suffix_first ' ' word s hmark h

theorem remove_part_twice (s : List Char) (part : Part) (h : part.suffix <:+: s) :
    remove_suffix (s ++ part.suffix) part.suffix = none :=
  remove_suffix_twice part.suffix s part.suffix (by cases part <;> decide) h

theorem remove_stream (base : List Char) (stream : Stream) (h : ¬ stream.suffix <:+: base) :
    remove_suffix (base ++ stream.suffix) stream.suffix = some base := by
  obtain ⟨word, hstream, hmark⟩ := stream_suffix_eq stream
  rw [hstream] at h ⊢
  exact remove_suffix_first ' ' word base hmark h

/-- The name after the two suffixes of the kinds were looked for. -/
def strip_part (name : List Char) : List Char :=
  let name := (remove_suffix name " Volume".toList).getD name
  (remove_suffix name " Switch".toList).getD name

theorem strip_part_first (base : List Char) (stream : Stream) (part : Part) (h : ¬ part.suffix <:+: base) :
    strip_part (standard_name base stream part) = base ++ stream.suffix := by
  have hremove := remove_part (base ++ stream.suffix) part ((not_congr (part_infix_iff base stream part)).mpr h)
  have hother (part : Part) := getD_of_other _ _ (part_not_suffix base stream part)
  unfold strip_part standard_name
  cases part with
  | volume =>
    rw [show " Volume".toList = Part.volume.suffix from rfl, hremove]
    exact hother .switch
  | switch =>
    have hkept : ¬ " Volume".toList <:+ base ++ stream.suffix ++ Part.switch.suffix :=
      not_suffix _ _ _ (by decide) (by decide)
    rw [getD_of_other _ _ hkept]
    dsimp only
    rw [show " Switch".toList = Part.switch.suffix from rfl, hremove]
    rfl

/-- A suffix that occurs before is not taken off. -/
theorem strip_part_twice (base : List Char) (stream : Stream) (part : Part) (h : part.suffix <:+: base) :
    strip_part (standard_name base stream part) = standard_name base stream part := by
  have hremove := remove_part_twice (base ++ stream.suffix) part ((part_infix_iff base stream part).mpr h)
  unfold strip_part standard_name
  cases part with
  | volume =>
    have hkept : ¬ " Switch".toList <:+ base ++ stream.suffix ++ Part.volume.suffix :=
      not_suffix _ _ _ (by decide) (by decide)
    rw [show " Volume".toList = Part.volume.suffix from rfl, hremove]
    exact getD_of_other _ _ hkept
  | switch =>
    have hkept : ¬ " Volume".toList <:+ base ++ stream.suffix ++ Part.switch.suffix :=
      not_suffix _ _ _ (by decide) (by decide)
    rw [getD_of_other _ _ hkept]
    dsimp only
    rw [show " Switch".toList = Part.switch.suffix from rfl, hremove]
    rfl

theorem check_direction_first (base : List Char) (stream : Stream) (h : ¬ stream.suffix <:+: base) :
    check_direction (base ++ stream.suffix) = ⟨base, stream.dir⟩ := by
  have hremove := remove_stream base stream h
  unfold check_direction
  cases stream with
  | playback => rw [show " Playback".toList = Stream.playback.suffix from rfl, hremove]; rfl
  | capture =>
    have hkept : ¬ " Playback".toList <:+ base ++ Stream.capture.suffix := not_suffix _ _ _ (by decide) (by decide)
    rw [remove_suffix_other _ _ hkept, show " Capture".toList = Stream.capture.suffix from rfl, hremove]
    rfl

/-- Where neither direction is taken off, the name stays. -/
theorem check_direction_kept (name : List Char) (h : ∀ stream : Stream, remove_suffix name stream.suffix = none) :
    (check_direction name).name = name := by
  unfold check_direction
  rw [show " Playback".toList = Stream.playback.suffix from rfl, h .playback,
    show " Capture".toList = Stream.capture.suffix from rfl, h .capture]
  dsimp only
  split
  · rfl
  · split <;> rfl

theorem check_direction_twice (base : List Char) (stream : Stream) (h : stream.suffix <:+: base) :
    (check_direction (base ++ stream.suffix)).name = base ++ stream.suffix := by
  apply check_direction_kept
  intro other
  by_cases hother : other = stream
  · rw [hother]
    exact remove_suffix_twice stream.suffix base stream.suffix (by cases stream <;> decide) h
  · apply remove_suffix_other
    revert hother
    cases other <;> cases stream <;> intro hother
    · exact absurd rfl hother
    · exact not_suffix _ _ _ (by decide) (by decide)
    · exact not_suffix _ _ _ (by decide) (by decide)
    · exact absurd rfl hother

section Standard

variable {base : List Char} {stream : Stream} {part : Part} (hlength : (standard_name base stream part).length ≤ 43)
  (halias : ∀ p ∈ name_alias, standard_name base stream part ≠ p.1)

include hlength halias

theorem decode_standard : decode_name (standard_name base stream part) =
    check_direction (strip_part (standard_name base stream part)) := by
  have hnone : check_elem_alias (standard_name base stream part) = none := by
    rw [check_elem_alias, Option.map_eq_none_iff, List.find?_eq_none]
    exact fun p hp => by simpa using halias p hp
  unfold decode_name
  rw [List.take_of_length_le (by omega)]
  dsimp only
  rw [hnone]
  rfl

theorem decode_first (hstream : ¬ stream.suffix <:+: base) (hpart : ¬ part.suffix <:+: base) :
    decode_name (standard_name base stream part) = ⟨base, stream.dir⟩ := by
  rw [decode_standard hlength halias, strip_part_first base stream part hpart,
    check_direction_first base stream hstream]

/-- With a suffix that is not taken off the name of the element is longer than the base name. -/
theorem decode_twice (h : stream.suffix <:+: base ∨ part.suffix <:+: base) :
    (decode_name (standard_name base stream part)).name ≠ base := by
  have hlonger (sfx : List Char) (hsfx : sfx ≠ []) : base ++ sfx ≠ base := fun heq =>
    hsfx (List.append_right_eq_self.mp heq)
  have hstream : stream.suffix ≠ [] := by cases stream <;> decide
  rw [decode_standard hlength halias]
  by_cases hpart : part.suffix <:+: base
  · rw [strip_part_twice base stream part hpart, check_direction_kept]
    · rw [standard_name, List.append_assoc]
      exact hlonger _ (List.append_ne_nil_of_left_ne_nil hstream _)
    · exact fun other => remove_suffix_other _ _ (stream_not_suffix _ other part)
  · rw [strip_part_first base stream part hpart, check_direction_twice base stream (h.resolve_right hpart)]
    exact hlonger _ hstream

end Standard

/-! ## The item in its slot -/

/-- The listed mixer elements are there, and no item has an address that is still to be handed out. -/
structure Listed (s : SndMixer) : Prop where
  live : ∀ e ∈ s.pelems, (s.melems e).isSome
  below : ∀ e elem i it, s.melems e = some elem → elem.items i = some it → it < s.next

theorem Inv.listed (s : SndMixer) (hs : Inv s) : Listed s where
  live e he := (hs.held.pelems e).mp he
  below e elem i it helem hslot := by
    obtain ⟨item, -, hitem, -⟩ := hs.held.slot e elem i it helem hslot
    by_contra hnext
    have hfree := (hs.held.fresh it (not_lt.mp hnext)).2.2
    rw [hitem] at hfree
    cases hfree

/-- The ioctls and the allocations work. -/
structure Succeeds (w : World) (s : SndMixer) : Prop where
  info : w.info_errno = 0
  read : w.read_errno = 0
  item : w.alloc_item
  elem : w.alloc_elem
  room : has_room w s

/-- The control has the item, in these slots of a mixer element of that name and in no other ones. -/
def Filed (s : SndMixer) (h it : Nat) (kind : Kind) (name : List Char) (places : List (Fin 5)) : Prop :=
  ∃ he e elem item, s.helems h = some he ∧ he.private_data = some e ∧ e ∈ s.pelems ∧ s.melems e = some elem ∧
    elem.name = name ∧ s.items it = some item ∧ item.helem = h ∧ item.kind = kind ∧
    ∀ i, elem.items i = some it ↔ i ∈ places

theorem Filed.name_unique {s : SndMixer} {h it it' : Nat} {kind kind' : Kind} {name name' : List Char}
    {places places' : List (Fin 5)} (hfiled : Filed s h it kind name places)
    (hfiled' : Filed s h it' kind' name' places') : name = name' := by
  obtain ⟨he, e, elem, item, hhe, hdata, -, helem, hname, -⟩ := hfiled
  obtain ⟨he', e', elem', item', hhe', hdata', -, helem', hname', -⟩ := hfiled'
  obtain rfl : he = he' := Option.some.inj (hhe.symm.trans hhe')
  obtain rfl : e = e' := Option.some.inj (hdata.symm.trans hdata')
  obtain rfl : elem = elem' := Option.some.inj (helem.symm.trans helem')
  exact hname.symm.trans hname'

@[simp] theorem max_channels_name (elem : SndMixerElem) (dir : Fin 2) (channels : Nat) :
    (elem.max_channels dir channels).name = elem.name := by
  unfold SndMixerElem.max_channels
  split <;> rfl

theorem add_cap_name (elem : SndMixerElem) (caps : BitVec 32) (type : Fin 5) (it channels : Nat) :
    (elem.add_cap caps type it channels).name = elem.name := by
  unfold SndMixerElem.add_cap
  dsimp only
  split
  · rfl
  · split <;> simp

theorem find_elem_total (s : SndMixer) (name : List Char) (type : Fin 5) (l : List Nat)
    (hl : ∀ e ∈ l, (s.melems e).isSome) :
    (∃ e ∈ l, ∃ elem, find_elem s name type l 0#32 = some (.inl e) ∧ s.melems e = some elem ∧ elem.name = name) ∨
      ∃ index, find_elem s name type l 0#32 = some (.inr index) := by
  have hfind := find_elem_spec s name type
    (fun e => (s.melems e).any fun elem => elem.name == name && (elem.items type).isNone) l 0#32
    (fun e he => by
      obtain ⟨elem, helem⟩ := Option.isSome_iff_exists.mp (hl e he)
      exact ⟨elem, helem, by simp [helem]⟩)
  split at hfind
  · rename_i e hfound
    have hmem := List.mem_of_find?_eq_some hfound
    obtain ⟨elem, helem⟩ := Option.isSome_iff_exists.mp (hl e hmem)
    have htakes := List.find?_some hfound
    rw [helem, Option.any_some, Bool.and_eq_true, beq_iff_eq] at htakes
    exact .inl ⟨e, hmem, elem, hfind, helem, htakes.1⟩
  · exact .inr hfind

section Files

variable (w : World) (s : SndMixer) (h : Nat) (he : SndHctlElem) (caps : BitVec 32) (type : Fin 5) (kind : Kind)
  (hs : Listed s) (hw : Succeeds w s) (hhe : s.helems h = some he)
  (htype : item_type (decode_name he.id.name).dir w.type = some (caps, type, kind))

include hhe htype in
theorem filed_add_cap (t u : SndMixer) (e : Nat) (elem : SndMixerElem) (hhelems : t.helems = s.helems)
    (hitem : t.items s.next = some (made_item w h kind)) (hfresh : ∀ i, elem.items i ≠ some s.next)
    (hu : u.helems = (add_cap t e elem caps type s.next (made_item w h kind)).helems)
    (hmelems : u.melems = (add_cap t e elem caps type s.next (made_item w h kind)).melems)
    (hitems : u.items = t.items) (hmem : e ∈ u.pelems) :
    Filed u h s.next kind elem.name (slots (decode_name he.id.name).dir kind) := by
  refine ⟨{ he with private_data := some e }, e, elem.add_cap caps type s.next w.count, made_item w h kind, ?_, rfl,
    hmem, ?_, add_cap_name _ _ _ _ _, ?_, rfl, rfl, fun i => ?_⟩
  · rw [hu]
    unfold add_cap made_item
    dsimp only
    rw [Function.update_self, hhelems, hhe]
    rfl
  · rw [hmelems]
    exact Function.update_self _ _ _
  · rw [hitems]
    exact hitem
  · rw [add_cap_items elem _ _ caps type kind s.next w.count htype]
    split
    · rename_i hi
      exact ⟨fun _ => hi, fun _ => rfl⟩
    · rename_i hi
      exact ⟨fun h => absurd h (hfresh i), fun h => absurd h hi⟩

include hs hw hhe htype in
/-- Where everything works, the item goes to a mixer element of the decoded name. -/
theorem add_simple_element_files (hname : (decode_name he.id.name).name.length ≤ 59) :
    ∃ err s', add_simple_element w s h = some (err, s') ∧
      Filed s' h s.next kind (decode_name he.id.name).name (slots (decode_name he.id.name).dir kind) := by
  have hsome : creates w (decode_name he.id.name).dir = some (caps, type, kind) := by
    unfold creates
    rw [if_pos ⟨hw.info, hw.read, hw.item⟩]
    exact htype
  have hitem : (with_item w s h kind).items s.next = some (made_item w h kind) := Function.update_self _ _ _
  rcases find_elem_total (with_item w s h kind) (decode_name he.id.name).name type s.pelems hs.live with
    ⟨e, hmem, elem, hfind, helem, heq⟩ | ⟨index, hfind⟩
  · refine ⟨0, _, add_found w s h he caps type kind hhe hsome e elem helem hfind, ?_⟩
    rw [← heq]
    apply filed_add_cap w s h he caps type kind hhe htype (with_item w s h kind) _ e elem rfl hitem _ rfl rfl rfl hmem
    intro i hslot
    exact absurd (hs.below e elem i _ helem hslot) (lt_irrefl _)
  · have hadd := add_not_found w s h he caps type kind hhe hsome index hfind
    rw [if_neg (not_not_intro hw.elem)] at hadd
    unfold add_mixer_elem at hadd
    rw [if_neg fun hfull => hfull.2 (hw.room hfull.1)] at hadd
    refine ⟨_, _, hadd, ?_⟩
    have hcut : (new_mixer_elem (decode_name he.id.name).name index).name = (decode_name he.id.name).name :=
      List.take_of_length_le hname
    have hempty (i : Fin 5) : (new_mixer_elem (decode_name he.id.name).name index).items i ≠ some s.next := by
      unfold new_mixer_elem
      exact nofun
    have hfiled (u : SndMixer) := filed_add_cap w s h he caps type kind hhe htype
      { with_item w s h kind with next := s.next + 2 } u (s.next + 1) _ rfl hitem hempty
    rw [hcut] at hfiled
    refine hfiled _ rfl rfl rfl ?_
    exact (w.compare.perm _).mem_iff.mpr (List.mem_append_right _ (List.mem_singleton.mpr rfl))

end Files

theorem slots_standard (stream : Stream) (part : Part) : slots stream.dir part.kind = [part.slot stream] := by
  cases stream <;> cases part <;> rfl

theorem item_type_part (dir : Direction) (part : Part) :
    ∃ caps type, item_type dir part.type = some (caps, type, part.kind) := by
  cases dir <;> cases part <;> exact ⟨_, _, rfl⟩

section Standard

variable (w : World) (s : SndMixer) (h : Nat) (he : SndHctlElem) (base : List Char) (stream : Stream) (part : Part)
  (hs : Listed s) (hw : Succeeds w s) (hhe : s.helems h = some he)
  (hname : he.id.name = standard_name base stream part) (htype : w.type = part.type)
  (hlength : (standard_name base stream part).length ≤ 43)
  (halias : ∀ p ∈ name_alias, standard_name base stream part ≠ p.1)

include hs hw hhe hname htype hlength

theorem standard_files : ∃ err s', add_simple_element w s h = some (err, s') ∧
    Filed s' h s.next part.kind (decode_name (standard_name base stream part)).name
      (slots (decode_name (standard_name base stream part)).dir part.kind) := by
  obtain ⟨caps, type, hitem⟩ := item_type_part (decode_name he.id.name).dir part
  rw [← htype] at hitem
  have hshort : (decode_name he.id.name).name.length ≤ 59 := by
    have hdecoded := decode_name_length (standard_name base stream part) 43 (by decide) hlength
    rw [hname]
    omega
  rw [← hname]
  exact add_simple_element_files w s h he caps type part.kind hs hw hhe hitem hshort

include halias

theorem not_filed_of_twice (htwice : stream.suffix <:+: base ∨ part.suffix <:+: base) :
    ¬ ∃ err s', add_simple_element w s h = some (err, s') ∧ Filed s' h s.next part.kind base [part.slot stream] := by
  obtain ⟨err, s', hadd, hfiled⟩ := standard_files w s h he base stream part hs hw hhe hname htype hlength
  rintro ⟨err', s'', hadd', hbase⟩
  obtain ⟨rfl, rfl⟩ := Prod.mk.inj (Option.some.inj (hadd.symm.trans hadd'))
  exact decode_twice hlength halias htwice (hfiled.name_unique hbase)

/-- The item of a standard name goes to the element of the base name, in the slot of its direction only, if and only
if neither of the suffixes occurs in the base name. -/
theorem filed_iff :
    (∃ err s', add_simple_element w s h = some (err, s') ∧ Filed s' h s.next part.kind base [part.slot stream]) ↔
      ¬ stream.suffix <:+: base ∧ ¬ part.suffix <:+: base := by
  constructor
  · intro hfiled
    by_contra hnot
    rw [not_and_or, not_not, not_not] at hnot
    exact not_filed_of_twice w s h he base stream part hs hw hhe hname htype hlength halias hnot hfiled
  · rintro ⟨hstream, hpart⟩
    have hfiled := standard_files w s h he base stream part hs hw hhe hname htype hlength
    rwa [decode_first hlength halias hstream hpart, slots_standard] at hfiled

end Standard

/-! A mixer with one control that is not registered yet. -/

def with_control (name : List Char) : SndMixer :=
  { attached with
    hctl := [0]
    helems := Function.update (fun _ => none) 0 (some { id := volume_id name, callback := true, private_data := none })
    next := 1 }

theorem with_control_listed (name : List Char) : Listed (with_control name) where
  live _ h := absurd h List.not_mem_nil
  below _ _ _ _ h := by cases h

theorem with_control_succeeds (name : List Char) : Succeeds volume_world (with_control name) := by
  constructor <;> try rfl
  exact fun _ => rfl

theorem filed_pcm : ∃ err s', add_simple_element volume_world (with_control "PCM Playback Volume".toList) 0 =
    some (err, s') ∧ Filed s' 0 1 .volume "PCM".toList [SND_SELEM_ITEM_PVOLUME] :=
  (filed_iff volume_world (with_control "PCM Playback Volume".toList) 0 _ "PCM".toList .playback .volume
    (with_control_listed _) (with_control_succeeds _) rfl rfl rfl (by decide) (by decide)).mpr (by decide)

/-- The inner " Volume" is found, and the name goes to a global element as it is. -/
theorem inner_volume_is_global : ¬ ∀ w s h he base stream part, Listed s → Succeeds w s → s.helems h = some he →
    he.id.name = standard_name base stream part → w.type = part.type → base ≠ [] →
    (standard_name base stream part).length ≤ 43 → (∀ p ∈ name_alias, standard_name base stream part ≠ p.1) →
    ∃ err s', add_simple_element w s h = some (err, s') ∧
      Filed s' h s.next part.kind base [part.slot stream] := by
  intro h
  have hfiled := h volume_world (with_control "Mic Volume Playback Volume".toList) 0 _ "Mic Volume".toList .playback
    .volume (with_control_listed _) (with_control_succeeds _) rfl rfl rfl (by decide) (by decide) (by decide)
  refine not_filed_of_twice volume_world _ 0 _ "Mic Volume".toList .playback .volume (with_control_listed _)
    (with_control_succeeds _) rfl rfl rfl (by decide) (by decide) (.inr (by decide)) hfiled

end Salsa.Mixer
