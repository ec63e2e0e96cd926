import Salsa.Hctl.Load
import Salsa.Mixer.Filing

/-!
# The mixer of a card

The functions of `hcontrol.c` with the callbacks of a mixer, next to a kernel whose controls come and go. What the
mixer shows are the controls of the card.
-/

namespace Salsa.Mixer.Mirror

open Cells Ctl Run
open Hctl (SndCtlEvent KernelElems Session Phase SndCtlElemList is_found SND_CTL_EVENT_ELEM SND_CTL_EVENT_MASK_ADD
  SND_CTL_EVENT_MASK_REMOVE SND_CTL_EVENT_MASK_VALUE SND_CTL_EVENT_MASK_INFO)

/-! ## The hctl of the mixer -/

def find_loop (s : SndMixer) (id : SndCtlElemId) : List Nat → Option (Option Nat)
  | [] => some none
  | h :: rest => (s.helems h).bind fun he => if is_found id he.id then some (some h) else find_loop s id rest

def snd_hctl_find_elem (s : SndMixer) (id : SndCtlElemId) : Option (Option Nat) := find_loop s id s.hctl

/-- The callback of the hctl is `hctl_event_handler`. -/
def snd_hctl_throw_event (w : World) (s : SndMixer) (h : Nat) : Option (Int × SndMixer) := hctl_event_handler w s h

def snd_hctl_elem_throw_event (w : World) (s : SndMixer) (h : Nat) (mask : BitVec 32) : Option (Int × SndMixer) :=
  (s.helems h).bind fun he => if he.callback then hctl_elem_event_handler w s h mask else some (0, s)

def snd_hctl_elem_add (w : World) (s : SndMixer) (id : SndCtlElemId) : Option (Int × SndMixer) :=
  (snd_hctl_find_elem s id).bind fun found =>
    if found.isSome then some (-EBUSY, s) else snd_hctl_throw_event w (listed s id false) s.next

/-- The part of `snd_hctl_handle_event` for `SND_CTL_EVENT_MASK_ADD`. -/
def handle_add (w : World) (alloc : Bool) (s : SndMixer) (event : SndCtlEvent) : Option (Int × SndMixer) :=
  if event.mask &&& SND_CTL_EVENT_MASK_ADD = 0#32 then some (0, s)
  else if ¬ alloc then some (-ENOMEM, s)
  else snd_hctl_elem_add w s event.id

/-- An event may call back twice, for the new element and for its value or info. -/
def snd_hctl_handle_event (w w' : World) (alloc : Bool) (s : SndMixer) (event : SndCtlEvent) :
    Option (Int × SndMixer) :=
  if event.type ≠ SND_CTL_EVENT_ELEM then some (0, s)
  else if event.mask = SND_CTL_EVENT_MASK_REMOVE then
    (snd_hctl_find_elem s event.id).bind fun found =>
      match found with
      | none => some (-ENOENT, s)
      | some h => (s.helems h).bind fun he => (snd_hctl_elem_remove w s h he).map fun s => (0, s)
  else
    (handle_add w alloc s event).bind fun added =>
      let mask := event.mask &&& (SND_CTL_EVENT_MASK_VALUE ||| SND_CTL_EVENT_MASK_INFO)
      if added.1 < 0 then some added
      else if mask = 0#32 then some (0, added.2)
      else
        (snd_hctl_find_elem added.2 event.id).bind fun found =>
          match found with
          | none => some (-ENOENT, added.2)
          | some h => (snd_hctl_elem_throw_event w' added.2 h mask).map fun thrown => (min 0 thrown.1, thrown.2)

/-- The first loop of `snd_hctl_load` over the listed ids, from `idx` on, and whether it comes to its end. -/
def insert_loop (alloc : Nat → Bool) : Nat → List SndCtlElemId → SndMixer → Bool × SndMixer
  | _, [], s => (true, s)
  | idx, id :: pids, s => if alloc idx then insert_loop alloc (idx + 1) pids (listed s id false) else (false, s)

/-- The second loop, over the elements. What the callback returns is not looked at. -/
def throw_loop (w : Nat → World) : List Nat → SndMixer → Option SndMixer
  | [], s => some s
  | h :: l, s => (snd_hctl_throw_event (w h) s h).bind fun thrown => throw_loop w l thrown.2

/-! ## The card -/

/-- A card and the mixer that is attached to it. -/
structure System where
  kernel : KernelElems
  subscribed : Bool
  queue : List SndCtlEvent
  phase : Phase
  mixer : SndMixer

inductive Act where
  | kernel_add (id : SndCtlElemId)
  | kernel_remove (id : SndCtlElemId)
  /-- The value or the info of a control changes. -/
  | kernel_notify (mask : BitVec 32) (id : SndCtlElemId)
  /-- `SNDRV_CTL_IOCTL_ELEM_LIST`, behind the allocation of space if it is not the first. -/
  | list (alloc : Bool) (errno : Nat) (w : Nat → World)
  /-- The insertion of the ids, and the callbacks for them. -/
  | insert (alloc : Nat → Bool) (w : Nat → World)
  | subscribe (errno : Nat) (w : Nat → World)
  /-- One round of `snd_hctl_handle_events`. -/
  | handle (alloc : Bool) (w w' : World)

def attached_to (kernel : KernelElems) : System :=
  { kernel, subscribed := false, queue := [], phase := .unloaded, mixer := attached }

def id_of (s : SndMixer) (h : Nat) : SndCtlElemId := (s.helems h).elim zeroed_id SndHctlElem.id

def ids (s : SndMixer) : List SndCtlElemId := s.hctl.map (id_of s)

/-- The card as the hctl knows it, with the ids for the elements. -/
def System.session (s : System) : Session :=
  { kernel := s.kernel, subscribed := s.subscribed, queue := s.queue, hctl := ids s.mixer, phase := s.phase }

/-- What the kernel does leaves the elements of the hctl. -/
def System.after (s : System) (t : Session) : System :=
  { s with kernel := t.kernel, subscribed := t.subscribed, queue := t.queue, phase := t.phase }

/-- The label `_end` with an error. -/
def System.fail (s : System) (w : Nat → World) : Option System :=
  (run Mixer.step s.mixer (snd_hctl_free w s.mixer)).map fun mixer => { s with mixer, phase := .unloaded }

def snd_ctl_elem_list (s : System) (space errno : Nat) (w : Nat → World) : Option System :=
  if errno ≠ 0 then s.fail w
  else
    some
      { s with
        phase := .listed
          { space, used := min space s.kernel.ids.length, count := s.kernel.ids.length
            pids := s.kernel.ids.take space } }

def System.list (s : System) (alloc : Bool) (errno : Nat) (w : Nat → World) : Option System :=
  match s.phase with
  | .unloaded => snd_ctl_elem_list s 0 errno w
  | .listed list =>
    if list.count = list.used then some s
    else if ¬ alloc then s.fail w
    else snd_ctl_elem_list s list.count errno w
  | _ => some s

def System.insert (s : System) (alloc : Nat → Bool) (w : Nat → World) : Option System :=
  match s.phase with
  | .listed list =>
    if list.count ≠ list.used then some s
    else
      let inserted := insert_loop alloc 0 list.pids s.mixer
      if ¬ inserted.1 then { s with mixer := inserted.2 }.fail w
      else (throw_loop w inserted.2.hctl inserted.2).map fun mixer => { s with mixer, phase := .inserted list }
  | _ => some s

def System.subscribe (s : System) (errno : Nat) (w : Nat → World) : Option System :=
  match s.phase with
  | .inserted _ => if errno ≠ 0 then s.fail w else some { s with subscribed := true, phase := .loaded }
  | _ => some s

def System.handle (s : System) (alloc : Bool) (w w' : World) : Option System :=
  match s.phase, s.queue with
  | .loaded, event :: queue =>
    (snd_hctl_handle_event w w' alloc s.mixer event).map fun handled => { s with mixer := handled.2, queue }
  | _, _ => some s

def step (s : System) : Act → Option System
  | .kernel_add id => some (s.after (s.session.kernel_add id))
  | .kernel_remove id => some (s.after (s.session.kernel_remove id))
  | .kernel_notify mask id => some (s.after (s.session.kernel_notify mask id))
  | .list alloc errno w => s.list alloc errno w
  | .insert alloc w => s.insert alloc w
  | .subscribe errno w => s.subscribe errno w
  | .handle alloc w w' => s.handle alloc w w'

/-! ## What is to hold -/

/-- The mixer element shows the control with the id: it has its name, and an item of its kind in the slots for it. -/
def ShowsControl (s : SndMixer) (id : SndCtlElemId) (kind : Kind) (e : Nat) : Prop :=
  ∃ elem it item, s.melems e = some elem ∧ elem.name = filing_name id ∧ s.items it = some item ∧ item.kind = kind ∧
    ∀ i, elem.items i = some it ↔ i ∈ slots (decode_name id.name).dir kind

/-- Each control that is to be shown is, and each slot of a mixer element shows a control. -/
structure Shows (type : SndCtlElemId → CtlType) (controls : List SndCtlElemId) (s : SndMixer) : Prop where
  all : ∀ id ∈ controls, ∀ kind, shown type id = some kind → ∃ e ∈ s.pelems, ShowsControl s id kind e
  only : ∀ e ∈ s.pelems, ∃ elem, s.melems e = some elem ∧ (∃ i, (elem.items i).isSome) ∧
    ∀ i, (elem.items i).isSome → ∃ id ∈ controls, ∃ kind, shown type id = some kind ∧ ShowsControl s id kind e ∧
      i ∈ slots (decode_name id.name).dir kind

/-- With nothing left to handle, the mixer shows the controls of the card. -/
def Mirrors (type : SndCtlElemId → CtlType) (s : System) : Prop :=
  s.phase = .loaded → s.queue = [] → Shows type s.kernel.ids s.mixer

/-! ## The ids -/

section Ids

variable {s t : SndMixer}

theorem id_of_eq {h : Nat} {he : SndHctlElem} (hhe : s.helems h = some he) : id_of s h = he.id := by
  rw [id_of, hhe]
  rfl

theorem ids_of_same (h : SameIds s t) : ids t = ids s := by
  unfold ids
  rw [h.hctl]
  refine List.map_congr_left fun x _ => ?_
  have hid := h.id x
  unfold id_of
  cases hs : s.helems x with
  | none =>
    rw [hs, Option.map_none, Option.map_eq_none_iff] at hid
    rw [hid]
  | some he =>
    rw [hs, Option.map_some, Option.map_eq_some_iff] at hid
    obtain ⟨he', ht, heq⟩ := hid
    rw [ht]
    exact heq

theorem mem_ids (hs : Inv s) (id : SndCtlElemId) : id ∈ ids s ↔ ∃ h he, s.helems h = some he ∧ he.id = id := by
  unfold ids
  rw [List.mem_map]
  constructor
  · rintro ⟨h, hmem, rfl⟩
    obtain ⟨he, hhe⟩ := Option.isSome_iff_exists.mp ((hs.hctl h).mp hmem)
    exact ⟨h, he, hhe, (id_of_eq hhe).symm⟩
  · rintro ⟨h, he, hhe, rfl⟩
    exact ⟨h, (hs.hctl h).mpr (by rw [hhe]; rfl), id_of_eq hhe⟩

theorem ids_listed (hs : Inv s) (id : SndCtlElemId) : ids (listed s id false) = ids s ++ [id] := by
  show (s.hctl ++ [s.next]).map (id_of (listed s id false)) = _
  rw [List.map_append, List.map_singleton, id_of_eq (listed_self s id false)]
  refine congrArg (· ++ [id]) (List.map_congr_left fun x hx => ?_)
  obtain ⟨he, hhe⟩ := Option.isSome_iff_exists.mp ((hs.hctl x).mp hx)
  rw [id_of_eq hhe, id_of_eq (helem_listed s hs.held.toFilled id false x he hhe)]

theorem find_loop_eq (id : SndCtlElemId) (l : List Nat) (hl : ∀ h ∈ l, (s.helems h).isSome) :
    find_loop s id l = some (((l.map (id_of s)).findIdx? (is_found id)).bind (l[·]?)) := by
  induction l with
  | nil => rfl
  | cons h l ih =>
    obtain ⟨he, hhe⟩ := Option.isSome_iff_exists.mp (hl h List.mem_cons_self)
    rw [find_loop, hhe, Option.bind_some, List.map_cons, List.findIdx?_cons, id_of_eq hhe]
    by_cases hfound : is_found id he.id = true
    · simp [hfound]
    · rw [if_neg hfound, if_neg hfound, ih fun x hx => hl x (List.mem_cons_of_mem h hx)]
      cases (l.map (id_of s)).findIdx? (is_found id) <;> simp

theorem find_elem_eq (hs : Inv s) (id : SndCtlElemId) :
    snd_hctl_find_elem s id = some ((Hctl.snd_hctl_find_elem (ids s) id).bind (s.hctl[·]?)) :=
  find_loop_eq id s.hctl fun h hh => (hs.hctl h).mp hh

/-- An element that is found is one of those in the list. -/
theorem find_elem_some (hs : Inv s) (id : SndCtlElemId) (i : Nat)
    (h : Hctl.snd_hctl_find_elem (ids s) id = some i) :
    ∃ x he, s.hctl[i]? = some x ∧ s.helems x = some he ∧ snd_hctl_find_elem s id = some (some x) := by
  have hlt : i < s.hctl.length := by
    have hlt := (List.findIdx?_eq_some_iff_findIdx_eq.mp h).1
    rwa [ids, List.length_map] at hlt
  obtain ⟨he, hhe⟩ := Option.isSome_iff_exists.mp ((hs.hctl _).mp (List.getElem_mem hlt))
  refine ⟨s.hctl[i], he, List.getElem?_eq_getElem hlt, hhe, ?_⟩
  rw [find_elem_eq hs, h, Option.bind_some, List.getElem?_eq_getElem hlt]

end Ids

/-! ## The callbacks -/

/-- A new control `h` that gets an item finds both slots of a global item free, and room in the list for a mixer
element that it needs. -/
def TellsOwn (w : World) (s : SndMixer) (h : Nat) (id : SndCtlElemId) : Prop :=
  match creates w (decode_name id.name).dir with
  | none => True
  | some (caps, type, _) =>
    match place s h (decode_name id.name).name type with
    | some e => ∀ elem, s.melems e = some elem → is_global caps → elem.items (type + 1) = none
    | none => w.alloc_elem → has_room w s

/-- What is to hold of a control that the mixer is told of. -/
def Told (type : SndCtlElemId → CtlType) (w : World) (s : SndMixer) (h : Nat) : Prop :=
  ∀ he, s.helems h = some he → he.id.iface = SND_CTL_ELEM_IFACE_MIXER → Serves type w he.id ∧ TellsOwn w s h he.id

section Callbacks

variable {type : SndCtlElemId → CtlType} {w : World} {s : SndMixer} {h : Nat} {he : SndHctlElem}
  (hs : Inv s) (hhe : s.helems h = some he) (hdata : he.private_data = none)

include hs hhe hdata

theorem inv_called :
    Inv { s with helems := Function.update s.helems h (some { he with callback := true }) } := by
  have hold (h' : Nat) (he' : SndHctlElem) (e : Nat)
      (hhe' : Function.update s.helems h (some { he with callback := true }) h' = some he')
      (hdata' : he'.private_data = some e) : s.helems h' = some he' := by
    rcases stored_eq_some.mp hhe' with ⟨-, rfl⟩ | ⟨-, hold⟩
    · exact absurd (hdata.symm.trans hdata') (Option.some_ne_none e).symm
    · exact hold
  have hnew (h' : Nat) (he' : SndHctlElem) (e : Nat) (hhe' : s.helems h' = some he')
      (hdata' : he'.private_data = some e) :
      Function.update s.helems h (some { he with callback := true }) h' = some he' := by
    refine stored_eq_some.mpr (Or.inr ⟨?_, hhe'⟩)
    rintro rfl
    rw [hhe] at hhe'
    rw [← Option.some.inj hhe', hdata] at hdata'
    cases hdata'
  refine
    { hctl_nodup := hs.hctl_nodup, hctl := ?_, used := hs.used
      held := { hs.held with fresh := ?_, callback := ?_, slot := ?_, item := ?_, owner := ?_ } }
  · intro h'
    rw [hs.hctl h']
    rcases eq_or_ne h' h with rfl | hne
    · simp [hhe]
    · simp [hne]
  · intro n hn
    obtain ⟨hhelem, hmelem, hitem⟩ := hs.held.fresh n hn
    exact ⟨(Function.update_of_ne (ne_of_free hhelem hhe).symm _ _).trans hhelem, hmelem, hitem⟩
  · intro h' he' e hhe' hdata'
    exact hs.held.callback h' he' e (hold h' he' e hhe' hdata') hdata'
  · intro e elem i it helem hslot
    obtain ⟨item, he', hitem, hhe', hdata', hrest⟩ := hs.held.slot e elem i it helem hslot
    exact ⟨item, he', hitem, hnew _ he' e hhe' hdata', hdata', hrest⟩
  · intro it item hitem
    obtain ⟨hne, he', hhe', hsome⟩ := hs.held.item it item hitem
    obtain ⟨e, hdata'⟩ := Option.isSome_iff_exists.mp hsome
    exact ⟨hne, he', hnew _ he' e hhe' hdata', hsome⟩
  · intro h' he' e hhe' hdata' hx
    exact hs.held.owner h' he' e (hold h' he' e hhe' hdata') hdata' hx

theorem add_told (hown : TellsOwn w s h he.id) :
    ∃ err t,
      add_simple_element w { s with helems := Function.update s.helems h (some { he with callback := true }) } h =
        some (err, t) ∧ Inv t := by
  have hinv := inv_called hs hhe hdata
  set s' : SndMixer := { s with helems := Function.update s.helems h (some { he with callback := true }) } with hs'
  have hself : s'.helems h = some { he with callback := true } := Function.update_self _ _ _
  have hheld := (held_of_unplaced s' h _ hself hdata).mp hinv.held
  unfold TellsOwn at hown
  split at hown
  · rename_i hnone
    obtain ⟨err, hadd⟩ := add_none w s' h _ hself hnone
    exact ⟨err, s', hadd, hinv⟩
  · rename_i caps slot kind hsome
    split at hown
    · rename_i e hplace
      obtain ⟨t, hadd, hregistered, hused, -⟩ :=
        add_existing w s' h _ caps slot kind hheld hself rfl hsome e hplace hown
      exact ⟨0, t, hadd, hinv.registered h s' t hregistered
        (hused fun e' elem helem _ => hinv.used e' elem helem (by simp))⟩
    · rename_i hplace
      by_cases halloc : w.alloc_elem
      · obtain ⟨err, t, hadd, hregistered, hused, -⟩ :=
          add_new w s' h _ caps slot kind hheld hself rfl hsome hplace halloc (hown halloc)
        exact ⟨err, t, hadd, hinv.registered h s' t hregistered (hused hinv.used)⟩
      · have hadd := add_unplaced w s' h _ caps slot kind hheld.toFilled (fun e => (hheld.pelems e).mp) hself hsome
          hplace halloc
        refine ⟨_, _, hadd, ?_⟩
        exact { hinv with held := hinv.held.congr _ _ none rfl rfl rfl (.refl _) (Nat.le_succ _) }

theorem throw_event_spec {untold : List Nat} (hlabelled : Labelled type s (h :: untold)) (htold : Told type w s h) :
    ∃ err t, snd_hctl_throw_event w s h = some (err, t) ∧ Inv t ∧ Labelled type t untold ∧ SameIds s t ∧
      ∀ h', h' ≠ h → t.helems h' = s.helems h' := by
  have hhandle : ∃ err t, snd_hctl_throw_event w s h = some (err, t) ∧ Inv t := by
    unfold snd_hctl_throw_event hctl_event_handler
    rw [hhe, Option.bind_some]
    split
    · exact ⟨0, s, rfl, hs⟩
    · rename_i hiface
      exact add_told hs hhe hdata (htold he hhe (not_not.mp hiface)).2
  obtain ⟨err, t, hhandle, hinv⟩ := hhandle
  exact ⟨err, t, hhandle, hinv, throw_add_labelled hlabelled hhe (fun hiface => (htold he hhe hiface).1) hhandle⟩

end Callbacks

/-! ## Elements that come and go -/

section Elements

variable {type : SndCtlElemId → CtlType} {w : World} {s : SndMixer} {untold : List Nat}

theorem labelled_listed (hs : Labelled type s untold) (id : SndCtlElemId) :
    Labelled type (listed s id false) (untold ++ [s.next]) := by
  have hold (h' : Nat) (he' : SndHctlElem) (hhe' : (listed s id false).helems h' = some he') :
      h' = s.next ∧ he' = { id, callback := false, private_data := none } ∨ h' ≠ s.next ∧ s.helems h' = some he' := by
    rcases stored_eq_some.mp hhe' with ⟨heq, rfl⟩ | hold
    · exact Or.inl ⟨heq, rfl⟩
    · exact Or.inr hold
  refine
    { helem_lt := ?_, melem_lt := fun e h => Nat.lt_succ_of_lt (hs.melem_lt e h), short := hs.short, data_lt := ?_
      item_lt := fun it item h => Nat.lt_succ_of_lt (hs.item_lt it item h), named := ?_, kind := ?_, all := ?_ }
  · intro h' hsome
    obtain ⟨he', hhe'⟩ := Option.isSome_iff_exists.mp hsome
    rcases hold h' he' hhe' with ⟨rfl, -⟩ | ⟨-, hhold⟩
    · exact Nat.lt_succ_self _
    · exact Nat.lt_succ_of_lt (hs.helem_lt h' (by rw [hhold]; rfl))
  · intro h' he' e hhe' hdata
    rcases hold h' he' hhe' with ⟨-, rfl⟩ | ⟨-, hhold⟩
    · cases hdata
    · exact Nat.lt_succ_of_lt (hs.data_lt h' he' e hhold hdata)
  · intro h' he' e elem hhe' hdata helem
    rcases hold h' he' hhe' with ⟨-, rfl⟩ | ⟨-, hhold⟩
    · cases hdata
    · exact hs.named h' he' e elem hhold hdata helem
  · intro it item he' hitem hhe'
    rcases hold _ he' hhe' with ⟨heq, -⟩ | ⟨-, hhold⟩
    · exact absurd (hs.item_lt it item hitem) (heq ▸ Nat.lt_irrefl _)
    · exact hs.kind it item he' hitem hhold
  · intro h' he' hhe' hsome hne
    obtain ⟨hnot, hnext⟩ := not_or.mp (mt List.mem_append.mpr hne)
    rcases hold h' he' hhe' with ⟨rfl, -⟩ | ⟨-, hhold⟩
    · exact absurd (List.mem_singleton_self _) hnext
    · exact hs.all h' he' hhold hsome hnot

theorem labelled_freed (hs : Labelled type s untold) (h : Nat) : Labelled type (freed s h) untold := by
  have hold (h' : Nat) (he' : SndHctlElem) (hhe' : (freed s h).helems h' = some he') : s.helems h' = some he' :=
    (freed_eq_some.mp hhe').2
  refine { hs with helem_lt := ?_, data_lt := ?_, named := ?_, kind := ?_, all := ?_ }
  · intro h' hsome
    obtain ⟨he', hhe'⟩ := Option.isSome_iff_exists.mp hsome
    exact hs.helem_lt h' (by rw [hold h' he' hhe']; rfl)
  · exact fun h' he' e hhe' => hs.data_lt h' he' e (hold h' he' hhe')
  · exact fun h' he' e elem hhe' => hs.named h' he' e elem (hold h' he' hhe')
  · exact fun it item he' hitem hhe' => hs.kind it item he' hitem (hold _ he' hhe')
  · exact fun h' he' hhe' => hs.all h' he' (hold h' he' hhe')

theorem elem_remove_labelled {t : SndMixer} {h : Nat} {he : SndHctlElem} (hlabelled : Labelled type s untold)
    (hhe : s.helems h = some he) (hremove : snd_hctl_elem_remove w s h he = some t) :
    Labelled type t untold ∧ t.hctl = s.hctl.erase h ∧
      ∀ x, x ≠ h → (t.helems x).map SndHctlElem.id = (s.helems x).map SndHctlElem.id := by
  have hstart : Labelled type { s with hctl := s.hctl.erase h } untold := { hlabelled with }
  unfold snd_hctl_elem_remove at hremove
  obtain ⟨p, hhandled, rfl⟩ := Option.map_eq_some_iff.mp hremove
  have hmid : Labelled type p.2 untold ∧ SameIds { s with hctl := s.hctl.erase h } p.2 := by
    split at hhandled
    · exact throw_elem_labelled hstart hhe (fun hne => absurd rfl hne) hhandled
    · obtain rfl := Option.some.inj hhandled
      exact ⟨hstart, SameIds.refl _⟩
  refine ⟨labelled_freed hmid.1 h, hmid.2.hctl, fun x hne => ?_⟩
  dsimp only
  rw [Function.update_of_ne hne]
  exact hmid.2.id x

theorem elem_remove_spec (hs : Inv s) (hlabelled : Labelled type s untold) (h i : Nat) (he : SndHctlElem)
    (hi : s.hctl[i]? = some h) (hhe : s.helems h = some he) (hown : RemovesOwn w s h) :
    ∃ t, snd_hctl_elem_remove w s h he = some t ∧ Inv t ∧ Labelled type t untold ∧ ids t = (ids s).eraseIdx i := by
  obtain ⟨t, hremove, hinv, -⟩ := snd_hctl_elem_remove_spec w s hs h he hhe hown
  obtain ⟨hafter, hctl, hframe⟩ := elem_remove_labelled hlabelled hhe hremove
  refine ⟨t, hremove, hinv, hafter, ?_⟩
  obtain ⟨hlt, hget⟩ := List.getElem?_eq_some_iff.mp hi
  have herase : s.hctl.erase h = s.hctl.eraseIdx i := by
    rw [← hget, hs.hctl_nodup.erase_getElem]
  rw [ids, ids, hctl, herase, List.eraseIdx_map]
  refine List.map_congr_left fun x hx => ?_
  rw [← herase, hs.hctl_nodup.mem_erase_iff] at hx
  obtain ⟨hex, hhex⟩ := Option.isSome_iff_exists.mp ((hs.hctl x).mp hx.2)
  have hid := hframe x hx.1
  rw [hhex, Option.map_some] at hid
  obtain ⟨hex', hhex', hid⟩ := Option.map_eq_some_iff.mp hid
  rw [id_of_eq hhex, id_of_eq hhex', hid]

theorem step_remove_labelled {t : SndMixer} {h : Nat} (hlabelled : Labelled type s untold)
    (hstep : Mixer.step s (.remove h w) = some t) : Labelled type t untold := by
  unfold Mixer.step at hstep
  cases hhe : s.helems h with
  | none =>
    simp only [hhe] at hstep
    exact Option.some.inj hstep ▸ hlabelled
  | some he =>
    simp only [hhe] at hstep
    exact (elem_remove_labelled hlabelled hhe hstep).1

/-- With all elements gone the mixer has been told of those that are left. -/
theorem Labelled.emptied (hs : Inv s) (hlabelled : Labelled type s untold) (hempty : s.hctl = []) :
    Labelled type s [] := by
  refine { hlabelled with all := fun h he hhe _ _ => ?_ }
  have hmem := (hs.hctl h).mpr (by rw [hhe]; rfl)
  rw [hempty] at hmem
  cases hmem

theorem free_spec (hs : Inv s) (hlabelled : Labelled type s untold) (w : Nat → World)
    (hintact : AllSteps Mixer.step Intact s (snd_hctl_free w s)) :
    ∃ t, run Mixer.step s (snd_hctl_free w s) = some t ∧ Inv t ∧ Labelled type t [] ∧ ids t = [] := by
  obtain ⟨t, hrun, hinv, hempty⟩ := Mixer.free_spec w s.hctl.reverse s hs (List.reverse_reverse _).symm hintact
  have hremoves : AllSteps Mixer.step (fun _ a => ∃ h w, a = Mixer.Act.remove h w) s (snd_hctl_free w s) := by
    refine allSteps_of_mem _ _ _ fun a ha => ?_
    obtain ⟨h, -, rfl⟩ := List.mem_map.mp ha
    exact ⟨h, w h, rfl⟩
  have hafter : Labelled type t untold := by
    refine run_invariant (fun s => Labelled type s untold) _ ?_ s t _ hlabelled hremoves hrun
    rintro s a s' hs ⟨h, w, rfl⟩ hstep
    exact step_remove_labelled hs hstep
  exact ⟨t, hrun, hinv, Labelled.emptied hinv hafter hempty, by rw [ids, hempty]; rfl⟩

end Elements

/-! ## One event -/

/-- A control that is notified of has its item renewed in place, and its ioctls work. -/
def Renews (type : SndCtlElemId → CtlType) (w : World) (s : SndMixer) (h : Nat) : Prop :=
  ∀ he e elem, s.helems h = some he → he.private_data = some e → s.melems e = some elem →
    RenewsOwn w s h e he.id elem ∧ Serves type w he.id

/-- No item of another control is lost by the event, and the ioctls work. -/
def Orderly (type : SndCtlElemId → CtlType) (w w' : World) (alloc : Bool) (s : SndMixer) (event : SndCtlEvent) : Prop :=
  if event.mask = SND_CTL_EVENT_MASK_REMOVE then ∀ h, snd_hctl_find_elem s event.id = some (some h) → RemovesOwn w s h
  else
    (event.mask &&& SND_CTL_EVENT_MASK_ADD ≠ 0#32 → Told type w (listed s event.id false) s.next) ∧
      (event.mask &&& SND_CTL_EVENT_MASK_INFO ≠ 0#32 → ∀ err t h, handle_add w alloc s event = some (err, t) →
        snd_hctl_find_elem t event.id = some (some h) → Renews type w' t h)

section Event

variable {type : SndCtlElemId → CtlType} {w w' : World} {s : SndMixer} (hs : Inv s) (hlabelled : Labelled type s [])

include hs hlabelled

/-- A control with a mixer element is one of the mixer. -/
theorem iface_of_data (h e : Nat) (he : SndHctlElem) (hhe : s.helems h = some he) (hdata : he.private_data = some e) :
    he.id.iface = SND_CTL_ELEM_IFACE_MIXER := by
  obtain ⟨-, it, item, -, hitem, rfl, -⟩ := hs.held.owner h he e hhe hdata (Option.some_ne_none h)
  exact iface_of_shown (hlabelled.kind it item he hitem hhe)

theorem handle_add_spec (cb : Hctl.Callbacks) (alloc : Bool) (event : SndCtlEvent)
    (htold : event.mask &&& SND_CTL_EVENT_MASK_ADD ≠ 0#32 → Told type w (listed s event.id false) s.next) :
    ∃ err t, handle_add w alloc s event = some (err, t) ∧ Inv t ∧ Labelled type t [] ∧
      ids t = (Hctl.handle_add cb alloc (ids s) event).2 := by
  unfold handle_add Hctl.handle_add
  split
  · exact ⟨0, s, rfl, hs, hlabelled, rfl⟩
  rename_i hmask
  split
  · exact ⟨-ENOMEM, s, rfl, hs, hlabelled, rfl⟩
  unfold snd_hctl_elem_add Hctl.snd_hctl_elem_add
  cases hfind : Hctl.snd_hctl_find_elem (ids s) event.id with
  | some i =>
    obtain ⟨x, -, -, -, hfound⟩ := find_elem_some hs event.id i hfind
    exact ⟨-EBUSY, s, by rw [hfound]; rfl, hs, hlabelled, rfl⟩
  | none =>
    have hfound := find_elem_eq hs event.id
    rw [hfind] at hfound
    obtain ⟨err, t, hthrow, hinv, hafter, hids, -⟩ := throw_event_spec (inv_listed s event.id false hs)
      (listed_self s event.id false) rfl (labelled_listed hlabelled event.id) (htold hmask)
    refine ⟨err, t, by rw [hfound]; exact hthrow, hinv, hafter, ?_⟩
    rw [ids_of_same hids, ids_listed hs]
    rfl

theorem elem_throw_event_spec (h : Nat) (he : SndHctlElem) (hhe : s.helems h = some he) (mask : BitVec 32)
    (hrenews : mask &&& SND_CTL_EVENT_MASK_INFO ≠ 0#32 → Renews type w s h) :
    ∃ err t, snd_hctl_elem_throw_event w s h (mask &&& (SND_CTL_EVENT_MASK_VALUE ||| SND_CTL_EVENT_MASK_INFO)) =
      some (err, t) ∧ Inv t ∧ Labelled type t [] ∧ SameIds s t := by
  have hintact : Intact s (.notify h mask w) := fun hmask he e elem hhe hdata helem =>
    (hrenews hmask he e elem hhe hdata helem).1
  obtain ⟨t, hstep, hinv, -⟩ := notify_spec w s hs h mask hintact
  unfold Mixer.step at hstep
  unfold snd_hctl_elem_throw_event
  simp only [hhe, Option.bind_some] at hstep ⊢
  split at hstep
  · obtain ⟨p, hhandle, rfl⟩ := Option.map_eq_some_iff.mp hstep
    rw [if_pos ‹_›]
    refine ⟨p.1, p.2, hhandle, hinv, throw_elem_labelled hlabelled hhe (fun _ hmask hsome => ?_) hhandle⟩
    obtain ⟨e, hdata⟩ := Option.isSome_iff_exists.mp hsome
    obtain ⟨elem, -, -, helem, -⟩ := hs.held.owner h he e hhe hdata (Option.some_ne_none h)
    rw [info_of_masked] at hmask
    exact ⟨iface_of_data hs hlabelled h e he hhe hdata, (hrenews hmask he e elem hhe hdata helem).2⟩
  · obtain rfl := Option.some.inj hstep
    rw [if_neg ‹_›]
    exact ⟨0, s, rfl, hs, hlabelled, SameIds.refl s⟩

/-- The event does to the elements what it does to their ids. -/
theorem handle_event_spec (cb : Hctl.Callbacks) (alloc : Bool) (event : SndCtlEvent)
    (horderly : Orderly type w w' alloc s event) :
    ∃ err t, snd_hctl_handle_event w w' alloc s event = some (err, t) ∧ Inv t ∧ Labelled type t [] ∧
      ids t = (Hctl.snd_hctl_handle_event cb alloc (ids s) event).2 := by
  unfold Orderly at horderly
  by_cases htype : event.type = SND_CTL_EVENT_ELEM
  · by_cases hremove : event.mask = SND_CTL_EVENT_MASK_REMOVE
    · rw [if_pos hremove] at horderly
      unfold snd_hctl_handle_event Hctl.snd_hctl_handle_event
      rw [if_neg (not_not_intro htype), if_pos hremove, if_neg (not_not_intro htype), if_pos hremove]
      cases hfind : Hctl.snd_hctl_find_elem (ids s) event.id with
      | none =>
        have hfound := find_elem_eq hs event.id
        rw [hfind] at hfound
        exact ⟨-ENOENT, s, by rw [hfound]; rfl, hs, hlabelled, rfl⟩
      | some i =>
        obtain ⟨x, he, hi, hhe, hfound⟩ := find_elem_some hs event.id i hfind
        obtain ⟨t, helem_remove, hinv, hafter, hids⟩ :=
          elem_remove_spec hs hlabelled x i he hi hhe (horderly x hfound)
        refine ⟨0, t, ?_, hinv, hafter, hids⟩
        rw [hfound]
        simp [hhe, helem_remove]
    · rw [if_neg hremove] at horderly
      obtain ⟨err, t, hadd, hinv, hafter, hids⟩ := handle_add_spec hs hlabelled cb alloc event horderly.1
      rw [Hctl.handle_event_of_not_remove cb alloc (ids s) event htype hremove, ← hids]
      unfold snd_hctl_handle_event
      rw [if_neg (not_not_intro htype), if_neg hremove, hadd, Option.bind_some]
      dsimp only
      split
      · exact ⟨err, t, rfl, hinv, hafter, rfl⟩
      split
      · exact ⟨0, t, rfl, hinv, hafter, rfl⟩
      cases hfind : Hctl.snd_hctl_find_elem (ids t) event.id with
      | none =>
        have hfound := find_elem_eq hinv event.id
        rw [hfind] at hfound
        exact ⟨-ENOENT, t, by rw [hfound]; rfl, hinv, hafter, rfl⟩
      | some i =>
        obtain ⟨x, he, -, hhe, hfound⟩ := find_elem_some hinv event.id i hfind
        obtain ⟨err', u, hthrow, hinv', hafter', hids'⟩ := elem_throw_event_spec (w := w') hinv hafter x he hhe
          event.mask fun hmask => horderly.2 hmask err t x hadd hfound
        refine ⟨min 0 err', u, ?_, hinv', hafter', ids_of_same hids'⟩
        rw [hfound, Option.bind_some]
        simp only [hthrow, Option.map_some]
  · unfold snd_hctl_handle_event Hctl.snd_hctl_handle_event
    rw [if_pos htype, if_pos htype]
    exact ⟨0, s, rfl, hs, hlabelled, rfl⟩

end Event

/-! ## Loading -/

section Load

variable {type : SndCtlElemId → CtlType} {s : SndMixer}

/-- The mixer was told of nothing yet. -/
def Untold (s : SndMixer) : Prop := ∀ h he, s.helems h = some he → he.private_data = none

theorem untold_listed (hs : Untold s) (id : SndCtlElemId) : Untold (listed s id false) := by
  intro h he hhe
  rcases stored_eq_some.mp hhe with ⟨-, rfl⟩ | ⟨-, hold⟩
  · rfl
  · exact hs h he hold

theorem insert_loop_spec (alloc : Nat → Bool) (idx : Nat) (pids : List SndCtlElemId) (hs : Inv s)
    (hlabelled : Labelled type s s.hctl) (huntold : Untold s) :
    ∃ done t, insert_loop alloc idx pids s = (done, t) ∧ Inv t ∧ Labelled type t t.hctl ∧ Untold t ∧
      Hctl.insert_loop alloc idx pids (ids s) = if done then some (ids t) else none := by
  induction pids generalizing idx s with
  | nil => exact ⟨true, s, rfl, hs, hlabelled, huntold, rfl⟩
  | cons id pids ih =>
    unfold insert_loop Hctl.insert_loop
    split
    · have hrest := ih (idx + 1) (inv_listed s id false hs) (labelled_listed hlabelled id) (untold_listed huntold id)
      rw [ids_listed hs] at hrest
      exact hrest
    · exact ⟨false, s, rfl, hs, hlabelled, huntold, rfl⟩

/-- The mixer can be told of the controls in turn. -/
def AllTold (type : SndCtlElemId → CtlType) (w : Nat → World) : List Nat → SndMixer → Prop
  | [], _ => True
  | h :: l, s => Told type (w h) s h ∧ ∀ p, snd_hctl_throw_event (w h) s h = some p → AllTold type w l p.2

theorem throw_loop_spec (w : Nat → World) (l : List Nat) (hs : Inv s) (hlabelled : Labelled type s l)
    (hnodup : l.Nodup) (hdata : ∀ h ∈ l, ∃ he, s.helems h = some he ∧ he.private_data = none)
    (htold : AllTold type w l s) :
    ∃ t, throw_loop w l s = some t ∧ Inv t ∧ Labelled type t [] ∧ SameIds s t := by
  induction l generalizing s with
  | nil => exact ⟨s, rfl, hs, hlabelled, SameIds.refl s⟩
  | cons h l ih =>
    obtain ⟨he, hhe, hnone⟩ := hdata h List.mem_cons_self
    obtain ⟨err, t, hthrow, hinv, hafter, hids, hframe⟩ := throw_event_spec hs hhe hnone hlabelled htold.1
    obtain ⟨hnot, hnodup⟩ := List.nodup_cons.mp hnodup
    have hrest : ∀ x ∈ l, ∃ he, t.helems x = some he ∧ he.private_data = none := by
      intro x hx
      rw [hframe x fun heq => hnot (heq ▸ hx)]
      exact hdata x (List.mem_cons_of_mem h hx)
    obtain ⟨u, hloop, hinv', hafter', hids'⟩ := ih hinv hafter hnodup hrest (htold.2 _ hthrow)
    refine ⟨u, ?_, hinv', hafter', hids.trans hids'⟩
    rw [throw_loop, hthrow, Option.bind_some]
    exact hloop

theorem untold_removed (hs : Untold s) (w : World) (h : Nat) (he : SndHctlElem) (hhe : s.helems h = some he) :
    ∃ t, snd_hctl_elem_remove w s h he = some t ∧ Untold t := by
  have hhandled : (if he.callback then
      hctl_elem_event_handler w { s with hctl := s.hctl.erase h } h SND_CTL_EVENT_MASK_REMOVE
      else some (0, { s with hctl := s.hctl.erase h })) = some (0, { s with hctl := s.hctl.erase h }) := by
    unfold hctl_elem_event_handler
    simp [hhe, hs h he hhe]
  refine ⟨freed { s with hctl := s.hctl.erase h } h, ?_, fun h' he' hhe' => hs h' he' (freed_eq_some.mp hhe').2⟩
  unfold snd_hctl_elem_remove
  dsimp only
  rw [hhandled]
  rfl

/-- Nothing is called back for what is freed before the mixer was told of it. -/
theorem intact_of_untold (w : Nat → World) (l : List Nat) (hs : Untold s) :
    AllSteps Mixer.step Intact s (l.map fun h => .remove h (w h)) := by
  induction l generalizing s with
  | nil => trivial
  | cons h l ih =>
    refine ⟨fun he e elem hhe hdata => ?_, fun t hstep => ih ?_⟩
    · rw [hs h he hhe] at hdata
      cases hdata
    · unfold Mixer.step at hstep
      cases hhe : s.helems h with
      | none =>
        simp only [hhe] at hstep
        exact Option.some.inj hstep ▸ hs
      | some he =>
        simp only [hhe] at hstep
        obtain ⟨u, hremove, huntold⟩ := untold_removed hs (w h) h he hhe
        exact Option.some.inj (hremove.symm.trans hstep) ▸ huntold

end Load

/-! ## The card and the mixer -/

def Act.session : Act → Hctl.Act
  | .kernel_add id => .kernel_add id
  | .kernel_remove id => .kernel_remove id
  | .kernel_notify mask id => .kernel_notify mask id
  | .list alloc errno _ => .list alloc errno
  | .insert alloc _ => .insert alloc
  | .subscribe errno _ => .subscribe errno
  | .handle alloc _ _ => .handle alloc

/-- The ioctls of the callbacks work, and the mixer loses no item of a control that is still there. -/
def Tended (type : SndCtlElemId → CtlType) (s : System) : Act → Prop
  | .insert alloc w =>
    match s.phase with
    | .listed list =>
      let inserted := insert_loop alloc 0 list.pids s.mixer
      list.count = list.used → inserted.1 → AllTold type w inserted.2.hctl inserted.2
    | _ => True
  | .subscribe errno w =>
    match s.phase with
    | .inserted _ => errno ≠ 0 → AllSteps Mixer.step Intact s.mixer (snd_hctl_free w s.mixer)
    | _ => True
  | .handle alloc w w' =>
    match s.phase, s.queue with
    | .loaded, event :: _ => Orderly type w w' alloc s.mixer event
    | _, _ => True
  | _ => True

/-- Every change is heard of, and tended to. -/
def Followed (type : SndCtlElemId → CtlType) (s : System) (a : Act) : Prop :=
  Hctl.Heard s.session a.session ∧ Tended type s a

structure Sound (type : SndCtlElemId → CtlType) (s : System) : Prop where
  hctl : Hctl.Inv s.session
  mixer : Inv s.mixer
  labelled : Labelled type s.mixer []

/-- The mixer is as it should be, and its hctl is that of `t`. -/
def Refines (type : SndCtlElemId → CtlType) (result : Option System) (t : Session) : Prop :=
  ∃ s, result = some s ∧ Inv s.mixer ∧ Labelled type s.mixer [] ∧ s.session = t

section System

variable {type : SndCtlElemId → CtlType} {s : System}

theorem after_session (t : Session) (h : t.hctl = ids s.mixer) : (s.after t).session = t := by
  cases t
  cases h
  rfl

theorem fail_spec (w : Nat → World) {untold : List Nat} (hs : Inv s.mixer) (hlabelled : Labelled type s.mixer untold)
    (hintact : AllSteps Mixer.step Intact s.mixer (snd_hctl_free w s.mixer)) :
    Refines type (s.fail w) s.session.fail := by
  obtain ⟨t, hrun, hinv, hafter, hids⟩ := free_spec hs hlabelled w hintact
  refine ⟨{ s with mixer := t, phase := .unloaded }, ?_, hinv, hafter, ?_⟩
  · unfold System.fail
    rw [hrun]
    rfl
  · unfold System.session Session.fail
    simp only [hids]

variable (hs : Sound type s)

include hs

/-- Before the ids are inserted there is nothing to free. -/
theorem fail_of_empty (w : Nat → World) (hempty : s.session.hctl = []) : Refines type (s.fail w) s.session.fail := by
  refine fail_spec w hs.mixer hs.labelled ?_
  have hctl : s.mixer.hctl = [] := List.map_eq_nil_iff.mp hempty
  unfold snd_hctl_free
  rw [hctl]
  trivial

theorem elem_list_spec (space errno : Nat) (w : Nat → World) (hempty : s.session.hctl = []) :
    Refines type (snd_ctl_elem_list s space errno w) (Hctl.snd_ctl_elem_list s.session space errno) := by
  unfold snd_ctl_elem_list Hctl.snd_ctl_elem_list
  split
  · exact fail_of_empty hs w hempty
  · exact ⟨_, rfl, hs.mixer, hs.labelled, rfl⟩

theorem unchanged : Refines type (some s) s.session := ⟨s, rfl, hs.mixer, hs.labelled, rfl⟩

theorem list_spec (alloc : Bool) (errno : Nat) (w : Nat → World) :
    Refines type (s.list alloc errno w) (s.session.list alloc errno) := by
  have hinv := hs.hctl
  unfold Hctl.Inv at hinv
  unfold System.list Session.list
  have hphase' : s.session.phase = s.phase := rfl
  rw [hphase'] at hinv ⊢
  cases hphase : s.phase with
  | unloaded =>
    rw [hphase] at hinv
    exact elem_list_spec hs 0 errno w hinv.2.2
  | listed list =>
    rw [hphase] at hinv
    dsimp only
    split
    · exact unchanged hs
    split
    · exact fail_of_empty hs w hinv.2.2
    · exact elem_list_spec hs list.count errno w hinv.2.2
  | inserted list | loaded => exact unchanged hs

theorem insert_spec (alloc : Nat → Bool) (w : Nat → World) (htended : Tended type s (.insert alloc w)) :
    Refines type (s.insert alloc w) (s.session.insert alloc) := by
  have hinv := hs.hctl
  unfold Hctl.Inv at hinv
  unfold Tended at htended
  unfold System.insert Session.insert
  have hphase' : s.session.phase = s.phase := rfl
  rw [hphase'] at hinv ⊢
  cases hphase : s.phase with
  | listed list =>
    rw [hphase] at hinv htended
    have hempty : s.mixer.hctl = [] := List.map_eq_nil_iff.mp hinv.2.2
    have huntold : Untold s.mixer := by
      intro h he hhe
      have hmem := (hs.mixer.hctl h).mpr (by rw [hhe]; rfl)
      rw [hempty] at hmem
      cases hmem
    obtain ⟨done, t, hloop, hmixer, hlabelled, huntold, habstract⟩ :=
      insert_loop_spec alloc 0 list.pids hs.mixer (hempty ▸ hs.labelled) huntold
    dsimp only at htended ⊢
    rw [hloop] at htended ⊢
    rw [show s.session.hctl = ids s.mixer from rfl, habstract]
    split
    · exact unchanged hs
    rename_i hcount
    cases done with
    | false => exact fail_spec (s := { s with mixer := t }) w hmixer hlabelled (intact_of_untold w _ huntold)
    | true =>
      have hdata : ∀ h ∈ t.hctl, ∃ he, t.helems h = some he ∧ he.private_data = none := by
        intro h hmem
        obtain ⟨he, hhe⟩ := Option.isSome_iff_exists.mp ((hmixer.hctl h).mp hmem)
        exact ⟨he, hhe, huntold h he hhe⟩
      obtain ⟨u, hthrow, hmixer', hlabelled', hids⟩ :=
        throw_loop_spec w t.hctl hmixer hlabelled hmixer.hctl_nodup hdata (htended (not_not.mp hcount) rfl)
      refine ⟨{ s with mixer := u, phase := .inserted list }, ?_, hmixer', hlabelled', ?_⟩
      · simp [hthrow]
      · unfold System.session
        simp [ids_of_same hids]
  | unloaded | inserted list | loaded => exact unchanged hs

theorem subscribe_spec (errno : Nat) (w : Nat → World) (htended : Tended type s (.subscribe errno w)) :
    Refines type (s.subscribe errno w) (s.session.subscribe errno) := by
  unfold Tended at htended
  unfold System.subscribe Session.subscribe
  have hphase' : s.session.phase = s.phase := rfl
  rw [hphase']
  cases hphase : s.phase with
  | inserted list =>
    rw [hphase] at htended
    dsimp only
    split
    · exact fail_spec w hs.mixer hs.labelled (htended ‹_›)
    · exact ⟨_, rfl, hs.mixer, hs.labelled, rfl⟩
  | unloaded | listed list | loaded => exact unchanged hs

theorem handle_spec (cb : Hctl.Callbacks) (alloc : Bool) (w w' : World)
    (htended : Tended type s (.handle alloc w w')) :
    Refines type (s.handle alloc w w') (s.session.handle cb alloc) := by
  unfold Tended at htended
  unfold System.handle Session.handle
  have hphase' : s.session.phase = s.phase := rfl
  have hqueue' : s.session.queue = s.queue := rfl
  rw [hphase', hqueue']
  cases hphase : s.phase with
  | loaded =>
    cases hqueue : s.queue with
    | nil => exact unchanged hs
    | cons event queue =>
      rw [hphase, hqueue] at htended
      obtain ⟨err, t, hhandle, hmixer, hlabelled, hids⟩ := handle_event_spec hs.mixer hs.labelled cb alloc event htended
      refine ⟨{ s with mixer := t, queue, phase := .loaded }, ?_, hmixer, hlabelled, ?_⟩
      · simp only [hhandle, Option.map_some]
      · unfold System.session
        simp only [hids]
  | unloaded | listed list | inserted list => exact unchanged hs

/-- What the functions do with the elements, those of the hctl alone do with their ids. -/
theorem step_refines (cb : Hctl.Callbacks) (a : Act) (htended : Tended type s a) :
    ∃ t, step s a = some t ∧ Inv t.mixer ∧ Labelled type t.mixer [] ∧
      Hctl.step cb s.session a.session = some t.session := by
  have hkernel (u : Session) (h : u.hctl = ids s.mixer) : Refines type (some (s.after u)) u :=
    ⟨s.after u, rfl, hs.mixer, hs.labelled, after_session u h⟩
  have hrefines : ∃ u, Hctl.step cb s.session a.session = some u ∧ Refines type (step s a) u := by
    cases a with
    | kernel_add id => exact ⟨_, rfl, hkernel _ (by unfold Session.kernel_add Session.notify; split_ifs <;> rfl)⟩
    | kernel_remove id => exact ⟨_, rfl, hkernel _ (by unfold Session.kernel_remove Session.notify; split_ifs <;> rfl)⟩
    | kernel_notify mask id =>
      exact ⟨_, rfl, hkernel _ (by unfold Session.kernel_notify Session.notify; split_ifs <;> rfl)⟩
    | list alloc errno w => exact ⟨_, rfl, list_spec hs alloc errno w⟩
    | insert alloc w => exact ⟨_, rfl, insert_spec hs alloc w htended⟩
    | subscribe errno w => exact ⟨_, rfl, subscribe_spec hs errno w htended⟩
    | handle alloc w w' => exact ⟨_, rfl, handle_spec hs cb alloc w w' htended⟩
  obtain ⟨u, hstep, t, hdone, hmixer, hlabelled, rfl⟩ := hrefines
  exact ⟨t, hdone, hmixer, hlabelled, hstep⟩

theorem step_sound (a : Act) (hfollowed : Followed type s a) : ∃ t, step s a = some t ∧ Sound type t := by
  obtain ⟨t, hstep, hmixer, hlabelled, habstract⟩ := step_refines hs Hctl.no_callbacks a hfollowed.2
  exact ⟨t, hstep, Hctl.step_heard _ s.session t.session a.session hs.hctl hfollowed.1 habstract, hmixer, hlabelled⟩

/-! ## What is shown -/

theorem Sound.shows : Shows type (ids s.mixer) s.mixer := by
  have howned := hs.mixer.owned
  have hcontrol (h e : Nat) (he : SndHctlElem) (hhe : s.mixer.helems h = some he) (hdata : he.private_data = some e) :
      ∃ kind, shown type he.id = some kind ∧ e ∈ s.mixer.pelems ∧ ShowsControl s.mixer he.id kind e := by
    obtain ⟨hmem, elem, it, item, helem, hitem, rfl, hslots⟩ := howned.control h he e hhe hdata
    exact ⟨item.kind, hs.labelled.kind it item he hitem hhe, hmem, elem, it, item, helem,
      hs.labelled.named item.helem he e elem hhe hdata helem, hitem, rfl, hslots⟩
  refine ⟨fun id hid kind hkind => ?_, fun e he => ?_⟩
  · obtain ⟨h, he, hhe, rfl⟩ := (mem_ids hs.mixer id).mp hid
    obtain ⟨e, hdata⟩ := Option.isSome_iff_exists.mp
      (hs.labelled.all h he hhe (by rw [hkind]; rfl) List.not_mem_nil)
    obtain ⟨kind', hkind', hmem, hshows⟩ := hcontrol h e he hhe hdata
    obtain rfl := Option.some.inj (hkind.symm.trans hkind')
    exact ⟨e, hmem, hshows⟩
  · obtain ⟨elem, helem⟩ := Option.isSome_iff_exists.mp (howned.pelems e he)
    refine ⟨elem, helem, (howned.used e elem helem).mp he, fun i hi => ?_⟩
    obtain ⟨it, hslot⟩ := Option.isSome_iff_exists.mp hi
    obtain ⟨item, he, hitem, hhe, hdata, hin⟩ := hs.mixer.held.slot e elem i it helem hslot
    obtain ⟨kind, hkind, -, hshows⟩ := hcontrol item.helem e he hhe hdata
    obtain rfl := Option.some.inj (hkind.symm.trans (hs.labelled.kind it item he hitem hhe))
    exact ⟨he.id, (mem_ids hs.mixer _).mpr ⟨_, he, hhe, rfl⟩, item.kind, hkind, hshows, hin⟩

theorem Sound.mirrors : Mirrors type s := by
  intro hphase hqueue
  have hlist := Multiset.coe_eq_coe.mp (hs.hctl.mirrors s.session hphase hqueue)
  have hshows := hs.shows
  refine ⟨fun id hid => hshows.all id (hlist.mem_iff.mpr hid), fun e he => ?_⟩
  obtain ⟨elem, helem, hused, hslots⟩ := hshows.only e he
  refine ⟨elem, helem, hused, fun i hi => ?_⟩
  obtain ⟨id, hid, hrest⟩ := hslots i hi
  exact ⟨id, hlist.mem_iff.mp hid, hrest⟩

end System

theorem sound_attached (type : SndCtlElemId → CtlType) (kernel : KernelElems) : Sound type (attached_to kernel) where
  hctl := ⟨rfl, rfl, rfl⟩
  mixer := inv_attached
  labelled := by constructor <;> simp [attached_to, attached]

theorem serves_volume (id : SndCtlElemId) : Serves (fun _ => .integer) volume_world id := ⟨rfl, rfl, rfl, rfl, rfl⟩

theorem tellsOwn_playback (s : SndMixer) (h : Nat) :
    TellsOwn volume_world s h (volume_id "X Playback".toList) := by
  have hcreates : creates volume_world (decode_name (volume_id "X Playback".toList).name).dir =
      some (1#32, 0, .volume) := by
    decide +kernel
  unfold TellsOwn
  rw [hcreates]
  dsimp only
  split
  · exact fun elem _ hglobal => absurd hglobal (by decide)
  · exact fun _ _ => rfl

def appearing : List Act :=
  [.list true 0 fun _ => volume_world, .insert (fun _ => true) fun _ => volume_world,
    .subscribe 0 fun _ => volume_world, .kernel_add (volume_id "X Playback".toList),
    .handle true volume_world volume_world]

end Salsa.Mixer.Mirror
