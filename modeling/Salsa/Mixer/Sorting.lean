import Salsa.Lib.Comparison
import Salsa.Mixer.Ownership

/-!
# Sorting the mixer elements

`snd_mixer_sort` hands the comparison of the user to `qsort`, which calls it with pointers to the slots of
`pelems` and not with the mixer elements that they point to. `snd_mixer_set_compare` does not sort.
-/

namespace Salsa.Mixer.Order

open Cells Comparison Ctl Run
open Hctl (SND_CTL_EVENT_MASK_REMOVE SND_CTL_EVENT_MASK_VALUE SND_CTL_EVENT_MASK_INFO)

/-! ## The model -/

/-- `snd_mixer_compare_t`, for mixer elements at their addresses. -/
structure SndMixerCompare where
  compare : Cmp (Nat × SndMixerElem)
  total : ∀ x y, (compare x y).toInt ≤ 0 ∨ (compare y x).toInt ≤ 0
  trans : ∀ x y z, (compare x y).toInt ≤ 0 → (compare y z).toInt ≤ 0 → (compare x z).toInt ≤ 0

/-- What a comparison is called with. -/
inductive Place where
  | slot (i : Nat)
  | elem (e : Nat)

/-- A call of a comparison, while `pelems` was the list. -/
structure Application where
  compare : SndMixerCompare
  left : Place
  right : Place
  pelems : List Nat

/-- The slots that `qsort` compares: two different ones at a time, and some as soon as there are two. What it makes
of the results is in the `Sorter` of the `World`, which may be any permutation. -/
structure Compared where
  pairs : List Nat → List (Nat × Nat)
  slots : ∀ pelems, ∀ p ∈ pairs pelems, p.1 < pelems.length ∧ p.2 < pelems.length ∧ p.1 ≠ p.2
  some : ∀ pelems, 2 ≤ pelems.length → pairs pelems ≠ []

structure State where
  mixer : SndMixer
  compare : Option SndMixerCompare
  applied : List Application

def snd_mixer_sort (w : World) (q : Compared) (s : State) : State :=
  match s.compare with
  | none => s
  | some compare =>
    { s with
      mixer := Mixer.snd_mixer_sort w s.mixer
      applied := s.applied ++ (q.pairs s.mixer.pelems).map fun (i, j) =>
        { compare, left := .slot i, right := .slot j, pelems := s.mixer.pelems } }

def add_mixer_elem (w : World) (q : Compared) (s : State) (e : Nat) : Int × State :=
  if s.mixer.pelems.length = s.mixer.alloc ∧ ¬ w.realloc then (-ENOMEM, s)
  else
    let alloc := if s.mixer.pelems.length = s.mixer.alloc then s.mixer.alloc + 32 else s.mixer.alloc
    let pelems := s.mixer.pelems ++ [e]
    (w.throw_event, snd_mixer_sort w q { s with mixer := { s.mixer with pelems, alloc } })

def add_simple_element (w : World) (q : Compared) (s : State) (h : Nat) : Option (Int × State) :=
  (s.mixer.helems h).bind fun he =>
    let d := decode_name he.id.name
    if w.info_errno ≠ 0 then some (-(w.info_errno : Int), s)
    else
      match item_type d.dir w.type with
      | none => some (0, s)
      | some (caps, type, kind) =>
        match new_selem_item w h kind with
        | none => some (-ENOMEM, s)
        | some item =>
          let it := s.mixer.next
          let m := { s.mixer with items := Function.update s.mixer.items it (some item), next := it + 1 }
          (find_elem m d.name type m.pelems 0#32).bind fun place =>
            match place with
            | .inl e => (m.melems e).map fun elem => (0, { s with mixer := add_cap m e elem caps type it item })
            | .inr index =>
              if ¬ w.alloc_elem then
                some (-ENOMEM, { s with mixer := { m with items := Function.update m.items it none } })
              else
                let e := m.next
                let m := add_cap { m with next := e + 1 } e (new_mixer_elem d.name index) caps type it item
                some (add_mixer_elem w q { s with mixer := m } e)

def handle_info (w : World) (q : Compared) (s : State) (h e : Nat) : Option (Int × State) :=
  (remove_simple_element s.mixer h false).bind fun (_, m) =>
    (add_simple_element w q { s with mixer := m } h).bind fun (_, s) =>
      (s.mixer.melems e).map fun _ =>
        let err := w.elem_throw_event SND_CTL_EVENT_MASK_INFO
        if err < 0 then (err, s) else (0, snd_mixer_sort w q s)

def hctl_elem_event_handler (w : World) (q : Compared) (s : State) (h : Nat) (mask : BitVec 32) :
    Option (Int × State) :=
  (s.mixer.helems h).bind fun he =>
    match he.private_data with
    | none => some (0, s)
    | some e =>
      (s.mixer.melems e).bind fun _ =>
        if mask = SND_CTL_EVENT_MASK_REMOVE then
          let err := w.elem_throw_event mask
          if err < 0 then some (err, s)
          else (remove_simple_element s.mixer h true).map fun (_, mixer) => (0, { s with mixer })
        else
          (if mask &&& SND_CTL_EVENT_MASK_INFO ≠ 0#32 then handle_info w q s h e else some (0, s)).bind
            fun (err, s) =>
              if err < 0 then some (err, s)
              else if mask &&& SND_CTL_EVENT_MASK_VALUE ≠ 0#32 then
                (handle_value w s.mixer h e).map fun (err, mixer) => (err, { s with mixer })
              else some (0, s)

def hctl_event_handler (w : World) (q : Compared) (s : State) (h : Nat) : Option (Int × State) :=
  (s.mixer.helems h).bind fun he =>
    if he.id.iface ≠ SND_CTL_ELEM_IFACE_MIXER then some (0, s)
    else
      add_simple_element w q
        { s with
          mixer := { s.mixer with helems := Function.update s.mixer.helems h (some { he with callback := true }) } }
        h

def snd_hctl_elem_add (w : World) (q : Compared) (s : State) (id : SndCtlElemId) : Option State :=
  (hctl_event_handler w q { s with mixer := listed s.mixer id false } s.mixer.next).map fun (_, s) => s

def snd_hctl_elem_remove (w : World) (q : Compared) (s : State) (h : Nat) (he : SndHctlElem) : Option State :=
  let s := { s with mixer := { s.mixer with hctl := s.mixer.hctl.erase h } }
  let handled :=
    if he.callback then hctl_elem_event_handler w q s h SND_CTL_EVENT_MASK_REMOVE else some (0, s)
  handled.map fun (_, s) =>
    { s with mixer := { s.mixer with helems := Function.update s.mixer.helems h none } }

inductive Call where
  | set_compare (compare : Option SndMixerCompare)
  | event (act : Act) (q : Compared)

def step (s : State) : Call → Option State
  | .set_compare compare => some { s with compare }
  | .event (.add id w) q => snd_hctl_elem_add w q s id
  | .event (.notify h mask w) q =>
    match s.mixer.helems h with
    | none => some s
    | some he =>
      let mask := mask &&& (SND_CTL_EVENT_MASK_VALUE ||| SND_CTL_EVENT_MASK_INFO)
      if he.callback then (hctl_elem_event_handler w q s h mask).map fun (_, s) => s else some s
  | .event (.remove h w) q =>
    match s.mixer.helems h with
    | none => some s
    | some he => snd_hctl_elem_remove w q s h he

def opened : State := { mixer := attached, compare := none, applied := [] }

/-! ## What a step does -/

theorem find_elem_congr (s t : SndMixer) (h : s.melems = t.melems) (name : List Char) (type : Fin 5) (l : List Nat)
    (index : BitVec 32) : find_elem s name type l index = find_elem t name type l index := by
  induction l generalizing index with
  | nil => rfl
  | cons e rest ih =>
    unfold find_elem
    rw [h]
    simp only [ih]

/-- The new mixer element, before it is in the list. -/
def with_elem (w : World) (s : SndMixer) (h : Nat) (name : List Char) (index : BitVec 32) (caps : BitVec 32)
    (type : Fin 5) (kind : Kind) : SndMixer :=
  add_cap { with_item w s h kind with next := s.next + 2 } (s.next + 1) (new_mixer_elem name index) caps type s.next
    (made_item w h kind)

/-- A control element that is not for the mixer, or without an item to hold it, adds nothing. -/
theorem add_nothing (w : World) (q : Compared) (s t : State) (h : Nat) (he : SndHctlElem) (err : Int)
    (hhe : s.mixer.helems h = some he) (hadd : add_simple_element w q s h = some (err, t))
    (hcreates : creates w (decode_name he.id.name).dir = none) : t = s := by
  unfold add_simple_element at hadd
  rw [hhe, Option.bind_some] at hadd
  dsimp only at hadd
  unfold creates at hcreates
  split at hadd
  · cases hadd
    rfl
  · rename_i hinfo
    cases htype : item_type (decode_name he.id.name).dir w.type with
    | none =>
      rw [htype] at hadd
      cases hadd
      rfl
    | some found =>
      obtain ⟨caps, type, kind⟩ := found
      have hcreate : ¬ (w.read_errno = 0 ∧ w.alloc_item) := by
        intro hcreate
        rw [if_pos ⟨not_not.mp hinfo, hcreate⟩, htype] at hcreates
        cases hcreates
      rw [htype] at hadd
      dsimp only at hadd
      rw [new_selem_item_eq, if_neg hcreate] at hadd
      cases hadd
      rfl

theorem add_cases (w : World) (q : Compared) (s t : State) (h : Nat) (he : SndHctlElem) (err : Int)
    (hhe : s.mixer.helems h = some he) (hadd : add_simple_element w q s h = some (err, t)) :
    (creates w (decode_name he.id.name).dir = none ∧ t = s) ∨
    ∃ caps type kind, creates w (decode_name he.id.name).dir = some (caps, type, kind) ∧
      ((∃ e elem, find_elem s.mixer (decode_name he.id.name).name type s.mixer.pelems 0#32 = some (.inl e) ∧
          s.mixer.melems e = some elem ∧
          t = { s with
            mixer := add_cap (with_item w s.mixer h kind) e elem caps type s.mixer.next (made_item w h kind) }) ∨
        ∃ index, find_elem s.mixer (decode_name he.id.name).name type s.mixer.pelems 0#32 = some (.inr index) ∧
          (¬ w.alloc_elem ∧
              t = { s with
                mixer := { with_item w s.mixer h kind with
                  items := Function.update (with_item w s.mixer h kind).items s.mixer.next none } } ∨
            w.alloc_elem ∧
              t = (add_mixer_elem w q
                { s with mixer := with_elem w s.mixer h (decode_name he.id.name).name index caps type kind }
                (s.mixer.next + 1)).2)) := by
  cases hcreates : creates w (decode_name he.id.name).dir with
  | none => exact .inl ⟨rfl, add_nothing w q s t h he err hhe hadd hcreates⟩
  | some found =>
    obtain ⟨caps, type, kind⟩ := found
    have hfind := find_elem_congr (with_item w s.mixer h kind) s.mixer rfl (decode_name he.id.name).name type
      s.mixer.pelems 0#32
    obtain ⟨hinfo, htype, hitem⟩ := creates_some w _ caps type kind hcreates
    refine .inr ⟨caps, type, kind, rfl, ?_⟩
    unfold add_simple_element at hadd
    rw [hhe, Option.bind_some] at hadd
    dsimp only at hadd
    rw [if_neg (not_not.mpr hinfo), htype] at hadd
    dsimp only at hadd
    rw [hitem] at hadd
    obtain ⟨place, hplace, hadd⟩ := Option.bind_eq_some_iff.mp hadd
    have hplace := hfind.symm.trans hplace
    cases place with
    | inl e =>
      obtain ⟨elem, helem, hadd⟩ := Option.map_eq_some_iff.mp hadd
      cases hadd
      exact .inl ⟨e, elem, hplace, helem, rfl⟩
    | inr index =>
      refine .inr ⟨index, hplace, ?_⟩
      dsimp only at hadd
      split at hadd
      · rename_i halloc
        cases hadd
        exact .inl ⟨halloc, rfl⟩
      · rename_i halloc
        exact .inr ⟨not_not.mp halloc, (congrArg Prod.snd (Option.some.inj hadd)).symm⟩

theorem sort_compare (w : World) (q : Compared) (s : State) : (snd_mixer_sort w q s).compare = s.compare := by
  unfold snd_mixer_sort
  split <;> rfl

/-! ## Without the comparisons -/

/-- The event as `Mixer.step` takes it, with a sorter just when there is a comparison. -/
def with_sorter (compare : Option SndMixerCompare) (w : World) : World :=
  { w with compare := if compare.isSome then w.compare else unsorted }

def event_below (compare : Option SndMixerCompare) : Act → Act
  | .add id w => .add id (with_sorter compare w)
  | .notify h mask w => .notify h mask (with_sorter compare w)
  | .remove h w => .remove h (with_sorter compare w)

theorem sort_below (w : World) (q : Compared) (s : State) :
    (snd_mixer_sort w q s).mixer = Mixer.snd_mixer_sort (with_sorter s.compare w) s.mixer := by
  unfold snd_mixer_sort with_sorter
  cases s.compare <;> rfl

theorem add_mixer_elem_below (w : World) (q : Compared) (s : State) (e : Nat) :
    Mixer.add_mixer_elem (with_sorter s.compare w) s.mixer e =
      ((add_mixer_elem w q s e).1, (add_mixer_elem w q s e).2.mixer) ∧
    (add_mixer_elem w q s e).2.compare = s.compare := by
  unfold add_mixer_elem Mixer.add_mixer_elem
  by_cases hfull : s.mixer.pelems.length = s.mixer.alloc ∧ ¬ w.realloc
  · rw [if_pos hfull]
    exact ⟨if_pos hfull, rfl⟩
  · rw [if_neg hfull]
    dsimp only
    rw [sort_below, sort_compare]
    exact ⟨if_neg hfull, rfl⟩

theorem add_simple_element_below (w : World) (q : Compared) (s t : State) (h : Nat) (err : Int)
    (hadd : add_simple_element w q s h = some (err, t)) :
    (∃ err', Mixer.add_simple_element (with_sorter s.compare w) s.mixer h = some (err', t.mixer)) ∧
      t.compare = s.compare := by
  obtain ⟨he, hhe, -⟩ := Option.bind_eq_some_iff.mp hadd
  rcases add_cases w q s t h he err hhe hadd with ⟨hcreates, rfl⟩ | ⟨caps, type, kind, hcreates, hcases⟩
  · exact ⟨add_none (with_sorter t.compare w) t.mixer h he hhe hcreates, rfl⟩
  · have hfind := find_elem_congr (with_item (with_sorter s.compare w) s.mixer h kind) s.mixer rfl
      (decode_name he.id.name).name type s.mixer.pelems 0#32
    rcases hcases with ⟨e, elem, hplace, helem, rfl⟩ | ⟨index, hplace, hcases⟩
    · exact ⟨⟨0, add_found (with_sorter s.compare w) s.mixer h he caps type kind hhe hcreates e elem helem
        (hfind.trans hplace)⟩, rfl⟩
    · have hnew := add_not_found (with_sorter s.compare w) s.mixer h he caps type kind hhe hcreates index
        (hfind.trans hplace)
      rw [hnew]
      rcases hcases with ⟨halloc, rfl⟩ | ⟨halloc, rfl⟩
      · exact ⟨⟨_, if_pos halloc⟩, rfl⟩
      · obtain ⟨hbelow, hcompare⟩ := add_mixer_elem_below w q
          { s with mixer := with_elem w s.mixer h (decode_name he.id.name).name index caps type kind }
          (s.mixer.next + 1)
        exact ⟨⟨_, (if_neg (not_not.mpr halloc)).trans (congrArg some hbelow)⟩, hcompare⟩

theorem handle_info_below (w : World) (q : Compared) (s t : State) (h e : Nat) (err : Int)
    (hinfo : handle_info w q s h e = some (err, t)) :
    Mixer.handle_info (with_sorter s.compare w) s.mixer h e = some (err, t.mixer) ∧ t.compare = s.compare := by
  obtain ⟨⟨err₁, m⟩, hremove, hinfo⟩ := Option.bind_eq_some_iff.mp hinfo
  obtain ⟨⟨err₂, u⟩, hadd, hinfo⟩ := Option.bind_eq_some_iff.mp hinfo
  obtain ⟨elem, helem, hinfo⟩ := Option.map_eq_some_iff.mp hinfo
  obtain ⟨⟨err₃, hbelow⟩, hcompare⟩ := add_simple_element_below w q { s with mixer := m } u h err₂ hadd
  unfold Mixer.handle_info
  rw [hremove, Option.bind_some]
  dsimp only at hbelow hcompare ⊢
  rw [hbelow, Option.bind_some]
  dsimp only
  rw [helem, Option.map_some]
  dsimp only at hinfo
  split at hinfo
  · rename_i hneg
    cases hinfo
    exact ⟨congrArg some (if_pos hneg), hcompare⟩
  · rename_i hpos
    cases hinfo
    rw [sort_compare, sort_below, hcompare]
    exact ⟨congrArg some (if_neg hpos), rfl⟩

theorem hctl_elem_event_handler_below (w : World) (q : Compared) (s t : State) (h : Nat) (mask : BitVec 32) (err : Int)
    (hhandle : hctl_elem_event_handler w q s h mask = some (err, t)) :
    Mixer.hctl_elem_event_handler (with_sorter s.compare w) s.mixer h mask = some (err, t.mixer) := by
  obtain ⟨he, hhe, hhandle⟩ := Option.bind_eq_some_iff.mp hhandle
  unfold Mixer.hctl_elem_event_handler
  rw [hhe, Option.bind_some]
  cases hdata : he.private_data with
  | none =>
    rw [hdata] at hhandle
    cases hhandle
    rfl
  | some e =>
    rw [hdata] at hhandle
    obtain ⟨elem, helem, hhandle⟩ := Option.bind_eq_some_iff.mp hhandle
    dsimp only
    rw [helem, Option.bind_some]
    split at hhandle
    · rename_i hmask
      rw [if_pos hmask]
      dsimp only at hhandle
      split at hhandle
      · rename_i hneg
        cases hhandle
        exact if_pos hneg
      · rename_i hpos
        obtain ⟨⟨err', m⟩, hremove, hhandle⟩ := Option.map_eq_some_iff.mp hhandle
        cases hhandle
        refine (if_neg hpos).trans ?_
        rw [hremove]
        rfl
    · rename_i hmask
      rw [if_neg hmask]
      obtain ⟨⟨err', u⟩, hinfo, hhandle⟩ := Option.bind_eq_some_iff.mp hhandle
      have hbelow : (if mask &&& SND_CTL_EVENT_MASK_INFO ≠ 0#32 then
          Mixer.handle_info (with_sorter s.compare w) s.mixer h e else some (0, s.mixer)) = some (err', u.mixer) := by
        split at hinfo
        · rename_i hinfo'
          exact (if_pos hinfo').trans (handle_info_below w q s u h e err' hinfo).1
        · rename_i hinfo'
          cases hinfo
          exact if_neg hinfo'
      rw [hbelow, Option.bind_some]
      dsimp only at hhandle ⊢
      split at hhandle
      · rename_i hneg
        cases hhandle
        exact if_pos hneg
      · rename_i hpos
        rw [if_neg hpos]
        split at hhandle
        · rename_i hvalue
          obtain ⟨⟨err'', m⟩, hm, hhandle⟩ := Option.map_eq_some_iff.mp hhandle
          cases hhandle
          exact (if_pos hvalue).trans hm
        · rename_i hvalue
          cases hhandle
          exact if_neg hvalue

theorem add_below (s t : State) (id : SndCtlElemId) (w : World) (q : Compared)
    (hstep : step s (.event (.add id w) q) = some t) :
    Mixer.step s.mixer (event_below s.compare (.add id w)) = some t.mixer := by
  obtain ⟨⟨err, t'⟩, hhandle, rfl⟩ := Option.map_eq_some_iff.mp hstep
  obtain ⟨he, hhe, hhandle⟩ := Option.bind_eq_some_iff.mp hhandle
  show (Mixer.hctl_event_handler (with_sorter s.compare w) (listed s.mixer id false) s.mixer.next).map _ = _
  unfold Mixer.hctl_event_handler
  rw [hhe, Option.bind_some]
  split at hhandle
  · rename_i hiface
    cases hhandle
    rw [if_pos hiface]
    rfl
  · rename_i hiface
    rw [if_neg hiface]
    obtain ⟨⟨err', hadd⟩, -⟩ := add_simple_element_below w q _ t' s.mixer.next err hhandle
    exact congrArg (Option.map Prod.snd) hadd

theorem notify_below (s t : State) (h : Nat) (mask : BitVec 32) (w : World) (q : Compared)
    (hstep : step s (.event (.notify h mask w) q) = some t) :
    Mixer.step s.mixer (event_below s.compare (.notify h mask w)) = some t.mixer := by
  unfold step at hstep
  unfold Mixer.step event_below
  dsimp only at hstep ⊢
  cases hhe : s.mixer.helems h with
  | none =>
    rw [hhe] at hstep
    cases hstep
    rfl
  | some he =>
    rw [hhe] at hstep
    dsimp only at hstep ⊢
    split at hstep
    · rename_i hcallback
      obtain ⟨⟨err, t'⟩, hhandle, rfl⟩ := Option.map_eq_some_iff.mp hstep
      rw [if_pos hcallback, hctl_elem_event_handler_below w q s t' h _ err hhandle]
      rfl
    · rename_i hcallback
      cases hstep
      exact if_neg hcallback

theorem remove_below (s t : State) (h : Nat) (w : World) (q : Compared)
    (hstep : step s (.event (.remove h w) q) = some t) :
    Mixer.step s.mixer (event_below s.compare (.remove h w)) = some t.mixer := by
  unfold step at hstep
  unfold Mixer.step event_below
  dsimp only at hstep ⊢
  cases hhe : s.mixer.helems h with
  | none =>
    rw [hhe] at hstep
    cases hstep
    rfl
  | some he =>
    rw [hhe] at hstep
    obtain ⟨⟨err, u⟩, hhandle, rfl⟩ := Option.map_eq_some_iff.mp hstep
    dsimp only
    unfold Mixer.snd_hctl_elem_remove
    dsimp only
    split at hhandle
    · rename_i hcallback
      have hbelow := hctl_elem_event_handler_below w q
        { s with mixer := { s.mixer with hctl := s.mixer.hctl.erase h } } u h _ err hhandle
      dsimp only at hbelow
      rw [if_pos hcallback, hbelow]
      rfl
    · rename_i hcallback
      cases hhandle
      rw [if_neg hcallback]
      rfl

/-- What the model of the comparisons adds leaves the mixer as it was. -/
theorem step_below (s t : State) (act : Act) (q : Compared) (hstep : step s (.event act q) = some t) :
    Mixer.step s.mixer (event_below s.compare act) = some t.mixer := by
  cases act with
  | add id w => exact add_below s t id w q hstep
  | notify h mask w => exact notify_below s t h mask w q hstep
  | remove h w => exact remove_below s t h w q hstep

end Salsa.Mixer.Order
