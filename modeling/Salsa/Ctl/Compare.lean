import Mathlib.Data.Char
import Mathlib.Data.List.Lex
import Salsa.Ctl.ElemId
import Salsa.Lib.Comparison

/-!
# The order of element ids

`snd_ctl_elem_id_compare_set` of `ctl_macros.h` compares one field after the other by differences in 32 bits.
-/

namespace Salsa.Ctl

open Comparison

def snd_ctl_elem_id_compare_set (strcmp : Cmp (List Char)) : Cmp SndCtlElemId := fun id1 id2 =>
  let d := id1.iface - id2.iface
  if d ≠ 0#32 then d
  else
    let d := id1.device - id2.device
    if d ≠ 0#32 then d
    else
      let d := id1.subdevice - id2.subdevice
      if d ≠ 0#32 then d
      else
        let d := strcmp id1.name id2.name
        if d ≠ 0#32 then d else id1.index - id2.index

/-- The first field in which two ids differ, and the difference, if that is not the name. -/
def difference : Decision SndCtlElemId := fun id1 id2 =>
  if id1.iface ≠ id2.iface then some (0, id1.iface - id2.iface)
  else if id1.device ≠ id2.device then some (1, id1.device - id2.device)
  else if id1.subdevice ≠ id2.subdevice then some (2, id1.subdevice - id2.subdevice)
  else if id1.name ≠ id2.name then none
  else if id1.index ≠ id2.index then some (4, id1.index - id2.index)
  else none

structure SameFields (a b : SndCtlElemId) : Prop where
  iface : a.iface = b.iface
  device : a.device = b.device
  subdevice : a.subdevice = b.subdevice
  name : a.name = b.name
  index : a.index = b.index

/-- What a total order demands of three ids. -/
structure Ordered (cmp : Cmp SndCtlElemId) (a b c : SndCtlElemId) : Prop where
  zero : cmp a b = 0#32 ↔ SameFields a b
  antisymmetric : Antisymmetric cmp a b
  transitive : Transitive cmp a b c

/-! ## A chain of comparisons -/

abbrev Fields := BitVec 32 × BitVec 32 × BitVec 32 × List Char × BitVec 32

def fields (id : SndCtlElemId) : Fields := (id.iface, id.device, id.subdevice, id.name, id.index)

def compare_fields (strcmp : Cmp (List Char)) : Cmp Fields :=
  chain subtract (chain subtract (chain subtract (chain strcmp subtract)))

def decide_fields : Decision Fields :=
  chain_decision subtract_decision (chain_decision subtract_decision (chain_decision subtract_decision
    (chain_decision (fun _ _ => none) subtract_decision)))

theorem fields_eq_iff (a b : SndCtlElemId) : fields a = fields b ↔ SameFields a b := by
  unfold fields
  simp only [Prod.mk.injEq]
  exact ⟨fun ⟨h₁, h₂, h₃, h₄, h₅⟩ => ⟨h₁, h₂, h₃, h₄, h₅⟩, fun h => ⟨h.iface, h.device, h.subdevice, h.name, h.index⟩⟩

theorem compare_set_eq (strcmp : Cmp (List Char)) :
    snd_ctl_elem_id_compare_set strcmp = fun a b => compare_fields strcmp (fields a) (fields b) := rfl

theorem difference_eq : difference = fun a b => decide_fields (fields a) (fields b) := by
  funext a b
  unfold difference decide_fields chain_decision subtract_decision fields
  dsimp only
  split_ifs <;> first | rfl | contradiction

theorem exact_compare_fields (strcmp : Cmp (List Char)) (h : IsOrder strcmp) :
    Exact (compare_fields strcmp) decide_fields := by
  have hsubtract (x y : BitVec 32) (f : Nat) (d : BitVec 32) (hd : subtract_decision x y = some (f, d)) : f = 0 := by
    unfold subtract_decision at hd
    split at hd
    · cases hd
    · exact (Prod.mk.inj (Option.some.inj hd)).1.symm
  have hname := h.exact.chain exact_subtract fun x y f d hd => absurd hd.symm (Option.some_ne_none _)
  exact exact_subtract.chain (exact_subtract.chain (exact_subtract.chain hname hsubtract) hsubtract) hsubtract

/-- It is an order as far as the differences are small enough. -/
theorem compare_set_ordered_iff (strcmp : Cmp (List Char)) (h : IsOrder strcmp) (a b c : SndCtlElemId) :
    Ordered (snd_ctl_elem_id_compare_set strcmp) a b c ↔ Apart difference a b ∧ Near difference a b c := by
  have hexact := exact_compare_fields strcmp h
  have hzero := (hexact.zero (fields a) (fields b)).trans (fields_eq_iff a b)
  have hanti := hexact.antisymmetric (fields a) (fields b)
  have htrans := hexact.transitive (fields a) (fields b) (fields c)
  rw [compare_set_eq, difference_eq]
  constructor
  · intro hordered
    have hapart := hanti.mp hordered.antisymmetric
    exact ⟨hapart, (htrans hapart).mp hordered.transitive⟩
  · rintro ⟨hapart, hnear⟩
    exact ⟨hzero, hanti.mpr hapart, (htrans hapart).mpr hnear⟩

/-- A `strcmp` that returns -1, 0 or 1. -/
def sign_strcmp : Cmp (List Char) := fun s t => if s < t then -1#32 else if s = t then 0#32 else 1#32

theorem sign_strcmp_isOrder : IsOrder sign_strcmp := by
  constructor
  · intro s t
    unfold sign_strcmp
    split_ifs with hlt heq
    · exact iff_of_true (by decide) hlt
    · exact iff_of_false (by decide) hlt
    · exact iff_of_false (by decide) hlt
  · intro s t
    unfold sign_strcmp
    split_ifs with hlt heq
    · exact iff_of_false (by decide) (lt_asymm hlt)
    · exact iff_of_false (by decide) (heq ▸ lt_irrefl s)
    · exact iff_of_true (by decide) (lt_of_le_of_ne (not_lt.mp hlt) (Ne.symm heq))

/-- A PCM control of some device and subdevice. -/
def device_id (device : BitVec 32) : SndCtlElemId := ⟨0#32, 3#32, device, 0#32, ['P', 'C', 'M'], 0#32⟩

theorem compare_set_ordered_iff_devices :
    Ordered (snd_ctl_elem_id_compare_set sign_strcmp) (device_id 0#32) (device_id 1#32) (device_id 2#32) :=
  (compare_set_ordered_iff sign_strcmp sign_strcmp_isOrder (device_id 0#32) (device_id 1#32) (device_id 2#32)).mpr
    ⟨fun f d hd => by cases hd; decide, fun f d e hd he _ _ => by cases hd; cases he; decide⟩

/-- Devices at a distance of 2^31 come before each other; and three that are 0x60000000 apart go round in a circle. -/
theorem compare_set_is_no_order :
    ¬ Ordered (snd_ctl_elem_id_compare_set sign_strcmp) (device_id 0#32) (device_id 0x80000000#32) (device_id 0#32) ∧
      ¬ Ordered (snd_ctl_elem_id_compare_set sign_strcmp) (device_id 0#32) (device_id 0x60000000#32)
        (device_id 0xc0000000#32) := by
  constructor
  · intro h
    exact absurd (h.antisymmetric.mp (by decide)) (by decide)
  · intro h
    exact absurd (h.transitive (by decide) (by decide)) (by decide)

end Salsa.Ctl
