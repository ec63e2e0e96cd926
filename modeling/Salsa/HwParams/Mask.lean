import Salsa.Errno
import Mathlib.Data.Fin.Basic
import Mathlib.Logic.Function.Basic

/-!
# Masks

`snd_mask_t` and the mask operations of `pcm_params.c`. A value of 256 or more indexes
outside of the words of a mask: such a call has no defined outcome (`none`).
-/

namespace Salsa.HwParams

def SND_MASK_MAX : Nat := 256

structure SndMask where
  bits : Fin 8 → BitVec 32

theorem SndMask.ext {m n : SndMask} (h : ∀ w, m.bits w = n.bits w) : m = n := by
  cases m
  cases n
  exact congrArg _ (funext h)

instance : DecidableEq SndMask := fun m n =>
  if h : ∀ w, m.bits w = n.bits w then isTrue (SndMask.ext h)
  else isFalse fun heq => h fun _ => heq ▸ rfl

def MASK_BIT (i : Nat) : BitVec 32 := 1#32 <<< (i % 32)

def MASK_OFS (i : Nat) : Option (Fin 8) := if h : i / 32 < 8 then some ⟨i / 32, h⟩ else none

def mask_clear : SndMask := ⟨fun _ => 0#32⟩

def mask_is_empty (mask : SndMask) : Bool := decide (∀ w, mask.bits w = 0#32)

def mask_get (mask : SndMask) (val : Nat) : Option (BitVec 32) :=
  (MASK_OFS val).map fun w => mask.bits w &&& MASK_BIT val

def mask_reset (mask : SndMask) (val : Nat) : Option SndMask :=
  (MASK_OFS val).map fun w => ⟨Function.update mask.bits w (mask.bits w &&& ~~~MASK_BIT val)⟩

/-- The loop over the words, `c` of which were seen with one bit. -/
def mask_is_single_loop : List (BitVec 32) → Nat → Bool
  | [], _ => true
  | v :: rest, c =>
    if v = 0#32 then mask_is_single_loop rest c
    else if v &&& (v - 1#32) ≠ 0#32 then false
    else if c ≠ 0 then false
    else mask_is_single_loop rest (c + 1)

def mask_is_single (mask : SndMask) : Bool := mask_is_single_loop (List.ofFn mask.bits) 0

def mask_leave_single (mask : SndMask) (val : Nat) : Option SndMask :=
  (MASK_OFS val).map fun w => ⟨Function.update mask_clear.bits w (mask.bits w &&& MASK_BIT val)⟩

def mask_reset_loop : Nat → Nat → SndMask → Option SndMask
  | 0, _, mask => some mask
  | n + 1, first, mask => (mask_reset mask first).bind (mask_reset_loop n (first + 1))

def mask_reset_range (mask : SndMask) (first last : Nat) : Option SndMask :=
  mask_reset_loop (last + 1 - first) first mask

/-- One round of the loop of `ld2`, which runs while `v > 1`. -/
def ld2_round (r : Nat × BitVec 32) (bits : Nat) : Nat × BitVec 32 :=
  if r.2 > 1#32 ∧ r.2 ≥ 1#32 <<< bits then (r.1 + bits, r.2 >>> bits) else r

def ld2 (v : BitVec 32) : Nat := ([16, 8, 4, 2, 1].foldl ld2_round (0, v)).1

/-- The position of the first bit, from 1 on, or 0. -/
def ffs (v : BitVec 32) : Nat := (((List.range 32).find? (v.getLsbD ·)).map (· + 1)).getD 0

def mask_get_max (mask : SndMask) : Nat :=
  ((List.finRange 8).reverse.find? fun w => mask.bits w ≠ 0#32).elim 0 fun w =>
    ld2 (mask.bits w) + 32 * w.val

def mask_get_min (mask : SndMask) : Nat :=
  ((List.finRange 8).find? fun w => mask.bits w ≠ 0#32).elim 0 fun w =>
    ffs (mask.bits w) - 1 + 32 * w.val

/-- Only the sign of `memcmp` is the library's: the bytes get smaller. -/
def snd_mask_refine (mask v : SndMask) : Int × SndMask :=
  let new : SndMask := ⟨fun w => mask.bits w &&& v.bits w⟩
  (if mask_is_empty new then -EINVAL else if new = mask then 0 else -1, new)

def snd_mask_refine_first (mask : SndMask) : Option (Int × SndMask) :=
  if mask_is_empty mask then some (-ENOENT, mask)
  else if mask_is_single mask then some (0, mask)
  else (mask_leave_single mask (mask_get_min mask)).map fun mask => (1, mask)

def snd_mask_refine_last (mask : SndMask) : Option (Int × SndMask) :=
  if mask_is_empty mask then some (-ENOENT, mask)
  else if mask_is_single mask then some (0, mask)
  else (mask_leave_single mask (mask_get_max mask)).map fun mask => (1, mask)

def snd_mask_refine_min (mask : SndMask) (val : Nat) : Option (Int × SndMask) :=
  if mask_is_empty mask then some (-ENOENT, mask)
  else if mask_get_min mask ≥ val then some (0, mask)
  else (mask_reset_range mask 0 (val - 1)).map fun mask =>
    (if mask_is_empty mask then -EINVAL else 1, mask)

def snd_mask_refine_max (mask : SndMask) (val : Nat) : Option (Int × SndMask) :=
  if mask_is_empty mask then some (-ENOENT, mask)
  else if mask_get_max mask ≤ val then some (0, mask)
  else (mask_reset_range mask (val + 1) (SND_MASK_MAX - 1)).map fun mask =>
    (if mask_is_empty mask then -EINVAL else 1, mask)

def snd_mask_refine_set (mask : SndMask) (val : Nat) : Option (Int × SndMask) :=
  if mask_is_empty mask then some (-ENOENT, mask)
  else
    let changed : Int := if mask_is_single mask then 0 else 1
    (mask_leave_single mask val).map fun mask => (if mask_is_empty mask then -EINVAL else changed, mask)

end Salsa.HwParams
