import Salsa.Errno

/-!
# Intervals

`snd_interval_t` and the interval operations of `pcm_params.c`, in 32-bit arithmetic.
-/

namespace Salsa.HwParams

def UINT_MAX : BitVec 32 := -1#32

structure SndInterval where
  min : BitVec 32
  max : BitVec 32
  openmin : Bool
  openmax : Bool
  integer : Bool
  empty : Bool
deriving DecidableEq

def interval_is_single (i : SndInterval) : Bool :=
  i.min == i.max || (i.min + 1#32 == i.max && i.openmax)

/-- The ends cross, or meet with one of them open. -/
def interval_is_crossed (i : SndInterval) : Bool :=
  i.min > i.max || (i.min == i.max && (i.openmin || i.openmax))

/-- Returns whether the interval is found empty, and flags it then. -/
def interval_check_empty (i : SndInterval) : Bool × SndInterval :=
  if interval_is_crossed i then (true, { i with empty := true }) else (false, i)

/-- `if (!i->integer && integer)` -/
def flag_integer (r : Bool × SndInterval) (integer : Bool) : Bool × SndInterval :=
  if ¬ r.2.integer ∧ integer then (true, { r.2 with integer := true }) else r

/-- The end of a refinement. -/
def checked (changed : Bool) (i : SndInterval) : Int × SndInterval :=
  let (isEmpty, i) := interval_check_empty i
  (if isEmpty then -EINVAL else if changed then 1 else 0, i)

/-- The first step of `snd_interval_refine_min`: the lower end, and `changed`. -/
def raise_min (i : SndInterval) (min : BitVec 32) (openmin : Bool) : Bool × SndInterval :=
  if i.min < min then (true, { i with min, openmin })
  else if i.min = min ∧ ¬ i.openmin ∧ openmin then (true, { i with openmin := true })
  else (false, i)

/-- An integer interval has no open lower end. -/
def close_min (i : SndInterval) : SndInterval :=
  if i.integer ∧ i.openmin then { i with min := i.min + 1#32, openmin := false } else i

def snd_interval_refine_min (i : SndInterval) (min : BitVec 32) (openmin integer : Bool) :
    Int × SndInterval :=
  if i.empty then (-ENOENT, i)
  else
    let (changed, i) := flag_integer (raise_min i min openmin) integer
    checked changed (close_min i)

def lower_max (i : SndInterval) (max : BitVec 32) (openmax : Bool) : Bool × SndInterval :=
  if i.max > max then (true, { i with max, openmax })
  else if i.max = max ∧ ¬ i.openmax ∧ openmax then (true, { i with openmax := true })
  else (false, i)

/-- An integer interval has no open upper end. -/
def close_max (i : SndInterval) : SndInterval :=
  if i.integer ∧ i.openmax then { i with max := i.max - 1#32, openmax := false } else i

def snd_interval_refine_max (i : SndInterval) (max : BitVec 32) (openmax integer : Bool) :
    Int × SndInterval :=
  if i.empty then (-ENOENT, i)
  else
    let (changed, i) := flag_integer (lower_max i max openmax) integer
    checked changed (close_max i)

/-- `changed |= err` of two results that are 0 or 1 is their maximum. -/
def snd_interval_refine (i v : SndInterval) : Int × SndInterval :=
  let (err, i) := snd_interval_refine_min i v.min v.openmin v.integer
  if err < 0 then (err, i)
  else
    let changed := err
    let (err, i) := snd_interval_refine_max i v.max v.openmax v.integer
    if err < 0 then (err, i)
    else
      (max changed err,
        if ¬ i.integer ∧ ¬ i.openmin ∧ ¬ i.openmax ∧ i.min = i.max then { i with integer := true } else i)

def snd_interval_refine_first (i : SndInterval) : Int × SndInterval :=
  if i.empty then (-ENOENT, i)
  else if interval_is_single i then (0, i)
  else
    (1, { i with max := if i.openmin then i.min + 1#32 else i.min, openmax := i.openmin })

def snd_interval_refine_last (i : SndInterval) : Int × SndInterval :=
  if i.empty then (-ENOENT, i)
  else if interval_is_single i then (0, i)
  else
    (1, { i with min := if i.openmax then i.max - 1#32 else i.max, openmin := i.openmax })

def point (val : BitVec 32) : SndInterval :=
  { min := val, max := val, openmin := false, openmax := false, integer := true, empty := false }

def snd_interval_refine_set (i : SndInterval) (val : BitVec 32) : Int × SndInterval :=
  snd_interval_refine i (point val)

end Salsa.HwParams
