import Salsa.HwParams.Mask
import Salsa.HwParams.Interval
import Mathlib.Data.Fintype.Pi

/-!
# Hardware parameters

`snd_pcm_hw_params_t` and the setters of `pcm_params.c` over it.
-/

namespace Salsa.HwParams

structure SndPcmHwParams where
  flags : BitVec 32
  masks : Fin 3 → SndMask
  mres : Fin 5 → SndMask
  intervals : Fin 12 → SndInterval
  ires : Fin 9 → SndInterval
  rmask : BitVec 32
  cmask : BitVec 32
  info : BitVec 32
  msbits : BitVec 32
  rate_num : BitVec 32
  rate_den : BitVec 32
  fifo_size : BitVec 64
  reserved : Fin 64 → BitVec 8
deriving DecidableEq

inductive Var where
  | mask (m : Fin 3)
  | interval (n : Fin 12)
deriving DecidableEq

def SNDRV_PCM_HW_PARAM_ACCESS : Fin 3 := 0
def SNDRV_PCM_HW_PARAM_FORMAT : Fin 3 := 1
def SNDRV_PCM_HW_PARAM_SUBFORMAT : Fin 3 := 2
def SNDRV_PCM_HW_PARAM_FIRST_INTERVAL : Nat := 8

def Var.bit : Var → BitVec 32
  | .mask m => 1#32 <<< m.val
  | .interval n => 1#32 <<< (n.val + SNDRV_PCM_HW_PARAM_FIRST_INTERVAL)

def SndPcmHwParams.set_mask (params : SndPcmHwParams) (m : Fin 3) (mask : SndMask) : SndPcmHwParams :=
  { params with masks := Function.update params.masks m mask }

def SndPcmHwParams.set_interval (params : SndPcmHwParams) (n : Fin 12) (i : SndInterval) :
    SndPcmHwParams :=
  { params with intervals := Function.update params.intervals n i }

/-- `params->cmask |= 1 << var; params->rmask |= 1 << var` -/
def SndPcmHwParams.mark (params : SndPcmHwParams) (var : Var) : SndPcmHwParams :=
  { params with cmask := params.cmask ||| var.bit, rmask := params.rmask ||| var.bit }

/-- The kernel's HW_REFINE: an errno, 0 for success, and what it leaves in the parameters. -/
abbrev HwRefine := SndPcmHwParams → Nat × SndPcmHwParams

def snd_pcm_hw_refine (hw : HwRefine) (params : SndPcmHwParams) : Int × SndPcmHwParams :=
  let (errno, params) := hw params
  (-(errno : Int), params)

def snd_pcm_hw_param_empty (params : SndPcmHwParams) : Var → Bool
  | .mask m => mask_is_empty (params.masks m)
  | .interval n => (params.intervals n).empty

/-- A value with its direction, whose pointer may be NULL. -/
structure Val where
  val : BitVec 32
  dir : Option Int
deriving DecidableEq

/-- `dir ? *dir : 0` -/
def Val.dirOr0 (v : Val) : Int := v.dir.getD 0

/-- `*val = ..`, and `*dir = ..` unless it is NULL. -/
def Val.write (v : Val) (val : BitVec 32) (dir : Int) : Val := ⟨val, v.dir.map fun _ => dir⟩

/-! ## Reading -/

def _snd_pcm_hw_param_get_min (params : SndPcmHwParams) (var : Var) (v : Val) : Val :=
  match var with
  | .mask m => v.write (BitVec.ofNat 32 (mask_get_min (params.masks m))) 0
  | .interval n => v.write (params.intervals n).min (if (params.intervals n).openmin then 1 else 0)

def _snd_pcm_hw_param_get_max (params : SndPcmHwParams) (var : Var) (v : Val) : Val :=
  match var with
  | .mask m => v.write (BitVec.ofNat 32 (mask_get_max (params.masks m))) 0
  | .interval n => v.write (params.intervals n).max (if (params.intervals n).openmax then -1 else 0)

def _snd_pcm_hw_param_get (params : SndPcmHwParams) (var : Var) (v : Val) : Int × Val :=
  match var with
  | .mask m =>
    if mask_is_empty (params.masks m) ∨ ¬ mask_is_single (params.masks m) then (-EINVAL, v)
    else (0, v.write (BitVec.ofNat 32 (mask_get_min (params.masks m))) 0)
  | .interval n =>
    let i := params.intervals n
    if i.empty ∨ ¬ interval_is_single i then (-EINVAL, v)
    else (0, v.write i.min (if i.openmin then 1 else 0))

/-! ## Refining one parameter -/

def on_mask (params : SndPcmHwParams) (m : Fin 3) (r : Option (Int × SndMask)) :
    Option (Int × SndPcmHwParams) :=
  r.map fun (ret, mask) => (ret, params.set_mask m mask)

def on_interval (params : SndPcmHwParams) (n : Fin 12) (r : Int × SndInterval) :
    Option (Int × SndPcmHwParams) :=
  some (r.1, params.set_interval n r.2)

/-- The end that `hw_param_set_min` asks an interval for. -/
def min_end (val : BitVec 32) (dir : Int) : BitVec 32 × Bool :=
  if dir > 0 then (val, true)
  else if dir < 0 ∧ val > 0#32 then (val - 1#32, true)
  else (val, false)

def hw_param_set_min (params : SndPcmHwParams) (var : Var) (val : BitVec 32) (dir : Int) :
    Option (Int × SndPcmHwParams) :=
  match var with
  | .mask m => on_mask params m (snd_mask_refine_min (params.masks m) val.toNat)
  | .interval n =>
    let (val, openmin) := min_end val dir
    on_interval params n (snd_interval_refine_min (params.intervals n) val openmin false)

/-- The end that `hw_param_set_max` asks an interval for. -/
def max_end (val : BitVec 32) (dir : Int) : BitVec 32 × Bool :=
  if dir ≠ 0 then (if dir > 0 then val + 1#32 else val, true) else (val, false)

def hw_param_set_max (params : SndPcmHwParams) (var : Var) (val : BitVec 32) (dir : Int) :
    Option (Int × SndPcmHwParams) :=
  match var with
  | .mask m => on_mask params m (snd_mask_refine_max (params.masks m) val.toNat)
  | .interval n =>
    let (val, openmax) := max_end val dir
    on_interval params n (snd_interval_refine_max (params.intervals n) val openmax false)

def hw_param_set_minmax (params : SndPcmHwParams) (var : Var) (min : BitVec 32) (mindir : Int)
    (max : BitVec 32) (maxdir : Int) : Option (Int × SndPcmHwParams) :=
  (hw_param_set_min params var min mindir).bind fun (c1, params) =>
    if c1 < 0 then some (c1, params)
    else
      (hw_param_set_max params var max maxdir).map fun (c2, params) =>
        if c2 < 0 then (c2, params) else (if c1 ≠ 0 ∨ c2 ≠ 0 then 1 else 0, params)

/-- The open interval next to `val` that `hw_param_set` asks for when `dir` is not 0. -/
def open_unit (val : BitVec 32) (dir : Int) : SndInterval :=
  { min := if dir < 0 then val - 1#32 else val, max := if dir < 0 then val else val + 1#32,
    openmin := true, openmax := true, integer := false, empty := false }

def hw_param_set (params : SndPcmHwParams) (var : Var) (val : BitVec 32) (dir : Int) :
    Option (Int × SndPcmHwParams) :=
  match var with
  | .mask m =>
    if val = 0#32 ∧ dir < 0 then some (-EINVAL, params.set_mask m mask_clear)
    else
      let val := if dir > 0 then val + 1#32 else if dir < 0 then val - 1#32 else val
      on_mask params m (snd_mask_refine_set (params.masks m) val.toNat)
  | .interval n =>
    let i := params.intervals n
    if val = 0#32 ∧ dir < 0 then some (-EINVAL, params.set_interval n { i with empty := true })
    else if dir = 0 then on_interval params n (snd_interval_refine_set i val)
    else on_interval params n (snd_interval_refine i (open_unit val dir))

def hw_param_set_first (params : SndPcmHwParams) (var : Var) : Option (Int × SndPcmHwParams) :=
  match var with
  | .mask m => on_mask params m (snd_mask_refine_first (params.masks m))
  | .interval n => on_interval params n (snd_interval_refine_first (params.intervals n))

def hw_param_set_last (params : SndPcmHwParams) (var : Var) : Option (Int × SndPcmHwParams) :=
  match var with
  | .mask m => on_mask params m (snd_mask_refine_last (params.masks m))
  | .interval n => on_interval params n (snd_interval_refine_last (params.intervals n))

/-! ## The setters -/

def hw_param_update_var (hw : HwRefine) (params : SndPcmHwParams) (var : Var) (changed : Int) :
    Int × SndPcmHwParams :=
  if changed < 0 then (changed, params)
  else
    let params := if changed ≠ 0 then params.mark var else params
    if params.rmask ≠ 0#32 then
      let (changed, params) := snd_pcm_hw_refine hw params
      if changed < 0 then (changed, params)
      else if snd_pcm_hw_param_empty params var then (-ENOENT, params)
      else (0, params)
    else (0, params)

/-- The refined parameter goes to the kernel. -/
def refine_and_update (hw : HwRefine) (var : Var) (refined : Option (Int × SndPcmHwParams)) :
    Option (Int × SndPcmHwParams) :=
  refined.map fun (changed, params) => hw_param_update_var hw params var changed

def _snd_pcm_hw_param_set_min (hw : HwRefine) (params : SndPcmHwParams) (var : Var) (v : Val) :
    Option (Int × SndPcmHwParams × Val) :=
  let save := params
  (refine_and_update hw var (hw_param_set_min params var v.val v.dirOr0)).map fun (err, params) =>
    if err = 0 then (0, params, _snd_pcm_hw_param_get_min params var v) else (err, save, v)

def _snd_pcm_hw_param_set_max (hw : HwRefine) (params : SndPcmHwParams) (var : Var) (v : Val) :
    Option (Int × SndPcmHwParams × Val) :=
  let save := params
  (refine_and_update hw var (hw_param_set_max params var v.val v.dirOr0)).map fun (err, params) =>
    if err = 0 then (0, params, _snd_pcm_hw_param_get_max params var v) else (err, save, v)

def _snd_pcm_hw_param_set_minmax (hw : HwRefine) (params : SndPcmHwParams) (var : Var) (min max : Val) :
    Option (Int × SndPcmHwParams × Val × Val) :=
  let save := params
  (refine_and_update hw var
    (hw_param_set_minmax params var min.val min.dirOr0 max.val max.dirOr0)).map fun (err, params) =>
    if err = 0 then
      (0, params, _snd_pcm_hw_param_get_min params var min, _snd_pcm_hw_param_get_max params var max)
    else (err, save, min, max)

def _snd_pcm_hw_param_set (hw : HwRefine) (params : SndPcmHwParams) (var : Var) (val : BitVec 32)
    (dir : Int) : Option (Int × SndPcmHwParams) :=
  let save := params
  (refine_and_update hw var (hw_param_set params var val dir)).map fun (err, params) =>
    (err, if err < 0 then save else params)

def _snd_pcm_hw_param_test (hw : HwRefine) (params : SndPcmHwParams) (var : Var) (v : Val) :
    Option (Int × SndPcmHwParams) :=
  let save := params
  (_snd_pcm_hw_param_set hw params var v.val v.dirOr0).map fun (err, _) => (err, save)

/-- The callers name an interval; of a mask the function would read an interval in front of
the first one. -/
def _snd_pcm_hw_param_set_integer (hw : HwRefine) (params : SndPcmHwParams) :
    Var → Option (Int × SndPcmHwParams)
  | .mask _ => none
  | .interval n =>
    let i := params.intervals n
    if i.integer then some (0, params)
    else
      let (isEmpty, i) := interval_check_empty i
      let params := params.set_interval n i
      if isEmpty then some (-EINVAL, params)
      else
        let save := params
        let (err, params) :=
          hw_param_update_var hw (params.set_interval n { i with integer := true }) (.interval n) 1
        some (err, if err < 0 then save else params)

/-- The callers name a mask; an interval would be taken for a mask behind the last one. -/
def _snd_pcm_hw_param_set_mask (hw : HwRefine) (params : SndPcmHwParams) (var : Var) (val : SndMask) :
    Option (Int × SndPcmHwParams) :=
  match var with
  | .interval _ => none
  | .mask m =>
    let (changed, mask) := snd_mask_refine (params.masks m) val
    let params := params.set_mask m mask
    let params := if changed ≠ 0 then params.mark (.mask m) else params
    if params.rmask ≠ 0#32 then some (snd_pcm_hw_refine hw params) else some (0, params)

def snd_pcm_hw_params_set_access_mask (hw : HwRefine) (params : SndPcmHwParams) (mask : SndMask) :
    Option (Int × SndPcmHwParams) :=
  _snd_pcm_hw_param_set_mask hw params (.mask SNDRV_PCM_HW_PARAM_ACCESS) mask

def snd_pcm_hw_params_set_format_mask (hw : HwRefine) (params : SndPcmHwParams) (mask : SndMask) :
    Option (Int × SndPcmHwParams) :=
  _snd_pcm_hw_param_set_mask hw params (.mask SNDRV_PCM_HW_PARAM_FORMAT) mask

def snd_pcm_hw_params_set_subformat_mask (hw : HwRefine) (params : SndPcmHwParams) (mask : SndMask) :
    Option (Int × SndPcmHwParams) :=
  _snd_pcm_hw_param_set_mask hw params (.mask SNDRV_PCM_HW_PARAM_SUBFORMAT) mask

/-- `val` may be NULL; without it nothing but `dir` is written. -/
def _snd_pcm_hw_param_set_first (hw : HwRefine) (params : SndPcmHwParams) (var : Var) (v : Val) :
    Option (Int × SndPcmHwParams × Val) :=
  (refine_and_update hw var (hw_param_set_first params var)).map fun (err, params) =>
    if err = 0 then
      let (err, v) := _snd_pcm_hw_param_get params var v
      (err, params, v)
    else (err, params, v)

def _snd_pcm_hw_param_set_last (hw : HwRefine) (params : SndPcmHwParams) (var : Var) (v : Val) :
    Option (Int × SndPcmHwParams × Val) :=
  (refine_and_update hw var (hw_param_set_last params var)).map fun (err, params) =>
    if err = 0 then
      let (err, v) := _snd_pcm_hw_param_get params var v
      (err, params, v)
    else (err, params, v)

/-! ## The nearest value -/

def sign (dir : Int) : Int := if dir < 0 then -1 else if dir > 0 then 1 else 0

def boundary_sub (a : BitVec 32) (adir : Int) (b : BitVec 32) (bdir : Int) : BitVec 32 × Int :=
  let a := a - b
  let cdir := sign adir - sign bdir
  (if cdir = -2 then a - 1#32 else if cdir = 2 then a + 1#32 else a, cdir)

def boundary_lt (a : BitVec 32) (adir : Int) (b : BitVec 32) (bdir : Int) : Bool :=
  let (a, adir) := if adir < 0 then (a - 1#32, 1) else (a, if adir > 0 then 1 else adir)
  let (b, bdir) := if bdir < 0 then (b - 1#32, 1) else (b, if bdir > 0 then 1 else bdir)
  a < b || (a == b && adir < bdir)

def boundary_nearer (min : BitVec 32) (mindir : Int) (best : BitVec 32) (bestdir : Int)
    (max : BitVec 32) (maxdir : Int) : Bool :=
  let (dmin, dmindir) := boundary_sub best bestdir min mindir
  let (dmax, dmaxdir) := boundary_sub max maxdir best bestdir
  boundary_lt dmin dmindir dmax dmaxdir

def INT_MAX_U : BitVec 32 := 0x7fffffff#32

/-- `best`, the value as far as an int goes. -/
def near_best (val : BitVec 32) : BitVec 32 := if val > INT_MAX_U then INT_MAX_U else val

/-- `max` and `maxdir`, the first values below. -/
def near_max (best : BitVec 32) (valdir : Int) : Val :=
  if valdir > 0 then ⟨best, some 0⟩
  else if valdir = 0 then ⟨best, some (-1)⟩
  else ⟨best - 1#32, some 1⟩

/-- What the search has come to: a result, or the label `_end`, where the last or the first
value of the parameters is taken. -/
inductive NearChoice where
  | done (ret : Int) (params : SndPcmHwParams) (v : Val)
  | finish (last : Bool) (params : SndPcmHwParams)

/-- The part of `_snd_pcm_hw_param_set_near` in front of `_end`. -/
def near_choose (hw : HwRefine) (params : SndPcmHwParams) (n : Fin 12) (v : Val) : Option NearChoice :=
  let valdir := v.dirOr0
  let best := near_best v.val
  let max := near_max best valdir
  let save := params
  (_snd_pcm_hw_param_set_min hw params (.interval n) ⟨best, some valdir⟩).bind fun (err, params, min) =>
    let i := params.intervals n
    if ¬ i.empty ∧ interval_is_single i then
      some (.done 0 params (_snd_pcm_hw_param_get_min params (.interval n) v))
    else if err ≥ 0 then
      if min.val = best ∧ min.dirOr0 = valdir then some (.finish false params)
      else
        (_snd_pcm_hw_param_set_max hw save (.interval n) max).map fun (err, params1, max) =>
          if err < 0 then .finish false params
          else if boundary_nearer max.val max.dirOr0 best valdir min.val min.dirOr0 then
            .finish true params1
          else .finish false params
    else
      (_snd_pcm_hw_param_set_max hw save (.interval n) max).map fun (err, params, _) =>
        if err < 0 then .done err params v else .finish true params

/-- Of a mask the function would read an interval in front of the first one. -/
def _snd_pcm_hw_param_set_near (hw : HwRefine) (params : SndPcmHwParams) (var : Var) (v : Val) :
    Option (Int × SndPcmHwParams × Val) :=
  match var with
  | .mask _ => none
  | .interval n =>
    (near_choose hw params n v).bind fun choice =>
      match choice with
      | .done ret params v => some (ret, params, v)
      | .finish true params => _snd_pcm_hw_param_set_last hw params var v
      | .finish false params => _snd_pcm_hw_param_set_first hw params var v

/-! ## What the updates leave -/

@[simp] theorem masks_set_mask (p : SndPcmHwParams) (m : Fin 3) (mask : SndMask) :
    (p.set_mask m mask).masks m = mask := Function.update_self _ _ _

@[simp] theorem intervals_set_interval (p : SndPcmHwParams) (n : Fin 12) (i : SndInterval) :
    (p.set_interval n i).intervals n = i := Function.update_self _ _ _

theorem set_mask_self (p : SndPcmHwParams) (m : Fin 3) : p.set_mask m (p.masks m) = p := by
  simp [SndPcmHwParams.set_mask]

theorem set_interval_self (p : SndPcmHwParams) (n : Fin 12) : p.set_interval n (p.intervals n) = p := by
  simp [SndPcmHwParams.set_interval]

theorem hw_param_update_var_error (hw : HwRefine) (params : SndPcmHwParams) (var : Var) (changed : Int)
    (h : changed < 0) : hw_param_update_var hw params var changed = (changed, params) := by
  rw [hw_param_update_var, if_pos h]

/-! ## What the search comes to -/

/-- `set_min` leaves a single value, or an end is taken of what it leaves, or it is left to `set_max`. -/
theorem near_choose_cases (hw : HwRefine) (p : SndPcmHwParams) (n : Fin 12) (v : Val) (choice : NearChoice)
    (h : near_choose hw p n v = some choice) :
    ∃ err q min, _snd_pcm_hw_param_set_min hw p (.interval n) ⟨near_best v.val, some v.dirOr0⟩ = some (err, q, min) ∧
      ((¬ (q.intervals n).empty = true ∧ interval_is_single (q.intervals n) = true) ∧
          choice = .done 0 q (_snd_pcm_hw_param_get_min q (.interval n) v) ∨
        0 ≤ err ∧ choice = .finish false q ∨
        ∃ err2 q2 max, _snd_pcm_hw_param_set_max hw p (.interval n) (near_max (near_best v.val) v.dirOr0) =
            some (err2, q2, max) ∧
          (err2 < 0 ∧ choice = .done err2 q2 v ∨ ¬ err2 < 0 ∧ choice = .finish true q2)) := by
  unfold near_choose at h
  obtain ⟨⟨err, q, min⟩, hset, h⟩ := Option.bind_eq_some_iff.mp h
  refine ⟨err, q, min, hset, ?_⟩
  dsimp only at h
  by_cases hsingle : ¬ (q.intervals n).empty = true ∧ interval_is_single (q.intervals n) = true
  · rw [if_pos hsingle] at h
    exact .inl ⟨hsingle, (Option.some.inj h).symm⟩
  rw [if_neg hsingle] at h
  right
  by_cases herr : err ≥ 0
  · rw [if_pos herr] at h
    split at h
    · exact .inl ⟨herr, (Option.some.inj h).symm⟩
    · obtain ⟨⟨err2, q2, max⟩, hset2, rfl⟩ := Option.map_eq_some_iff.mp h
      dsimp only
      split_ifs with herr2 hnear
      · exact .inl ⟨herr, rfl⟩
      · exact .inr ⟨err2, q2, max, hset2, .inr ⟨herr2, rfl⟩⟩
      · exact .inl ⟨herr, rfl⟩
  · rw [if_neg herr] at h
    obtain ⟨⟨err2, q2, max⟩, hset2, rfl⟩ := Option.map_eq_some_iff.mp h
    dsimp only
    split_ifs with herr2
    · exact .inr ⟨err2, q2, max, hset2, .inl ⟨herr2, rfl⟩⟩
    · exact .inr ⟨err2, q2, max, hset2, .inr ⟨herr2, rfl⟩⟩

end Salsa.HwParams
