import Salsa.HwParams.Narrow
import Salsa.HwParams.Near
import Salsa.Pcm.Setup

/-!
# Frame counts of 64 bits

The setters and getters of the period and the buffer size, whose parameters have 32 bits.
-/

namespace Salsa.Pcm

open HwParams Ends

/-- A frame count with its direction, whose pointer may be NULL. -/
structure Frames where
  val : Uframes
  dir : Option Int
deriving DecidableEq

/-- `unsigned int _val = *val` -/
def Frames.cut (v : Frames) : Val := ⟨v.val.setWidth 32, v.dir⟩

/-- `*val = _val` -/
def widened (v : Val) : Frames := ⟨v.val.setWidth 64, v.dir⟩

/-- `DEFINE_GET64`; the local `_val` holds `stack` before. -/
def define_get64 (get : Val → Int × Val) (stack : BitVec 32) (v : Frames) : Int × Frames :=
  let (err, val) := get ⟨stack, v.dir⟩
  (err, widened val)

def _snd_pcm_hw_param_get64 (params : SndPcmHwParams) (n : Fin 12) : BitVec 32 → Frames → Int × Frames :=
  define_get64 (_snd_pcm_hw_param_get params (.interval n))

def _snd_pcm_hw_param_get_min64 (params : SndPcmHwParams) (n : Fin 12) : BitVec 32 → Frames → Int × Frames :=
  define_get64 fun v => (0, _snd_pcm_hw_param_get_min params (.interval n) v)

def _snd_pcm_hw_param_get_max64 (params : SndPcmHwParams) (n : Fin 12) : BitVec 32 → Frames → Int × Frames :=
  define_get64 fun v => (0, _snd_pcm_hw_param_get_max params (.interval n) v)

/-- `DEFINE_SET64` -/
def define_set64 (set : Val → Option (Int × SndPcmHwParams × Val)) (v : Frames) :
    Option (Int × SndPcmHwParams × Frames) :=
  (set v.cut).map fun (err, params, val) => (err, params, widened val)

section Setters

variable (hw : HwRefine) (params : SndPcmHwParams) (n : Fin 12)

def _snd_pcm_hw_param_set_min64 : Frames → Option (Int × SndPcmHwParams × Frames) :=
  define_set64 (_snd_pcm_hw_param_set_min hw params (.interval n))

def _snd_pcm_hw_param_set_max64 : Frames → Option (Int × SndPcmHwParams × Frames) :=
  define_set64 (_snd_pcm_hw_param_set_max hw params (.interval n))

def _snd_pcm_hw_param_set_near64 : Frames → Option (Int × SndPcmHwParams × Frames) :=
  define_set64 (_snd_pcm_hw_param_set_near hw params (.interval n))

def _snd_pcm_hw_param_set_first64 : Frames → Option (Int × SndPcmHwParams × Frames) :=
  define_set64 (_snd_pcm_hw_param_set_first hw params (.interval n))

def _snd_pcm_hw_param_set_last64 : Frames → Option (Int × SndPcmHwParams × Frames) :=
  define_set64 (_snd_pcm_hw_param_set_last hw params (.interval n))

def _snd_pcm_hw_param_set_minmax64 (minval maxval : Frames) :
    Option (Int × SndPcmHwParams × Frames × Frames) :=
  (_snd_pcm_hw_param_set_minmax hw params (.interval n) minval.cut maxval.cut).map
    fun (err, params, min, max) => (err, params, widened min, widened max)

/-! ## The period size -/

def snd_pcm_hw_params_get_period_size := _snd_pcm_hw_param_get64 params PERIOD_SIZE

def snd_pcm_hw_params_get_period_size_min := _snd_pcm_hw_param_get_min64 params PERIOD_SIZE

def snd_pcm_hw_params_get_period_size_max := _snd_pcm_hw_param_get_max64 params PERIOD_SIZE

/-- The parameter of the function called is an `unsigned int`. -/
def snd_pcm_hw_params_set_period_size (val : Uframes) (dir : Int) : Option (Int × SndPcmHwParams) :=
  _snd_pcm_hw_param_set hw params (.interval PERIOD_SIZE) (val.setWidth 32) dir

def snd_pcm_hw_params_set_period_size_min := _snd_pcm_hw_param_set_min64 hw params PERIOD_SIZE

def snd_pcm_hw_params_set_period_size_max := _snd_pcm_hw_param_set_max64 hw params PERIOD_SIZE

def snd_pcm_hw_params_set_period_size_minmax := _snd_pcm_hw_param_set_minmax64 hw params PERIOD_SIZE

def snd_pcm_hw_params_set_period_size_near := _snd_pcm_hw_param_set_near64 hw params PERIOD_SIZE

def snd_pcm_hw_params_set_period_size_first := _snd_pcm_hw_param_set_first64 hw params PERIOD_SIZE

def snd_pcm_hw_params_set_period_size_last := _snd_pcm_hw_param_set_last64 hw params PERIOD_SIZE

/-! ## The buffer size, without a direction -/

def snd_pcm_hw_params_get_buffer_size (stack : BitVec 32) (val : Uframes) : Int × Frames :=
  _snd_pcm_hw_param_get64 params BUFFER_SIZE stack ⟨val, none⟩

def snd_pcm_hw_params_get_buffer_size_min (stack : BitVec 32) (val : Uframes) : Int × Frames :=
  _snd_pcm_hw_param_get_min64 params BUFFER_SIZE stack ⟨val, none⟩

def snd_pcm_hw_params_get_buffer_size_max (stack : BitVec 32) (val : Uframes) : Int × Frames :=
  _snd_pcm_hw_param_get_max64 params BUFFER_SIZE stack ⟨val, none⟩

def snd_pcm_hw_params_set_buffer_size (val : Uframes) : Option (Int × SndPcmHwParams) :=
  _snd_pcm_hw_param_set hw params (.interval BUFFER_SIZE) (val.setWidth 32) 0

def snd_pcm_hw_params_set_buffer_size_min (val : Uframes) : Option (Int × SndPcmHwParams × Frames) :=
  _snd_pcm_hw_param_set_min64 hw params BUFFER_SIZE ⟨val, none⟩

def snd_pcm_hw_params_set_buffer_size_max (val : Uframes) : Option (Int × SndPcmHwParams × Frames) :=
  _snd_pcm_hw_param_set_max64 hw params BUFFER_SIZE ⟨val, none⟩

def snd_pcm_hw_params_set_buffer_size_minmax64 (min max : Uframes) :
    Option (Int × SndPcmHwParams × Frames × Frames) :=
  _snd_pcm_hw_param_set_minmax64 hw params BUFFER_SIZE ⟨min, none⟩ ⟨max, none⟩

def snd_pcm_hw_params_set_buffer_size_near (val : Uframes) : Option (Int × SndPcmHwParams × Frames) :=
  _snd_pcm_hw_param_set_near64 hw params BUFFER_SIZE ⟨val, none⟩

def snd_pcm_hw_params_set_buffer_size_first (val : Uframes) : Option (Int × SndPcmHwParams × Frames) :=
  _snd_pcm_hw_param_set_first64 hw params BUFFER_SIZE ⟨val, none⟩

def snd_pcm_hw_params_set_buffer_size_last (val : Uframes) : Option (Int × SndPcmHwParams × Frames) :=
  _snd_pcm_hw_param_set_last64 hw params BUFFER_SIZE ⟨val, none⟩

end Setters

/-! ## Calls -/

/-- What is asked of a size. -/
inductive FramesRequest where
  | set (val : Uframes) (dir : Int)
  | set_min (v : Frames)
  | set_max (v : Frames)
  | set_minmax (min max : Frames)
  | set_near (v : Frames)
  | set_first (v : Frames)
  | set_last (v : Frames)
  | get (stack : BitVec 32) (v : Frames)
  | get_min (stack : BitVec 32) (v : Frames)
  | get_max (stack : BitVec 32) (v : Frames)

inductive FramesCall where
  | set_period_size (val : Uframes) (dir : Int)
  | set_period_size_min (v : Frames)
  | set_period_size_max (v : Frames)
  | set_period_size_minmax (min max : Frames)
  | set_period_size_near (v : Frames)
  | set_period_size_first (v : Frames)
  | set_period_size_last (v : Frames)
  | get_period_size (stack : BitVec 32) (v : Frames)
  | get_period_size_min (stack : BitVec 32) (v : Frames)
  | get_period_size_max (stack : BitVec 32) (v : Frames)
  | set_buffer_size (val : Uframes)
  | set_buffer_size_min (val : Uframes)
  | set_buffer_size_max (val : Uframes)
  | set_buffer_size_minmax (min max : Uframes)
  | set_buffer_size_near (val : Uframes)
  | set_buffer_size_first (val : Uframes)
  | set_buffer_size_last (val : Uframes)
  | get_buffer_size (stack : BitVec 32) (val : Uframes)
  | get_buffer_size_min (stack : BitVec 32) (val : Uframes)
  | get_buffer_size_max (stack : BitVec 32) (val : Uframes)

/-- The result of a call, with what its pointers point to then. -/
abbrev Result := Option (Int × SndPcmHwParams × List Frames)

def of_set (r : Option (Int × SndPcmHwParams)) : Result := r.map fun (ret, params) => (ret, params, [])

def of_ptr (r : Option (Int × SndPcmHwParams × Frames)) : Result :=
  r.map fun (ret, params, v) => (ret, params, [v])

def of_ptrs (r : Option (Int × SndPcmHwParams × Frames × Frames)) : Result :=
  r.map fun (ret, params, min, max) => (ret, params, [min, max])

def of_get (params : SndPcmHwParams) (r : Int × Frames) : Result := some (r.1, params, [r.2])

def FramesCall.run (hw : HwRefine) (params : SndPcmHwParams) : FramesCall → Result
  | .set_period_size val dir => of_set (snd_pcm_hw_params_set_period_size hw params val dir)
  | .set_period_size_min v => of_ptr (snd_pcm_hw_params_set_period_size_min hw params v)
  | .set_period_size_max v => of_ptr (snd_pcm_hw_params_set_period_size_max hw params v)
  | .set_period_size_minmax min max => of_ptrs (snd_pcm_hw_params_set_period_size_minmax hw params min max)
  | .set_period_size_near v => of_ptr (snd_pcm_hw_params_set_period_size_near hw params v)
  | .set_period_size_first v => of_ptr (snd_pcm_hw_params_set_period_size_first hw params v)
  | .set_period_size_last v => of_ptr (snd_pcm_hw_params_set_period_size_last hw params v)
  | .get_period_size stack v => of_get params (snd_pcm_hw_params_get_period_size params stack v)
  | .get_period_size_min stack v => of_get params (snd_pcm_hw_params_get_period_size_min params stack v)
  | .get_period_size_max stack v => of_get params (snd_pcm_hw_params_get_period_size_max params stack v)
  | .set_buffer_size val => of_set (snd_pcm_hw_params_set_buffer_size hw params val)
  | .set_buffer_size_min val => of_ptr (snd_pcm_hw_params_set_buffer_size_min hw params val)
  | .set_buffer_size_max val => of_ptr (snd_pcm_hw_params_set_buffer_size_max hw params val)
  | .set_buffer_size_minmax min max => of_ptrs (snd_pcm_hw_params_set_buffer_size_minmax64 hw params min max)
  | .set_buffer_size_near val => of_ptr (snd_pcm_hw_params_set_buffer_size_near hw params val)
  | .set_buffer_size_first val => of_ptr (snd_pcm_hw_params_set_buffer_size_first hw params val)
  | .set_buffer_size_last val => of_ptr (snd_pcm_hw_params_set_buffer_size_last hw params val)
  | .get_buffer_size stack val => of_get params (snd_pcm_hw_params_get_buffer_size params stack val)
  | .get_buffer_size_min stack val => of_get params (snd_pcm_hw_params_get_buffer_size_min params stack val)
  | .get_buffer_size_max stack val => of_get params (snd_pcm_hw_params_get_buffer_size_max params stack val)

def FramesCall.request : FramesCall → Fin 12 × FramesRequest
  | .set_period_size val dir => (PERIOD_SIZE, .set val dir)
  | .set_period_size_min v => (PERIOD_SIZE, .set_min v)
  | .set_period_size_max v => (PERIOD_SIZE, .set_max v)
  | .set_period_size_minmax min max => (PERIOD_SIZE, .set_minmax min max)
  | .set_period_size_near v => (PERIOD_SIZE, .set_near v)
  | .set_period_size_first v => (PERIOD_SIZE, .set_first v)
  | .set_period_size_last v => (PERIOD_SIZE, .set_last v)
  | .get_period_size stack v => (PERIOD_SIZE, .get stack v)
  | .get_period_size_min stack v => (PERIOD_SIZE, .get_min stack v)
  | .get_period_size_max stack v => (PERIOD_SIZE, .get_max stack v)
  | .set_buffer_size val => (BUFFER_SIZE, .set val 0)
  | .set_buffer_size_min val => (BUFFER_SIZE, .set_min ⟨val, none⟩)
  | .set_buffer_size_max val => (BUFFER_SIZE, .set_max ⟨val, none⟩)
  | .set_buffer_size_minmax min max => (BUFFER_SIZE, .set_minmax ⟨min, none⟩ ⟨max, none⟩)
  | .set_buffer_size_near val => (BUFFER_SIZE, .set_near ⟨val, none⟩)
  | .set_buffer_size_first val => (BUFFER_SIZE, .set_first ⟨val, none⟩)
  | .set_buffer_size_last val => (BUFFER_SIZE, .set_last ⟨val, none⟩)
  | .get_buffer_size stack val => (BUFFER_SIZE, .get stack ⟨val, none⟩)
  | .get_buffer_size_min stack val => (BUFFER_SIZE, .get_min stack ⟨val, none⟩)
  | .get_buffer_size_max stack val => (BUFFER_SIZE, .get_max stack ⟨val, none⟩)

/-- What a request of a parameter does. -/
def perform64 (hw : HwRefine) (params : SndPcmHwParams) (n : Fin 12) : FramesRequest → Result
  | .set val dir => of_set (_snd_pcm_hw_param_set hw params (.interval n) (val.setWidth 32) dir)
  | .set_min v => of_ptr (_snd_pcm_hw_param_set_min64 hw params n v)
  | .set_max v => of_ptr (_snd_pcm_hw_param_set_max64 hw params n v)
  | .set_minmax min max => of_ptrs (_snd_pcm_hw_param_set_minmax64 hw params n min max)
  | .set_near v => of_ptr (_snd_pcm_hw_param_set_near64 hw params n v)
  | .set_first v => of_ptr (_snd_pcm_hw_param_set_first64 hw params n v)
  | .set_last v => of_ptr (_snd_pcm_hw_param_set_last64 hw params n v)
  | .get stack v => of_get params (_snd_pcm_hw_param_get64 params n stack v)
  | .get_min stack v => of_get params (_snd_pcm_hw_param_get_min64 params n stack v)
  | .get_max stack v => of_get params (_snd_pcm_hw_param_get_max64 params n stack v)

theorem run_eq (hw : HwRefine) (params : SndPcmHwParams) (c : FramesCall) :
    c.run hw params = perform64 hw params c.request.1 c.request.2 := by
  cases c <;> rfl

/-! ## What a request promises -/

def count (val : Uframes) : ℚ := val.toNat

/-- What a request allows: the bounds of `set`, `set_min` and `set_max`, for the whole frame count. -/
def FramesRequest.allowed : FramesRequest → Set ℚ
  | .set val dir => {x | if dir = 0 then x = count val
      else if dir > 0 then count val < x ∧ x < count val + 1
      else count val - 1 < x ∧ x < count val}
  | .set_min v => {x | if v.dir.getD 0 = 0 then count v.val ≤ x
      else if v.dir.getD 0 > 0 then count v.val < x else count v.val - 1 < x}
  | .set_max v => {x | if v.dir.getD 0 = 0 then x ≤ count v.val
      else if v.dir.getD 0 > 0 then x < count v.val + 1 else x < count v.val}
  | _ => Set.univ

def FramesRequest.values : FramesRequest → List Uframes
  | .set _ _ => []
  | .set_minmax min max => [min.val, max.val]
  | .set_min v => [v.val]
  | .set_max v => [v.val]
  | .set_near v => [v.val]
  | .set_first v => [v.val]
  | .set_last v => [v.val]
  | .get _ v => [v.val]
  | .get_min _ v => [v.val]
  | .get_max _ v => [v.val]

/-- The request that the 32-bit search gets for `v`, which is `INT_MAX` at most. -/
def Frames.limited (v : Frames) : Val := ⟨BitVec.ofNat 32 (min v.val.toNat 2147483647), v.dir⟩

/-- The search selects what the 32-bit search does. -/
def FramesRequest.Selects (hw : HwRefine) (params : SndPcmHwParams) (n : Fin 12) (ret : Int)
    (params' : SndPcmHwParams) (after : List Frames) : FramesRequest → Prop
  | .set_near v => ∃ selected, _snd_pcm_hw_param_set_near hw params (.interval n) v.limited =
      some (ret, params', selected) ∧ (0 ≤ ret → after = [widened selected])
  | _ => True

/-- A call that succeeds keeps to the whole frame count, one that fails leaves it where it is, and a
search ignores what is above `INT_MAX`. -/
def Respects (hw : HwRefine) (params : SndPcmHwParams) (n : Fin 12) (r : FramesRequest) (result : Result) : Prop :=
  ∀ ret params' after, result = some (ret, params', after) →
    (0 ≤ ret → denote (params'.intervals n) ⊆ r.allowed) ∧
      (ret < 0 → after.map Frames.val = r.values) ∧ r.Selects hw params n ret params' after

/-- The ends of an interval that has not been found empty have not crossed. -/
def Ordered (params : SndPcmHwParams) (n : Fin 12) : Prop :=
  (params.intervals n).empty = false → interval_is_crossed (params.intervals n) = false

/-! ## When a call keeps its promise -/

def Short (val : Uframes) : Prop := val.toNat < 4294967296

/-- The frame count has 32 bits, and the lower end that it makes does not wrap around. -/
def MinShort (val : Uframes) (dir : Int) : Prop := Short val ∧ ¬ (val.toNat = 4294967295 ∧ dir > 0)

/-- The narrowed parameters as the kernel leaves them, if it is asked and accepts them. -/
def accepted (hw : HwRefine) (n : Fin 12) (narrowed : Option (Int × SndPcmHwParams)) : Option SndPcmHwParams :=
  narrowed.bind fun (changed, params) =>
    let params := if changed ≠ 0 then params.mark (.interval n) else params
    if changed < 0 then none
    else if params.rmask = 0#32 then some params
    else if (hw params).1 = 0 ∧ ((hw params).2.intervals n).empty = false then some (hw params).2
    else none

/-- The kernel does not accept the parameters, or leaves an interval with nothing in it. -/
def NoneLeft (hw : HwRefine) (n : Fin 12) (narrowed : Option (Int × SndPcmHwParams)) : Prop :=
  ∀ q, accepted hw n narrowed = some q → denote (q.intervals n) = ∅

def HasOne (i : SndInterval) : Prop := i.empty = false ∧ interval_is_single i = true

/-- The kernel accepts the parameters, and leaves a single value. -/
def OneLeft (hw : HwRefine) (n : Fin 12) (narrowed : Option (Int × SndPcmHwParams)) : Prop :=
  ∃ q, accepted hw n narrowed = some q ∧ HasOne (q.intervals n)

/-- The search for the lower half succeeds, and it is one for `INT_MAX`, or the kernel makes both end at the same. -/
def SameSearch (hw : HwRefine) (params : SndPcmHwParams) (n : Fin 12) (v : Frames) : Prop :=
  ∃ ret q w, 0 ≤ ret ∧ _snd_pcm_hw_param_set_near hw params (.interval n) v.cut = some (ret, q, w) ∧
    (2147483647 ≤ v.cut.val.toNat ∨
      _snd_pcm_hw_param_set_near hw params (.interval n) v.limited = some (ret, q, w))

def FramesRequest.Meets (hw : HwRefine) (params : SndPcmHwParams) (n : Fin 12) : FramesRequest → Prop
  | .set val dir =>
    let narrowed := hw_param_set params (.interval n) (val.setWidth 32) dir
    MinShort val dir ∨ NoneLeft hw n narrowed
  | .set_min v =>
    let narrowed := hw_param_set_min params (.interval n) v.cut.val v.cut.dirOr0
    MinShort v.val v.cut.dirOr0 ∨ (Short v.val ∨ (accepted hw n narrowed).isSome) ∧ NoneLeft hw n narrowed
  | .set_max v =>
    let narrowed := hw_param_set_max params (.interval n) v.cut.val v.cut.dirOr0
    (Short v.val ∨ (accepted hw n narrowed).isSome) ∧ (¬ (v.val = 0 ∧ v.cut.dirOr0 < 0) ∨ NoneLeft hw n narrowed)
  | .set_minmax min max =>
    Short min.val ∧ Short max.val ∨ (accepted hw n (hw_param_set_minmax params (.interval n) min.cut.val
      min.cut.dirOr0 max.cut.val max.cut.dirOr0)).isSome
  | .set_near v => Short v.val ∨ SameSearch hw params n v
  | .set_first v => Short v.val ∨ OneLeft hw n (hw_param_set_first params (.interval n))
  | .set_last v => Short v.val ∨ OneLeft hw n (hw_param_set_last params (.interval n))
  | .get stack v => v.val = stack.setWidth 64 ∨ HasOne (params.intervals n)
  | .get_min _ _ => True
  | .get_max _ _ => True

/-! ## Frame counts of 32 bits -/

theorem widened_cut (v : Frames) (h : v.val.toNat < 4294967296) : widened v.cut = v := by
  obtain ⟨val, dir⟩ := v
  have hval : (val.setWidth 32).setWidth 64 = val := by
    apply BitVec.eq_of_toNat_eq
    rw [BitVec.toNat_setWidth, BitVec.toNat_setWidth]
    dsimp only at h
    omega
  unfold widened Frames.cut
  dsimp only
  rw [hval]

theorem num_cut (val : Uframes) (h : val.toNat < 4294967296) : num (val.setWidth 32) = count val := by
  unfold num count
  rw [BitVec.toNat_setWidth, Nat.mod_eq_of_lt h]

/-- A frame count of more than 32 bits is not read back. -/
theorem widened_ne (v : Frames) (w : Val) (h : ¬ v.val.toNat < 4294967296) : (widened w).val ≠ v.val := by
  intro heq
  apply h
  have hlt := w.val.isLt
  rw [← heq]
  unfold widened
  rw [BitVec.toNat_setWidth]
  omega

theorem allowed_min (v : Frames) (h : v.val.toNat < 4294967296) :
    (FramesRequest.set_min v).allowed = min_bound v.cut.val v.cut.dirOr0 := by
  unfold FramesRequest.allowed min_bound Frames.cut Val.dirOr0
  rw [num_cut v.val h]

theorem allowed_max (v : Frames) (h : v.val.toNat < 4294967296) :
    (FramesRequest.set_max v).allowed = max_bound v.cut.val v.cut.dirOr0 := by
  unfold FramesRequest.allowed max_bound Frames.cut Val.dirOr0
  rw [num_cut v.val h]

theorem allowed_set (val : Uframes) (dir : Int) (h : val.toNat < 4294967296) :
    (FramesRequest.set val dir).allowed = set_bound (val.setWidth 32) dir := by
  unfold FramesRequest.allowed set_bound
  rw [num_cut val h]

theorem cut_eq_last (val : Uframes) (h : val.toNat < 4294967296) (hlast : val.setWidth 32 = UINT_MAX) :
    val.toNat = 4294967295 := by
  have hnat := congrArg BitVec.toNat hlast
  rw [BitVec.toNat_setWidth, Nat.mod_eq_of_lt h] at hnat
  exact hnat

theorem cut_eq_zero (val : Uframes) (h : val.toNat < 4294967296) (hzero : val.setWidth 32 = 0#32) :
    val = 0 := by
  apply BitVec.eq_of_toNat_eq
  have hnat := congrArg BitVec.toNat hzero
  rwa [BitVec.toNat_setWidth, Nat.mod_eq_of_lt h] at hnat

/-! ## Ends that do not wrap -/

theorem minFits_of_ordered (params : SndPcmHwParams) (n : Fin 12) (val : BitVec 32) (dir : Int)
    (h : Ordered params n) (hlast : ¬ (0 < dir ∧ val = UINT_MAX)) : MinFits params (.interval n) val dir :=
  not_minWraps_of_end _ _ _ _ h (min_end_inside val dir hlast)

theorem maxFits_of_ordered (params : SndPcmHwParams) (n : Fin 12) (val : BitVec 32) (dir : Int)
    (h : Ordered params n) (hend : (max_end val dir).1 ≠ 0#32 ∨ (max_end val dir).2 = false) :
    MaxFits params (.interval n) val dir := by
  intro hwraps
  exact not_maxWraps _ _ _ _ (h hwraps.1) hend hwraps

theorem setFits_of_ordered (params : SndPcmHwParams) (n : Fin 12) (val : BitVec 32) (dir : Int)
    (h : Ordered params n) (hlast : ¬ (0 < dir ∧ val = UINT_MAX)) : SetFits params (.interval n) val dir :=
  fun hzero => not_minWraps_of_end _ _ _ _ h (asked_inside val dir hlast hzero)

/-! ## What a failure leaves -/

/-- A setter that fails leaves what its pointer points to. -/
def Spares (set : Val → Option (Int × SndPcmHwParams × Val)) : Prop :=
  ∀ v ret params' v', set v = some (ret, params', v') → ret < 0 → v' = v

section Spares

variable (hw : HwRefine) (params : SndPcmHwParams) (n : Fin 12)

theorem get_spares (v : Val) (h : (_snd_pcm_hw_param_get params (.interval n) v).1 < 0) :
    (_snd_pcm_hw_param_get params (.interval n) v).2 = v := by
  unfold _snd_pcm_hw_param_get at h ⊢
  dsimp only at h ⊢
  by_cases hempty : (params.intervals n).empty = true ∨ ¬ interval_is_single (params.intervals n) = true
  · rw [if_pos hempty]
  · rw [if_neg hempty] at h
    exact absurd h (lt_irrefl 0)

theorem taken_spares (refined : Option (Int × SndPcmHwParams)) (v v' : Val) (ret : Int) (params' : SndPcmHwParams)
    (h : (refined.map fun (err, params) =>
      if err = 0 then
        let (err, v) := _snd_pcm_hw_param_get params (.interval n) v
        (err, params, v)
      else (err, params, v)) = some (ret, params', v')) (hret : ret < 0) : v' = v := by
  obtain ⟨⟨err, q⟩, -, heq⟩ := Option.map_eq_some_iff.mp h
  dsimp only at heq
  split_ifs at heq with herr
  · obtain ⟨rfl, hrest⟩ := Prod.mk.inj heq
    rw [← (Prod.mk.inj hrest).2]
    exact get_spares q n v hret
  · exact (Prod.mk.inj (Prod.mk.inj heq).2).2.symm

theorem set_first_spares : Spares (_snd_pcm_hw_param_set_first hw params (.interval n)) :=
  fun v ret params' v' h hret => taken_spares n _ v v' ret params' h hret

theorem set_last_spares : Spares (_snd_pcm_hw_param_set_last hw params (.interval n)) :=
  fun v ret params' v' h hret => taken_spares n _ v v' ret params' h hret

/-- The search itself fails only where it has not written anything. -/
theorem done_spares (v : Val) (err : Int) (q : SndPcmHwParams) (w : Val)
    (h : near_choose hw params n v = some (.done err q w)) (herr : err < 0) : w = v := by
  obtain ⟨err1, q1, min, -, ⟨-, hdone⟩ | ⟨-, hdone⟩ | ⟨err2, q2, max, -, ⟨-, hdone⟩ | ⟨-, hdone⟩⟩⟩ :=
    near_choose_cases hw params n v _ h
  · obtain ⟨rfl, -, -⟩ := NearChoice.done.inj hdone
    exact absurd herr (lt_irrefl 0)
  · cases hdone
  · exact (NearChoice.done.inj hdone).2.2
  · cases hdone

theorem near_spares : Spares (_snd_pcm_hw_param_set_near hw params (.interval n)) := by
  intro v ret params' v' h hret
  obtain ⟨choice, hchoose, h⟩ := Option.bind_eq_some_iff.mp h
  cases choice with
  | done err q w =>
    dsimp only at h
    obtain ⟨rfl, rfl, rfl⟩ : err = ret ∧ q = params' ∧ w = v' := by
      simpa only [Option.some.injEq, Prod.mk.injEq] using h
    exact done_spares hw params n v err q w hchoose hret
  | finish last q =>
    cases last with
    | true => exact set_last_spares hw q n v ret params' v' h hret
    | false => exact set_first_spares hw q n v ret params' v' h hret

end Spares

/-! ## What the search looks at -/

section Alike

variable (hw : HwRefine) (params : SndPcmHwParams) (n : Fin 12) (v w : Val) (hdir : v.dir = w.dir)

/-- Two results that differ in nothing but what is left after a failure. -/
def Alike (r r' : Option (Int × SndPcmHwParams × Val)) : Prop :=
  ∀ ret q x, r = some (ret, q, x) → ∃ x', r' = some (ret, q, x') ∧ (0 ≤ ret → x' = x)

include hdir

theorem dirOr0_congr : v.dirOr0 = w.dirOr0 := by
  unfold Val.dirOr0
  rw [hdir]

theorem write_congr (val : BitVec 32) (dir : Int) : v.write val dir = w.write val dir := by
  unfold Val.write
  rw [hdir]

theorem get_congr (ret : Int) (x : Val) (h : _snd_pcm_hw_param_get params (.interval n) v = (ret, x)) :
    ∃ x', _snd_pcm_hw_param_get params (.interval n) w = (ret, x') ∧ (0 ≤ ret → x' = x) := by
  unfold _snd_pcm_hw_param_get at h ⊢
  dsimp only at h ⊢
  by_cases hempty : (params.intervals n).empty = true ∨ ¬ interval_is_single (params.intervals n) = true
  · rw [if_pos hempty] at h ⊢
    obtain ⟨rfl, -⟩ := Prod.mk.inj h
    exact ⟨w, rfl, fun hret => absurd hret (by decide)⟩
  · rw [if_neg hempty] at h ⊢
    obtain ⟨rfl, rfl⟩ := Prod.mk.inj h
    exact ⟨_, rfl, fun _ => (write_congr v w hdir _ _).symm⟩

theorem taken_congr (refined : Option (Int × SndPcmHwParams)) :
    Alike
      ((refine_and_update hw (.interval n) refined).map fun (err, params) =>
        if err = 0 then
          let (err, v) := _snd_pcm_hw_param_get params (.interval n) v
          (err, params, v)
        else (err, params, v))
      ((refine_and_update hw (.interval n) refined).map fun (err, params) =>
        if err = 0 then
          let (err, v) := _snd_pcm_hw_param_get params (.interval n) w
          (err, params, v)
        else (err, params, w)) := by
  intro ret q x h
  obtain ⟨⟨err, p⟩, hrefined, heq⟩ := Option.map_eq_some_iff.mp h
  have hle := refine_and_update_nonpos hw _ refined err p hrefined
  rw [hrefined, Option.map_some]
  dsimp only at heq ⊢
  by_cases herr : err = 0
  · rw [if_pos herr] at heq ⊢
    obtain ⟨hret, hrest⟩ := Prod.mk.inj heq
    obtain ⟨rfl, hx⟩ := Prod.mk.inj hrest
    obtain ⟨x', hget, hsame⟩ := get_congr p n v w hdir ret x (Prod.ext hret hx)
    rw [hget]
    exact ⟨x', rfl, hsame⟩
  · rw [if_neg herr] at heq ⊢
    obtain ⟨rfl, hrest⟩ := Prod.mk.inj heq
    obtain ⟨rfl, rfl⟩ := Prod.mk.inj hrest
    exact ⟨w, rfl, fun hret => absurd (le_antisymm hle hret) herr⟩

theorem set_first_congr : Alike (_snd_pcm_hw_param_set_first hw params (.interval n) v)
    (_snd_pcm_hw_param_set_first hw params (.interval n) w) := taken_congr hw n v w hdir _

theorem set_last_congr : Alike (_snd_pcm_hw_param_set_last hw params (.interval n) v)
    (_snd_pcm_hw_param_set_last hw params (.interval n) w) := taken_congr hw n v w hdir _

def ChoiceAlike : NearChoice → NearChoice → Prop
  | .done ret q x, choice => ∃ x', choice = .done ret q x' ∧ (0 ≤ ret → x' = x)
  | .finish last q, choice => choice = .finish last q

variable (hbest : near_best v.val = near_best w.val)

include hbest

theorem near_choose_congr (choice : NearChoice) (h : near_choose hw params n v = some choice) :
    ∃ choice', near_choose hw params n w = some choice' ∧ ChoiceAlike choice choice' := by
  unfold near_choose at h ⊢
  rw [hbest, dirOr0_congr v w hdir] at h
  dsimp only
  obtain ⟨⟨err1, q1, min⟩, hmin, h⟩ := Option.bind_eq_some_iff.mp h
  rw [hmin, Option.bind_some]
  dsimp only at h ⊢
  by_cases hsingle : ¬ (q1.intervals n).empty = true ∧ interval_is_single (q1.intervals n) = true
  · rw [if_pos hsingle] at h ⊢
    obtain rfl := Option.some.inj h
    exact ⟨_, rfl, _, rfl, fun _ => (write_congr v w hdir _ _).symm⟩
  rw [if_neg hsingle] at h ⊢
  by_cases hret : err1 ≥ 0
  · rw [if_pos hret] at h ⊢
    by_cases hexact : min.val = near_best w.val ∧ min.dirOr0 = w.dirOr0
    · rw [if_pos hexact] at h ⊢
      obtain rfl := Option.some.inj h
      exact ⟨_, rfl, rfl⟩
    · rw [if_neg hexact] at h ⊢
      obtain ⟨⟨err2, q2, max⟩, hmax, rfl⟩ := Option.map_eq_some_iff.mp h
      rw [hmax, Option.map_some]
      dsimp only
      refine ⟨_, rfl, ?_⟩
      split_ifs
      · rfl
      · rfl
      · rfl
  · rw [if_neg hret] at h ⊢
    obtain ⟨⟨err2, q2, max⟩, hmax, rfl⟩ := Option.map_eq_some_iff.mp h
    rw [hmax, Option.map_some]
    dsimp only
    by_cases herr : err2 < 0
    · rw [if_pos herr, if_pos herr]
      exact ⟨_, rfl, w, rfl, fun hle => absurd herr (not_lt.mpr hle)⟩
    · rw [if_neg herr, if_neg herr]
      exact ⟨_, rfl, rfl⟩

theorem set_near_congr : Alike (_snd_pcm_hw_param_set_near hw params (.interval n) v)
    (_snd_pcm_hw_param_set_near hw params (.interval n) w) := by
  intro ret q x h
  obtain ⟨choice, hchoose, h⟩ := Option.bind_eq_some_iff.mp h
  obtain ⟨choice', hchoose', halike⟩ := near_choose_congr hw params n v w hdir hbest choice hchoose
  unfold _snd_pcm_hw_param_set_near
  dsimp only
  rw [hchoose', Option.bind_some]
  cases choice with
  | done err p y =>
    obtain ⟨x', rfl, hsame⟩ := halike
    obtain ⟨rfl, rfl, rfl⟩ : err = ret ∧ p = q ∧ y = x := by
      simpa only [Option.some.injEq, Prod.mk.injEq] using h
    exact ⟨x', rfl, hsame⟩
  | finish last p =>
    obtain rfl := halike
    cases last with
    | true => exact set_last_congr hw p n v w hdir ret q x h
    | false => exact set_first_congr hw p n v w hdir ret q x h

end Alike

theorem near_best_toNat (val : BitVec 32) : (near_best val).toNat = min val.toNat 2147483647 := by
  unfold near_best
  split_ifs with h
  · have h : 2147483647 < val.toNat := h
    show 2147483647 = min val.toNat 2147483647
    omega
  · have h : ¬ 2147483647 < val.toNat := h
    omega

theorem near_best_limited (v : Frames) (h : v.val.toNat < 4294967296 ∨ 2147483647 ≤ v.cut.val.toNat) :
    near_best v.cut.val = near_best v.limited.val := by
  apply BitVec.eq_of_toNat_eq
  rw [near_best_toNat, near_best_toNat]
  unfold Frames.cut at h ⊢
  unfold Frames.limited
  dsimp only at h ⊢
  rw [BitVec.toNat_setWidth] at h ⊢
  rw [BitVec.toNat_ofNat]
  omega

end Salsa.Pcm
