import Salsa.HwParams.Intersect
import Salsa.Lib.Nearest

/-!
# The nearest supported value

`_snd_pcm_hw_param_set_near` over a kernel that supports some values of one parameter.
-/

open Ends Nearest

namespace Salsa.HwParams

def Inside (S : Finset (BitVec 32)) (i : SndInterval) : Set (BitVec 32) := {s | s ∈ S ∧ num s ∈ denote i}

/-- The closed interval of integers from the first to the last value of `T`. -/
structure Hull (T : Set (BitVec 32)) (i : SndInterval) : Prop where
  first : i.min ∈ T
  least : ∀ t ∈ T, num i.min ≤ num t
  last : i.max ∈ T
  greatest : ∀ t ∈ T, num t ≤ num i.max
  openmin : i.openmin = false
  openmax : i.openmax = false
  integer : i.integer = true
  empty : i.empty = false

/-- HW_REFINE fails where no supported value is left, and leaves the hull of those that are. -/
def Supports (S : Finset (BitVec 32)) (n : Fin 12) (hw : HwRefine) : Prop :=
  ∀ params, (Inside S (params.intervals n) = ∅ → (hw params).1 ≠ 0) ∧
    ((Inside S (params.intervals n)).Nonempty → (hw params).1 = 0 ∧
      Hull (Inside S (params.intervals n)) ((hw params).2.intervals n))

def Above (S : Finset (BitVec 32)) (val : BitVec 32) : Set (BitVec 32) := {s | s ∈ S ∧ num val ≤ num s}

def Below (S : Finset (BitVec 32)) (val : BitVec 32) : Set (BitVec 32) := {s | s ∈ S ∧ num s < num val}

theorem not_num_lt_zero (a : BitVec 32) : ¬ num a < num 0#32 := by
  rw [← num_lt_iff, BitVec.lt_def]
  exact Nat.not_lt_zero _

theorem denote_point (x : BitVec 32) : denote (point x) = {num x} := by
  ext y
  rw [Set.mem_singleton_iff]
  constructor
  · rintro ⟨hmin, hmax, -⟩
    exact le_antisymm hmax hmin
  · rintro rfl
    exact ⟨le_refl (num x), le_refl (num x), fun _ => num_integer x⟩

theorem point_single (x : BitVec 32) : interval_is_single (point x) = true := by
  unfold interval_is_single point
  rw [beq_self_eq_true, Bool.true_or]

theorem Hull.eq_point {T : Set (BitVec 32)} {i : SndInterval} (x : BitVec 32) (h : Hull T i) (hmin : i.min = x)
    (hmax : i.max = x) : i = point x := by
  obtain ⟨min, max, openmin, openmax, integer, empty⟩ := i
  obtain ⟨-, -, -, -, ho, ho', hi, he⟩ := h
  dsimp only at hmin hmax ho ho' hi he
  rw [hmin, hmax, ho, ho', hi, he]
  rfl

theorem Hull.of_forall {T : Set (BitVec 32)} {i : SndInterval} (x : BitVec 32) (h : Hull T i)
    (hT : ∀ t ∈ T, t = x) : i = point x := h.eq_point x (hT _ h.first) (hT _ h.last)

theorem Hull.single {T : Set (BitVec 32)} {i : SndInterval} (h : Hull T i) (hsingle : interval_is_single i = true) :
    i = point i.min := by
  apply h.eq_point _ rfl
  unfold interval_is_single at hsingle
  rw [h.openmax, Bool.and_false, Bool.or_false] at hsingle
  exact (beq_iff_eq.mp hsingle).symm

theorem Hull.eq_singleton {T : Set (BitVec 32)} {i : SndInterval} (h : Hull T i)
    (hsingle : interval_is_single i = true) : T = {i.min} := by
  apply Set.eq_singleton_iff_unique_mem.mpr
  refine ⟨h.first, fun t ht => ?_⟩
  have hle := h.greatest t ht
  have hmax : i.max = i.min := by
    rw [h.single hsingle]
    rfl
  rw [hmax] at hle
  exact num_inj _ _ (le_antisymm hle (h.least t ht))

/-! ## The request to the kernel -/

theorem mark_rmask (params : SndPcmHwParams) (n : Fin 12) : (params.mark (.interval n)).rmask ≠ 0#32 := by
  intro h
  have hbit : ∀ n : Fin 12, Var.bit (.interval n) ≠ 0#32 := by decide
  apply hbit n
  apply BitVec.eq_of_getLsbD_eq
  intro k hk
  have hor := congrArg (fun b : BitVec 32 => b.getLsbD k) h
  simp only [SndPcmHwParams.mark, BitVec.getLsbD_or, BitVec.getLsbD_zero, Bool.or_eq_false_iff] at hor
  rw [hor.2, BitVec.getLsbD_zero]

section Kernel

variable (S : Finset (BitVec 32)) (n : Fin 12) (hw : HwRefine) (hS : Supports S n hw)

include hS

theorem update_refined (params : SndPcmHwParams) (changed : Int) (hchanged : 0 ≤ changed)
    (hcalls : changed ≠ 0 ∨ params.rmask ≠ 0#32) :
    (Inside S (params.intervals n) = ∅ → (hw_param_update_var hw params (.interval n) changed).1 < 0) ∧
      ((Inside S (params.intervals n)).Nonempty →
        (hw_param_update_var hw params (.interval n) changed).1 = 0 ∧ Hull (Inside S (params.intervals n))
          ((hw_param_update_var hw params (.interval n) changed).2.intervals n)) := by
  obtain ⟨q, hq, hrmask, hintervals⟩ : ∃ q, (if changed ≠ 0 then params.mark (.interval n) else params) = q ∧
      q.rmask ≠ 0#32 ∧ q.intervals n = params.intervals n := by
    by_cases h0 : changed ≠ 0
    · exact ⟨_, rfl, by rw [if_pos h0]; exact mark_rmask params n, by rw [if_pos h0]; rfl⟩
    · exact ⟨_, rfl, by rw [if_neg h0]; exact hcalls.resolve_left h0, by rw [if_neg h0]⟩
  obtain ⟨hfails, hhull⟩ := hS q
  rw [hintervals] at hfails hhull
  unfold hw_param_update_var
  rw [if_neg (not_lt.mpr hchanged)]
  dsimp only
  rw [hq, if_pos hrmask]
  unfold snd_pcm_hw_refine
  constructor
  · intro hnone
    have herr := hfails hnone
    dsimp only
    rw [if_pos (by omega)]
    dsimp only
    omega
  · intro hsome
    obtain ⟨herr, hull⟩ := hhull hsome
    have hempty : snd_pcm_hw_param_empty (hw q).2 (.interval n) = false := hull.empty
    have hnot : ¬ -((hw q).1 : Int) < 0 := by omega
    dsimp only
    rw [if_neg hnot, hempty, if_neg Bool.false_ne_true]
    exact ⟨rfl, hull⟩

end Kernel

theorem update_kept (hw : HwRefine) (params : SndPcmHwParams) (n : Fin 12) (hrmask : params.rmask = 0#32) :
    hw_param_update_var hw params (.interval n) 0 = (0, params) := by
  unfold hw_param_update_var
  rw [if_neg (lt_irrefl _)]
  dsimp only
  rw [if_neg (not_not.mpr rfl), if_neg (not_not.mpr hrmask)]

/-! ## The sides of the request -/

/-- An interval that has not been found empty and has all supported values. -/
structure Starts (S : Finset (BitVec 32)) (i : SndInterval) : Prop where
  empty : i.empty = false
  nonempty : S.Nonempty
  supported : ∀ s ∈ S, num s ∈ denote i

theorem Starts.not_crossed {S : Finset (BitVec 32)} {i : SndInterval} (h : Starts S i) :
    interval_is_crossed i = false := by
  obtain ⟨s, hs⟩ := h.nonempty
  by_contra hcrossed
  have hmem := h.supported s hs
  rw [denote_crossed i (by simpa using hcrossed)] at hmem
  exact hmem

theorem Starts.openmin {S : Finset (BitVec 32)} {i : SndInterval} (h : Starts S i) (hmem : i.min ∈ S) :
    i.openmin = false := by
  by_contra hopen
  have hfirst := (h.supported _ hmem).1
  rw [Bool.not_eq_false] at hopen
  rw [hopen, mem_above_open] at hfirst
  exact lt_irrefl _ hfirst

theorem Starts.openmax {S : Finset (BitVec 32)} {i : SndInterval} (h : Starts S i) (hmem : i.max ∈ S) :
    i.openmax = false := by
  by_contra hopen
  have hlast := (h.supported _ hmem).2.1
  rw [Bool.not_eq_false] at hopen
  rw [hopen, mem_below_open] at hlast
  exact lt_irrefl _ hlast

theorem refine_min_unflagged (i : SndInterval) (val : BitVec 32) (hempty : i.empty = false) :
    snd_interval_refine_min i val false false =
      checked (raise_min i val false).1 (close_min (raise_min i val false).2) := by
  rw [snd_interval_refine_min_eq i val false false hempty]
  unfold flag_integer
  rw [if_neg fun h => Bool.false_ne_true h.2]

theorem refine_max_unflagged (i : SndInterval) (val : BitVec 32) (hempty : i.empty = false) :
    snd_interval_refine_max i val true false =
      checked (lower_max i val true).1 (close_max (lower_max i val true).2) := by
  rw [snd_interval_refine_max_eq i val true false hempty]
  unfold flag_integer
  rw [if_neg fun h => Bool.false_ne_true h.2]

theorem checked_changed (i : SndInterval) : (checked true i).1 ≠ 0 := fun h => Bool.noConfusion (checked_zero true i h)

section Sides

variable {S : Finset (BitVec 32)} {i : SndInterval} (val : BitVec 32) (h : Starts S i)

include h

theorem not_minWraps_val : ¬ MinWraps i val false false :=
  not_minWraps i (point val) false h.not_crossed (by
    rw [not_crossed_iff]
    exact Or.inr ⟨rfl, rfl, rfl⟩)

theorem inside_refine_min : Inside S (snd_interval_refine_min i val false false).2 = Above S val := by
  ext s
  unfold Inside Above
  rw [snd_interval_refine_min_denote i val false false h.empty (not_minWraps_val val h)]
  constructor
  · rintro ⟨hs, ⟨-, habove⟩, -⟩
    exact ⟨hs, habove⟩
  · rintro ⟨hs, habove⟩
    exact ⟨hs, ⟨h.supported s hs, habove⟩, fun hint => Bool.noConfusion hint⟩

theorem above_of_min_neg (hneg : (snd_interval_refine_min i val false false).1 < 0) : Above S val = ∅ := by
  rw [← inside_refine_min val h]
  have hnone := refine_min_neg i val false false h.empty (not_minWraps_val val h) hneg
  rw [← snd_interval_refine_min_denote i val false false h.empty (not_minWraps_val val h)] at hnone
  unfold Inside
  rw [hnone]
  exact Set.eq_empty_of_forall_notMem fun s hs => hs.2

theorem refine_min_changed (hlt : i.min < val) : (snd_interval_refine_min i val false false).1 ≠ 0 := by
  rw [refine_min_unflagged i val h.empty]
  unfold raise_min
  rw [if_pos hlt]
  exact checked_changed _

theorem refine_min_kept (hle : ¬ i.min < val) :
    snd_interval_refine_min i val false false = (0, close_min i) ∧ Starts S (close_min i) := by
  have hraise : raise_min i val false = (false, i) := by
    unfold raise_min
    rw [if_neg hle, if_neg fun h => Bool.false_ne_true h.2.2]
  have hdenote : denote (close_min i) = denote i := close_min_spec i fun hwrap =>
    not_last_of_open i h.not_crossed hwrap.2.1 hwrap.2.2
  have hstarts : Starts S (close_min i) :=
    ⟨(close_min_left i).1.trans h.empty, h.nonempty, fun s hs => hdenote ▸ h.supported s hs⟩
  refine ⟨?_, hstarts⟩
  rw [refine_min_unflagged i val h.empty, hraise]
  exact checked_not_crossed false _ hstarts.not_crossed

theorem not_maxWraps_val (hval : val ≠ 0#32) : ¬ MaxWraps i val true false :=
  not_maxWraps i val true false h.not_crossed (Or.inl hval)

theorem inside_refine_max (hval : val ≠ 0#32) :
    Inside S (snd_interval_refine_max i val true false).2 = Below S val := by
  ext s
  unfold Inside Below
  rw [snd_interval_refine_max_denote i val true false h.empty (not_maxWraps_val val h hval)]
  constructor
  · rintro ⟨hs, ⟨-, hbelow⟩, -⟩
    exact ⟨hs, hbelow⟩
  · rintro ⟨hs, hbelow⟩
    exact ⟨hs, ⟨h.supported s hs, hbelow⟩, fun hint => Bool.noConfusion hint⟩

theorem below_of_max_neg (hval : val ≠ 0#32) (hneg : (snd_interval_refine_max i val true false).1 < 0) :
    Below S val = ∅ := by
  rw [← inside_refine_max val h hval]
  have hnone := refine_max_neg i val true false h.empty (not_maxWraps_val val h hval) hneg
  rw [← snd_interval_refine_max_denote i val true false h.empty (not_maxWraps_val val h hval)] at hnone
  unfold Inside
  rw [hnone]
  exact Set.eq_empty_of_forall_notMem fun s hs => hs.2

theorem refine_max_changed (hgt : val < i.max ∨ (i.max = val ∧ i.openmax = false)) :
    (snd_interval_refine_max i val true false).1 ≠ 0 := by
  rw [refine_max_unflagged i val h.empty]
  unfold lower_max
  by_cases hlt : i.max > val
  · rw [if_pos hlt]
    exact checked_changed _
  · obtain ⟨heq, hopen⟩ := hgt.resolve_left hlt
    rw [if_neg hlt, if_pos ⟨heq, by rw [hopen]; exact Bool.false_ne_true, rfl⟩]
    exact checked_changed _

theorem refine_max_kept (hle : ¬ (val < i.max ∨ (i.max = val ∧ i.openmax = false))) :
    snd_interval_refine_max i val true false = (0, close_max i) ∧ Starts S (close_max i) := by
  rw [not_or] at hle
  have hlower : lower_max i val true = (false, i) := by
    unfold lower_max
    rw [if_neg hle.1, if_neg fun h => hle.2 ⟨h.1, by simpa using h.2.1⟩]
  have hdenote : denote (close_max i) = denote i := close_max_spec i fun hwrap =>
    not_zero_of_open i h.not_crossed hwrap.2.1 hwrap.2.2
  have hstarts : Starts S (close_max i) :=
    ⟨(close_max_left i).2.2.1.trans h.empty, h.nonempty, fun s hs => hdenote ▸ h.supported s hs⟩
  refine ⟨?_, hstarts⟩
  rw [refine_max_unflagged i val h.empty, hlower]
  exact checked_not_crossed false _ hstarts.not_crossed

end Sides

/-! ## The setters -/

theorem set_min_eq (hw : HwRefine) (params : SndPcmHwParams) (n : Fin 12) (v : Val) (hdir : v.dirOr0 = 0)
    (r : Int × SndInterval) (hr : snd_interval_refine_min (params.intervals n) v.val false false = r)
    (u : Int × SndPcmHwParams)
    (hu : hw_param_update_var hw (params.set_interval n r.2) (.interval n) r.1 = u) :
    _snd_pcm_hw_param_set_min hw params (.interval n) v =
      some (if u.1 = 0 then (0, u.2, _snd_pcm_hw_param_get_min u.2 (.interval n) v) else (u.1, params, v)) := by
  unfold _snd_pcm_hw_param_set_min refine_and_update hw_param_set_min on_interval
  rw [hdir]
  simp only [min_end, gt_iff_lt, lt_irrefl, if_false, false_and, hr, Option.map_some, hu]

theorem set_max_eq (hw : HwRefine) (params : SndPcmHwParams) (n : Fin 12) (val : BitVec 32)
    (r : Int × SndInterval) (hr : snd_interval_refine_max (params.intervals n) val true false = r)
    (u : Int × SndPcmHwParams)
    (hu : hw_param_update_var hw (params.set_interval n r.2) (.interval n) r.1 = u) :
    _snd_pcm_hw_param_set_max hw params (.interval n) ⟨val, some (-1)⟩ =
      some (if u.1 = 0 then (0, u.2, _snd_pcm_hw_param_get_max u.2 (.interval n) ⟨val, some (-1)⟩)
        else (u.1, params, ⟨val, some (-1)⟩)) := by
  have hend : max_end val (-1) = (val, true) := rfl
  unfold _snd_pcm_hw_param_set_max refine_and_update hw_param_set_max on_interval
  simp only [Val.dirOr0, Option.getD_some, hend, hr, Option.map_some, hu]

section Setters

variable {S : Finset (BitVec 32)} {n : Fin 12} {hw : HwRefine} (hS : Supports S n hw) {params : SndPcmHwParams}
  (h : Starts S (params.intervals n)) (v : Val) (hdir : v.dirOr0 = 0)

include h in
theorem min_lt_of_none (val : BitVec 32) (hnone : Above S val = ∅) : (params.intervals n).min < val := by
  obtain ⟨s, hs⟩ := h.nonempty
  have hlt : num s < num val := by
    by_contra hge
    have hmem : s ∈ Above S val := ⟨hs, not_lt.mp hge⟩
    rw [hnone] at hmem
    exact hmem
  rw [num_lt_iff]
  exact lt_of_le_of_lt (le_of_mem_above _ _ _ (h.supported s hs).1) hlt

include hS h hdir

theorem set_min_none (hnone : Above S v.val = ∅) :
    ∃ err, _snd_pcm_hw_param_set_min hw params (.interval n) v = some (err, params, v) ∧ err < 0 := by
  have hlt := min_lt_of_none h v.val hnone
  have hinside := inside_refine_min v.val h
  have hchanged := refine_min_changed v.val h hlt
  obtain ⟨r, hr⟩ : ∃ r, snd_interval_refine_min (params.intervals n) v.val false false = r := ⟨_, rfl⟩
  rw [hr] at hinside hchanged
  rw [set_min_eq hw params n v hdir r hr _ rfl]
  have herr : (hw_param_update_var hw (params.set_interval n r.2) (.interval n) r.1).1 < 0 := by
    by_cases hneg : r.1 < 0
    · rw [hw_param_update_var_error _ _ _ _ hneg]
      exact hneg
    · apply (update_refined S n hw hS _ r.1 (not_lt.mp hneg) (Or.inl hchanged)).1
      rw [intervals_set_interval, hinside, hnone]
  rw [if_neg herr.ne]
  exact ⟨_, rfl, herr⟩

theorem set_min_refined (hsome : (Above S v.val).Nonempty)
    (hcalls : (params.intervals n).min < v.val ∨ params.rmask ≠ 0#32) :
    ∃ params', _snd_pcm_hw_param_set_min hw params (.interval n) v =
        some (0, params', v.write (params'.intervals n).min 0) ∧ Hull (Above S v.val) (params'.intervals n) := by
  have hinside := inside_refine_min v.val h
  have hneg := above_of_min_neg v.val h
  have hchanged := refine_min_changed v.val h
  obtain ⟨r, hr⟩ : ∃ r, snd_interval_refine_min (params.intervals n) v.val false false = r := ⟨_, rfl⟩
  rw [hr] at hinside hneg hchanged
  have hret : 0 ≤ r.1 := not_lt.mp fun hlt => hsome.ne_empty (hneg hlt)
  have hupdate := (update_refined S n hw hS (params.set_interval n r.2) r.1 hret
    (hcalls.imp hchanged fun hrmask => hrmask)).2
  rw [intervals_set_interval, hinside] at hupdate
  obtain ⟨herr, hull⟩ := hupdate hsome
  rw [set_min_eq hw params n v hdir r hr _ rfl, if_pos herr]
  refine ⟨_, ?_, hull⟩
  unfold _snd_pcm_hw_param_get_min
  dsimp only
  rw [hull.openmin, if_neg Bool.false_ne_true]

omit hS in
theorem set_min_kept (hle : ¬ (params.intervals n).min < v.val) (hrmask : params.rmask = 0#32) :
    _snd_pcm_hw_param_set_min hw params (.interval n) v =
      some (0, params.set_interval n (close_min (params.intervals n)),
        _snd_pcm_hw_param_get_min (params.set_interval n (close_min (params.intervals n))) (.interval n) v) := by
  have hkept := (refine_min_kept v.val h hle).1
  rw [set_min_eq hw params n v hdir _ hkept _ (update_kept hw _ n hrmask), if_pos rfl]

end Setters

section MaxSetter

variable {S : Finset (BitVec 32)} {n : Fin 12} {hw : HwRefine} (hS : Supports S n hw) {params : SndPcmHwParams}
  (h : Starts S (params.intervals n)) (val : BitVec 32) (hval : val ≠ 0#32)

/-- The upper end changes when it is asked to be below `val`. -/
def MaxMoves (i : SndInterval) (val : BitVec 32) : Prop := val < i.max ∨ (i.max = val ∧ i.openmax = false)

include h in
theorem below_of_kept (hkept : ¬ MaxMoves (params.intervals n) val) : ∀ s ∈ S, num s < num val := by
  intro s hs
  have hmax := (h.supported s hs).2.1
  have hle : num (params.intervals n).max ≤ num val := by
    by_contra hgt
    exact hkept (Or.inl ((num_lt_iff _ _).mpr (not_le.mp hgt)))
  rcases lt_or_eq_of_le hle with hlt | heq
  · exact lt_of_le_of_lt (le_of_mem_below _ _ _ hmax) hlt
  · cases hopen : (params.intervals n).openmax with
    | true =>
      rw [hopen, mem_below_open, heq] at hmax
      exact hmax
    | false => exact absurd (Or.inr ⟨num_inj _ _ heq, hopen⟩) hkept

include h in
theorem moves_of_none (hnone : Below S val = ∅) : MaxMoves (params.intervals n) val := by
  by_contra hkept
  obtain ⟨s, hs⟩ := h.nonempty
  have hmem : s ∈ Below S val := ⟨hs, below_of_kept h val hkept s hs⟩
  rw [hnone] at hmem
  exact hmem

include hS h

include hval in
theorem set_max_none (hnone : Below S val = ∅) : ∃ err, _snd_pcm_hw_param_set_max hw params (.interval n)
    ⟨val, some (-1)⟩ = some (err, params, ⟨val, some (-1)⟩) ∧ err < 0 := by
  have hinside := inside_refine_max val h hval
  have hchanged := refine_max_changed val h (moves_of_none h val hnone)
  obtain ⟨r, hr⟩ : ∃ r, snd_interval_refine_max (params.intervals n) val true false = r := ⟨_, rfl⟩
  rw [hr] at hinside hchanged
  rw [set_max_eq hw params n val r hr _ rfl]
  have herr : (hw_param_update_var hw (params.set_interval n r.2) (.interval n) r.1).1 < 0 := by
    by_cases hneg : r.1 < 0
    · rw [hw_param_update_var_error _ _ _ _ hneg]
      exact hneg
    · apply (update_refined S n hw hS _ r.1 (not_lt.mp hneg) (Or.inl hchanged)).1
      rw [intervals_set_interval, hinside, hnone]
  rw [if_neg herr.ne]
  exact ⟨_, rfl, herr⟩

include hval in
theorem set_max_refined (hsome : (Below S val).Nonempty)
    (hcalls : MaxMoves (params.intervals n) val ∨ params.rmask ≠ 0#32) :
    ∃ params', _snd_pcm_hw_param_set_max hw params (.interval n) ⟨val, some (-1)⟩ =
        some (0, params', ⟨(params'.intervals n).max, some 0⟩) ∧ Hull (Below S val) (params'.intervals n) := by
  have hinside := inside_refine_max val h hval
  have hneg := below_of_max_neg val h hval
  have hchanged := refine_max_changed val h
  obtain ⟨r, hr⟩ : ∃ r, snd_interval_refine_max (params.intervals n) val true false = r := ⟨_, rfl⟩
  rw [hr] at hinside hneg hchanged
  have hret : 0 ≤ r.1 := not_lt.mp fun hlt => hsome.ne_empty (hneg hlt)
  have hupdate := (update_refined S n hw hS (params.set_interval n r.2) r.1 hret
    (hcalls.imp hchanged fun hrmask => hrmask)).2
  rw [intervals_set_interval, hinside] at hupdate
  obtain ⟨herr, hull⟩ := hupdate hsome
  rw [set_max_eq hw params n val r hr _ rfl, if_pos herr]
  refine ⟨_, ?_, hull⟩
  unfold _snd_pcm_hw_param_get_max
  dsimp only
  rw [hull.openmax, if_neg Bool.false_ne_true]
  rfl

omit hS in
theorem set_max_kept (hkept : ¬ MaxMoves (params.intervals n) val) (hrmask : params.rmask = 0#32) :
    ∃ v, _snd_pcm_hw_param_set_max hw params (.interval n) ⟨val, some (-1)⟩ =
      some (0, params.set_interval n (close_max (params.intervals n)), v) := by
  have hrefine := (refine_max_kept val h hkept).1
  rw [set_max_eq hw params n val _ hrefine _ (update_kept hw _ n hrmask), if_pos rfl]
  exact ⟨_, rfl⟩

/-- Below 0 there is nothing, but `max--` wraps for an interval of integers, and all values are left. -/
theorem set_max_zero : ∃ err params' v, _snd_pcm_hw_param_set_max hw params (.interval n) ⟨0#32, some (-1)⟩ =
    some (err, params', v) ∧ (err < 0 ∨ (v.val ∈ S ∧ v.dirOr0 = 0)) := by
  have hmoves : MaxMoves (params.intervals n) 0#32 := by
    apply moves_of_none h
    apply Set.eq_empty_of_forall_notMem
    exact fun s hs => not_num_lt_zero s hs.2
  have hchanged := refine_max_changed 0#32 h hmoves
  obtain ⟨r, hr⟩ : ∃ r, snd_interval_refine_max (params.intervals n) 0#32 true false = r := ⟨_, rfl⟩
  rw [hr] at hchanged
  rw [set_max_eq hw params n 0#32 r hr _ rfl]
  by_cases hneg : r.1 < 0
  · rw [hw_param_update_var_error _ _ _ _ hneg, if_neg hneg.ne]
    exact ⟨_, _, _, rfl, Or.inl hneg⟩
  · obtain ⟨hfails, hhull⟩ := update_refined S n hw hS (params.set_interval n r.2) r.1 (not_lt.mp hneg)
      (Or.inl hchanged)
    rcases Set.eq_empty_or_nonempty (Inside S ((params.set_interval n r.2).intervals n)) with hnone | hsome
    · have herr := hfails hnone
      rw [if_neg herr.ne]
      exact ⟨_, _, _, rfl, Or.inl herr⟩
    · obtain ⟨herr, hull⟩ := hhull hsome
      rw [if_pos herr]
      refine ⟨_, _, _, rfl, Or.inr ⟨hull.last.1, ?_⟩⟩
      unfold _snd_pcm_hw_param_get_max
      dsimp only
      rw [hull.openmax]
      rfl

end MaxSetter

/-! ## The first and the last value -/

theorem inside_point (S : Finset (BitVec 32)) (x : BitVec 32) (hx : x ∈ S) : Inside S (point x) = {x} := by
  ext s
  unfold Inside
  rw [denote_point]
  constructor
  · rintro ⟨-, hs⟩
    exact num_inj s x hs
  · rintro rfl
    exact ⟨hx, rfl⟩

theorem get_point (params : SndPcmHwParams) (n : Fin 12) (v : Val) (x : BitVec 32)
    (h : params.intervals n = point x) :
    _snd_pcm_hw_param_get params (.interval n) v = (0, v.write x 0) := by
  unfold _snd_pcm_hw_param_get
  dsimp only
  rw [h, point_single, if_neg]
  · rfl
  · rintro (hempty | hnot)
    · exact Bool.false_ne_true hempty
    · exact hnot rfl

section Ends

variable {S : Finset (BitVec 32)} {n : Fin 12} {hw : HwRefine} (hS : Supports S n hw) (params : SndPcmHwParams)
  (v : Val)

include hS

theorem update_point (x : BitVec 32) (changed : Int) (hchanged : 0 ≤ changed)
    (hcalls : changed ≠ 0 ∨ params.rmask ≠ 0#32) (hinside : Inside S (params.intervals n) = {x}) :
    (hw_param_update_var hw params (.interval n) changed).1 = 0 ∧
      (hw_param_update_var hw params (.interval n) changed).2.intervals n = point x := by
  obtain ⟨herr, hull⟩ := (update_refined S n hw hS params changed hchanged hcalls).2 (by
    rw [hinside]
    exact Set.singleton_nonempty x)
  rw [hinside] at hull
  exact ⟨herr, hull.of_forall x fun t ht => ht⟩

/-- What `_snd_pcm_hw_param_set_first` and `_snd_pcm_hw_param_set_last` do with a refinement. -/
def taken (hw : HwRefine) (params : SndPcmHwParams) (n : Fin 12) (r : Int × SndInterval) (v : Val) :
    Option (Int × SndPcmHwParams × Val) :=
  let u := hw_param_update_var hw (params.set_interval n r.2) (.interval n) r.1
  let g := _snd_pcm_hw_param_get u.2 (.interval n) v
  some (if u.1 = 0 then (g.1, u.2, g.2) else (u.1, u.2, v))

def EndsWith (n : Fin 12) (v : Val) (x : BitVec 32) (result : Option (Int × SndPcmHwParams × Val)) : Prop :=
  ∃ params', result = some (0, params', v.write x 0) ∧ params'.intervals n = point x

def Fails (result : Option (Int × SndPcmHwParams × Val)) : Prop :=
  ∃ err params' v', result = some (err, params', v') ∧ err ≠ 0

theorem taken_point (r : Int × SndInterval) (x : BitVec 32) (hret : 0 ≤ r.1) (hinside : Inside S r.2 = {x})
    (hcalls : r.1 ≠ 0 ∨ params.rmask ≠ 0#32) : EndsWith n v x (taken hw params n r v) := by
  obtain ⟨herr, hpoint⟩ := update_point hS (params.set_interval n r.2) x r.1 hret hcalls (by
    rw [intervals_set_interval, hinside])
  unfold taken
  dsimp only
  rw [if_pos herr, get_point _ n v x hpoint]
  exact ⟨_, rfl, hpoint⟩

theorem taken_none (r : Int × SndInterval) (hret : 0 < r.1) (hinside : Inside S r.2 = ∅) :
    Fails (taken hw params n r v) := by
  have herr := (update_refined S n hw hS (params.set_interval n r.2) r.1 hret.le (Or.inl hret.ne')).1 (by
    rw [intervals_set_interval, hinside])
  unfold taken
  dsimp only
  rw [if_neg herr.ne]
  exact ⟨_, _, _, rfl, herr.ne⟩

theorem taken_same (x : BitVec 32) (hx : x ∈ S) : EndsWith n v x (taken hw params n (0, point x) v) := by
  by_cases hrmask : params.rmask = 0#32
  · unfold taken
    dsimp only
    have hself := intervals_set_interval params n (point x)
    rw [update_kept hw (params.set_interval n (point x)) n hrmask, if_pos rfl, get_point _ n v x hself]
    exact ⟨_, rfl, hself⟩
  · exact taken_point hS params v (0, point x) x (le_refl _) (inside_point S x hx) (Or.inr hrmask)

omit hS in
theorem set_first_eq : _snd_pcm_hw_param_set_first hw params (.interval n) v =
    taken hw params n (snd_interval_refine_first (params.intervals n)) v := by
  unfold _snd_pcm_hw_param_set_first refine_and_update hw_param_set_first on_interval taken
  simp only [Option.map_some]

omit hS in
theorem set_last_eq : _snd_pcm_hw_param_set_last hw params (.interval n) v =
    taken hw params n (snd_interval_refine_last (params.intervals n)) v := by
  unfold _snd_pcm_hw_param_set_last refine_and_update hw_param_set_last on_interval taken
  simp only [Option.map_some]

omit hS in
theorem inside_closed (x : BitVec 32) (integer empty : Bool) :
    Inside S ⟨x, x, false, false, integer, empty⟩ = {s | s ∈ S ∧ s = x} := by
  ext s
  constructor
  · rintro ⟨hs, hmin, hmax, -⟩
    exact ⟨hs, num_inj s x (le_antisymm hmax hmin)⟩
  · rintro ⟨hs, rfl⟩
    exact ⟨hs, le_refl (num s), le_refl (num s), fun _ => num_integer s⟩

omit hS in
theorem inside_open (x y : BitVec 32) (hxy : num y = num x + 1) (integer empty : Bool) :
    Inside S ⟨x, y, true, true, integer, empty⟩ = ∅ := by
  apply Set.eq_empty_of_forall_notMem
  rintro s ⟨-, hmin, hmax, -⟩
  rw [mem_above_open, ← num_lt_iff] at hmin
  rw [mem_below_open] at hmax
  have hle := num_add_one_le x s hmin
  linarith

/-- What makes the ends of an interval worth taking: it has not been found empty, and says of a
single value nothing but that. -/
def Takeable (i : SndInterval) (x : BitVec 32) : Prop :=
  i.empty = false ∧ (interval_is_single i = true → i = point x)

theorem set_first_ends (hi : Takeable (params.intervals n) (params.intervals n).min)
    (hopen : (params.intervals n).openmin = false) (hmem : (params.intervals n).min ∈ S) :
    EndsWith n v (params.intervals n).min (_snd_pcm_hw_param_set_first hw params (.interval n) v) := by
  obtain ⟨hempty, hpoint⟩ := hi
  rw [set_first_eq]
  unfold snd_interval_refine_first
  rw [if_neg (by rw [hempty]; exact Bool.false_ne_true)]
  by_cases hsingle : interval_is_single (params.intervals n) = true
  · rw [if_pos hsingle]
    have hsame := taken_same hS params v _ hmem
    rwa [← hpoint hsingle] at hsame
  · rw [if_neg hsingle]
    apply taken_point hS params v _ _ zero_le_one _ (Or.inl one_ne_zero)
    dsimp only
    rw [hopen, if_neg Bool.false_ne_true, inside_closed]
    ext s
    exact ⟨fun hs => hs.2, fun hs => ⟨hs ▸ hmem, hs⟩⟩

theorem set_last_ends (hi : Takeable (params.intervals n) (params.intervals n).max)
    (hopen : (params.intervals n).openmax = false) (hmem : (params.intervals n).max ∈ S) :
    EndsWith n v (params.intervals n).max (_snd_pcm_hw_param_set_last hw params (.interval n) v) := by
  obtain ⟨hempty, hpoint⟩ := hi
  rw [set_last_eq]
  unfold snd_interval_refine_last
  rw [if_neg (by rw [hempty]; exact Bool.false_ne_true)]
  by_cases hsingle : interval_is_single (params.intervals n) = true
  · rw [if_pos hsingle]
    have hsame := taken_same hS params v _ hmem
    rwa [← hpoint hsingle] at hsame
  · rw [if_neg hsingle]
    apply taken_point hS params v _ _ zero_le_one _ (Or.inl one_ne_zero)
    dsimp only
    rw [hopen, if_neg Bool.false_ne_true, inside_closed]
    ext s
    exact ⟨fun hs => hs.2, fun hs => ⟨hs ▸ hmem, hs⟩⟩

theorem set_first_fails (hstart : Starts S (params.intervals n))
    (hsingle : interval_is_single (params.intervals n) = false)
    (hno : (params.intervals n).openmin = true ∨ (params.intervals n).min ∉ S) :
    Fails (_snd_pcm_hw_param_set_first hw params (.interval n) v) := by
  rw [set_first_eq]
  unfold snd_interval_refine_first
  rw [if_neg (by rw [hstart.empty]; exact Bool.false_ne_true), if_neg (by rw [hsingle]; exact Bool.false_ne_true)]
  apply taken_none hS params v _ zero_lt_one
  dsimp only
  cases hopen : (params.intervals n).openmin with
  | true =>
    rw [if_pos rfl]
    exact inside_open _ _ (num_add_one _ (not_last_of_open _ hstart.not_crossed hopen)) _ _
  | false =>
    rw [if_neg Bool.false_ne_true, inside_closed]
    have hnot := hno.resolve_left (by rw [hopen]; exact Bool.false_ne_true)
    exact Set.eq_empty_of_forall_notMem fun s hs => hnot (hs.2 ▸ hs.1)

theorem set_last_fails (hstart : Starts S (params.intervals n))
    (hsingle : interval_is_single (params.intervals n) = false)
    (hno : (params.intervals n).openmax = true ∨ (params.intervals n).max ∉ S) :
    Fails (_snd_pcm_hw_param_set_last hw params (.interval n) v) := by
  rw [set_last_eq]
  unfold snd_interval_refine_last
  rw [if_neg (by rw [hstart.empty]; exact Bool.false_ne_true), if_neg (by rw [hsingle]; exact Bool.false_ne_true)]
  apply taken_none hS params v _ zero_lt_one
  dsimp only
  cases hopen : (params.intervals n).openmax with
  | true =>
    rw [if_pos rfl]
    exact inside_open _ _ (num_sub_one _ (not_zero_of_open _ hstart.not_crossed hopen)).symm _ _
  | false =>
    rw [if_neg Bool.false_ne_true, inside_closed]
    have hnot := hno.resolve_left (by rw [hopen]; exact Bool.false_ne_true)
    exact Set.eq_empty_of_forall_notMem fun s hs => hnot (hs.2 ▸ hs.1)

end Ends

end Salsa.HwParams
