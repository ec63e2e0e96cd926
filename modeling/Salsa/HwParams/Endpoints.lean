import Salsa.HwParams.Intersect
import Mathlib.Algebra.Field.Rat
import Mathlib.Algebra.Order.Field.Basic
import Mathlib.Data.BitVec

/-!
# The first and the last point of an interval

`snd_interval_refine_first` and `snd_interval_refine_last` leave a single value. At an open end that is no value of
the interval but the unit next to the end, which `interval_is_single` takes for one.
-/

open Ends

namespace Salsa.HwParams

/-! ## Where the code could wrap -/

/-- `i->min + 1` in `interval_is_single`, which is computed where the ends differ. -/
def SingleWraps (i : SndInterval) : Prop := i.min ≠ i.max ∧ i.min = UINT_MAX

/-- `i->max++` in `snd_interval_refine_first`, with the lower end in `i->max`. -/
def FirstWraps (i : SndInterval) : Prop :=
  i.empty = false ∧ interval_is_single i = false ∧ i.openmin = true ∧ i.min = UINT_MAX

/-- `i->min--` in `snd_interval_refine_last`, with the upper end in `i->min`. -/
def LastWraps (i : SndInterval) : Prop :=
  i.empty = false ∧ interval_is_single i = false ∧ i.openmax = true ∧ i.max = 0#32

/-! ## What is to be left -/

/-- A part of the interval that counts as a single value. -/
structure Chosen (i r : SndInterval) : Prop where
  unflagged : r.empty = false
  nonempty : (denote r).Nonempty
  part : denote r ⊆ denote i
  single : interval_is_single r = true

/-- Nothing changes just when the interval is a single value already. -/
structure Chooses (i : SndInterval) (r : Int × SndInterval) : Prop where
  kept : (r.1 = 0 ∧ r.2 = i) ↔ interval_is_single i = true
  changed : interval_is_single i = false → r.1 = 1 ∧ Chosen i r.2

/-- The two refinements of an interval that is not flagged empty. -/
structure EndsSound (i : SndInterval) : Prop where
  no_wrap : ¬ SingleWraps i ∧ ¬ FirstWraps i ∧ ¬ LastWraps i
  first : Chooses i (snd_interval_refine_first i)
  last : Chooses i (snd_interval_refine_last i)
  infimum : ∃ m, IsGLB (denote i) m ∧ IsGLB (denote (snd_interval_refine_first i).2) m
  supremum : ∃ m, IsLUB (denote i) m ∧ IsLUB (denote (snd_interval_refine_last i).2) m

/-! ## Bounds of an interval -/

theorem denote_of_rational (i : SndInterval) (h : i.integer = false) :
    denote i = above (num i.min) i.openmin ∩ below (num i.max) i.openmax := by
  ext x
  simp [denote, h]

/-- An open end is between rationals, and strictly below the other end. -/
theorem lt_of_open (i : SndInterval) (hnormal : Normal i) (h : interval_is_crossed i = false)
    (hopen : i.openmin = true ∨ i.openmax = true) : i.integer = false ∧ num i.min < num i.max := by
  constructor
  · by_contra hint
    obtain ⟨hmin, hmax⟩ := hnormal (by simpa using hint)
    simp [hmin, hmax] at hopen
  · rcases (not_crossed_iff i).mp h with hlt | ⟨-, hmin, hmax⟩
    · exact num_lt _ _ hlt
    · simp [hmin, hmax] at hopen

theorem num_le_of_not_crossed (i : SndInterval) (h : interval_is_crossed i = false) : num i.min ≤ num i.max := by
  rcases (not_crossed_iff i).mp h with hlt | ⟨heq, -, -⟩
  · exact (num_lt _ _ hlt).le
  · rw [heq]

theorem isGLB_denote (i : SndInterval) (hnormal : Normal i) (h : interval_is_crossed i = false) :
    IsGLB (denote i) (num i.min) := by
  cases hopen : i.openmin with
  | true =>
    obtain ⟨hint, hlt⟩ := lt_of_open i hnormal h (.inl hopen)
    rw [denote_of_rational i hint]
    exact isGLB_between _ _ _ _ hlt
  | false =>
    apply IsLeast.isGLB
    refine ⟨⟨by simp [hopen], ?_, fun _ => num_integer i.min⟩, fun x hx => le_of_mem_above _ _ _ hx.1⟩
    cases hopenmax : i.openmax with
    | true => exact (lt_of_open i hnormal h (.inr hopenmax)).2
    | false => exact num_le_of_not_crossed i h

theorem isLUB_denote (i : SndInterval) (hnormal : Normal i) (h : interval_is_crossed i = false) :
    IsLUB (denote i) (num i.max) := by
  cases hopen : i.openmax with
  | true =>
    obtain ⟨hint, hlt⟩ := lt_of_open i hnormal h (.inr hopen)
    rw [denote_of_rational i hint]
    exact isLUB_between _ _ _ _ hlt
  | false =>
    apply IsGreatest.isLUB
    refine ⟨⟨?_, by simp [hopen], fun _ => num_integer i.max⟩, fun x hx => le_of_mem_below _ _ _ hx.2.1⟩
    cases hopenmin : i.openmin with
    | true => exact (lt_of_open i hnormal h (.inl hopenmin)).2
    | false => exact num_le_of_not_crossed i h

/-! ## The refinements -/

/-- The first value, or the unit above an open end. -/
def first_unit (i : SndInterval) : SndInterval :=
  { i with max := if i.openmin then i.min + 1#32 else i.min, openmax := i.openmin }

/-- The last value, or the unit below an open end. -/
def last_unit (i : SndInterval) : SndInterval :=
  { i with min := if i.openmax then i.max - 1#32 else i.max, openmin := i.openmax }

theorem first_unit_single (i : SndInterval) : interval_is_single (first_unit i) = true := by
  unfold interval_is_single first_unit
  cases i.openmin <;> simp

theorem last_unit_single (i : SndInterval) : interval_is_single (last_unit i) = true := by
  unfold interval_is_single last_unit
  cases i.openmax <;> simp

theorem lt_add_one (a : BitVec 32) (h : a ≠ UINT_MAX) : a < a + 1#32 := by
  rw [num_lt_iff, num_add_one a h]
  linarith

theorem sub_one_lt (a : BitVec 32) (h : a ≠ 0#32) : a - 1#32 < a := by
  rw [num_lt_iff, ← num_sub_one a h]
  linarith

theorem first_unit_not_crossed (i : SndInterval) (h : i.openmin = true → i.min ≠ UINT_MAX) :
    interval_is_crossed (first_unit i) = false := by
  rw [not_crossed_iff]
  unfold first_unit
  cases hopen : i.openmin with
  | true => exact .inl (lt_add_one i.min (h hopen))
  | false => exact .inr ⟨rfl, rfl, rfl⟩

theorem last_unit_not_crossed (i : SndInterval) (h : i.openmax = true → i.max ≠ 0#32) :
    interval_is_crossed (last_unit i) = false := by
  rw [not_crossed_iff]
  unfold last_unit
  cases hopen : i.openmax with
  | true => exact .inl (sub_one_lt i.max (h hopen))
  | false => exact .inr ⟨rfl, rfl, rfl⟩

theorem first_unit_normal (i : SndInterval) (hnormal : Normal i) : Normal (first_unit i) := by
  intro hint
  have hmin := (hnormal hint).1
  exact ⟨hmin, hmin⟩

theorem last_unit_normal (i : SndInterval) (hnormal : Normal i) : Normal (last_unit i) := by
  intro hint
  have hmax := (hnormal hint).2
  exact ⟨hmax, hmax⟩

theorem chooses_kept (i : SndInterval) (hsingle : interval_is_single i = true) : Chooses i (0, i) := by
  refine ⟨by simp [hsingle], fun hnot => ?_⟩
  simp [hsingle] at hnot

theorem chooses_part (i r : SndInterval) (hsingle : interval_is_single i = false) (h : Chosen i r) :
    Chooses i (1, r) :=
  ⟨by simp [hsingle], fun _ => ⟨rfl, h⟩⟩

section Refine

variable (i : SndInterval) (hempty : i.empty = false) (hnormal : Normal i) (h : interval_is_crossed i = false)

include h

theorem not_singleWraps : ¬ SingleWraps i := by
  rintro ⟨hne, hlast⟩
  rcases (not_crossed_iff i).mp h with hlt | ⟨heq, -⟩
  · exact le_UINT_MAX i.max (hlast ▸ hlt)
  · exact hne heq

theorem not_inverted : ¬ Inverted i := by
  rintro ⟨-, -, hlt⟩
  rcases (not_crossed_iff i).mp h with hgt | ⟨heq, -⟩
  · exact absurd (BitVec.lt_def.mp hlt) (BitVec.lt_def.mp hgt).not_gt
  · exact absurd (BitVec.lt_def.mp hlt) (by simp [heq])

include hempty hnormal

theorem first_spec : Chooses i (snd_interval_refine_first i) ∧
    ∃ m, IsGLB (denote i) m ∧ IsGLB (denote (snd_interval_refine_first i).2) m := by
  have hpart := snd_interval_refine_first_spec i (not_inverted i h)
  have hglb := isGLB_denote i hnormal h
  unfold snd_interval_refine_first at hpart ⊢
  rw [if_neg (by simp [hempty])] at hpart ⊢
  cases hsingle : interval_is_single i with
  | true =>
    rw [if_pos rfl]
    exact ⟨chooses_kept i hsingle, num i.min, hglb, hglb⟩
  | false =>
    rw [hsingle, if_neg Bool.false_ne_true] at hpart
    rw [if_neg Bool.false_ne_true]
    have hcrossed := first_unit_not_crossed i (not_last_of_open i h)
    have hnormal' := first_unit_normal i hnormal
    refine ⟨chooses_part i (first_unit i) hsingle ?_, num i.min, hglb, isGLB_denote (first_unit i) hnormal' hcrossed⟩
    exact ⟨hempty, denote_nonempty _ hnormal' hcrossed, hpart Int.one_nonneg, first_unit_single i⟩

theorem last_spec : Chooses i (snd_interval_refine_last i) ∧
    ∃ m, IsLUB (denote i) m ∧ IsLUB (denote (snd_interval_refine_last i).2) m := by
  have hpart := snd_interval_refine_last_spec i (not_inverted i h)
  have hlub := isLUB_denote i hnormal h
  unfold snd_interval_refine_last at hpart ⊢
  rw [if_neg (by simp [hempty])] at hpart ⊢
  cases hsingle : interval_is_single i with
  | true =>
    rw [if_pos rfl]
    exact ⟨chooses_kept i hsingle, num i.max, hlub, hlub⟩
  | false =>
    rw [hsingle, if_neg Bool.false_ne_true] at hpart
    rw [if_neg Bool.false_ne_true]
    have hcrossed := last_unit_not_crossed i (not_zero_of_open i h)
    have hnormal' := last_unit_normal i hnormal
    refine ⟨chooses_part i (last_unit i) hsingle ?_, num i.max, hlub, isLUB_denote (last_unit i) hnormal' hcrossed⟩
    exact ⟨hempty, denote_nonempty _ hnormal' hcrossed, hpart Int.one_nonneg, last_unit_single i⟩

end Refine

/-- An interval that is flagged empty is refused, whatever its ends; any other one that the check lets pass is
reduced to a single value at its end. -/
theorem refine_ends_sound (i : SndInterval) (hcheck : (interval_check_empty i).1 = false) (hnormal : Normal i) :
    (i.empty = true →
        snd_interval_refine_first i = (-ENOENT, i) ∧ snd_interval_refine_last i = (-ENOENT, i)) ∧
      (i.empty = false → EndsSound i) := by
  rw [check_empty_iff] at hcheck
  constructor
  · intro hempty
    exact ⟨if_pos hempty, if_pos hempty⟩
  · intro hempty
    obtain ⟨hfirst, hinf⟩ := first_spec i hempty hnormal hcheck
    obtain ⟨hlast, hsup⟩ := last_spec i hempty hnormal hcheck
    refine ⟨⟨not_singleWraps i hcheck, ?_, ?_⟩, hfirst, hlast, hinf, hsup⟩
    · rintro ⟨-, -, hopen, hmin⟩
      exact not_last_of_open i hcheck hopen hmin
    · rintro ⟨-, -, hopen, hmax⟩
      exact not_zero_of_open i hcheck hopen hmax

/-- Above 3, the unit above it is first. -/
theorem refine_ends_sound_three : EndsSound ⟨3, 20, true, false, false, false⟩ :=
  (refine_ends_sound ⟨3, 20, true, false, false, false⟩ (by decide) (fun h => by cases h)).2 rfl

/-- The numbers from 0 to 9 with the empty flag: the check does not look at it, and the refinement refuses them. -/
theorem flagged_is_refused : (interval_check_empty ⟨0, 9, false, false, false, true⟩).1 = false ∧
    Normal ⟨0, 9, false, false, false, true⟩ ∧ ¬ EndsSound ⟨0, 9, false, false, false, true⟩ := by
  refine ⟨by decide, (fun hint => by cases hint), fun hsound => ?_⟩
  exact absurd (hsound.first.changed (by decide)).1 (by decide)

end Salsa.HwParams
