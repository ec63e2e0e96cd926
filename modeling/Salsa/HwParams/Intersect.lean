import Salsa.HwParams.Denote
import Mathlib.Order.CompletePartialOrder

/-!
# The intersection of two intervals

`snd_interval_refine` leaves what both intervals denote, and fails only where that is nothing.
-/

open Ends

namespace Salsa.HwParams

theorem not_crossed_iff (i : SndInterval) : interval_is_crossed i = false ↔
    i.min < i.max ∨ (i.min = i.max ∧ i.openmin = false ∧ i.openmax = false) := by
  unfold interval_is_crossed
  rw [Bool.or_eq_false_iff, decide_eq_false_iff_not]
  constructor
  · rintro ⟨hle, hmeet⟩
    by_cases heq : i.min = i.max
    · rw [heq, beq_self_eq_true, Bool.true_and, Bool.or_eq_false_iff] at hmeet
      exact Or.inr ⟨heq, hmeet⟩
    · have hne : i.min.toNat ≠ i.max.toNat := fun h => heq (BitVec.eq_of_toNat_eq h)
      have hge : ¬ i.max.toNat < i.min.toNat := hle
      exact Or.inl (BitVec.lt_def.mpr (by omega))
  · rintro (hlt | ⟨heq, hmin, hmax⟩)
    · have hnat : i.min.toNat < i.max.toNat := hlt
      have hne : i.min ≠ i.max := fun h => by rw [h] at hnat; exact lt_irrefl _ hnat
      refine ⟨fun hgt => ?_, by rw [beq_eq_false_iff_ne.mpr hne, Bool.false_and]⟩
      have hgt : i.max.toNat < i.min.toNat := hgt
      omega
    · rw [heq, hmin, hmax, Bool.or_self, Bool.and_false]
      exact ⟨fun hgt => lt_irrefl i.max.toNat hgt, rfl⟩

theorem denote_crossed (i : SndInterval) (h : interval_is_crossed i = true) : denote i = ∅ := by
  apply Set.eq_empty_of_forall_notMem
  rintro x ⟨hmin, hmax, -⟩
  have hle := (le_of_mem_above _ _ _ hmin).trans (le_of_mem_below _ _ _ hmax)
  have hnot : ¬ interval_is_crossed i = false := by
    rw [h]
    exact Bool.noConfusion
  apply hnot
  rw [not_crossed_iff]
  unfold num at hle
  have hnat : i.min.toNat ≤ i.max.toNat := by exact_mod_cast hle
  by_cases heq : i.min = i.max
  · rw [heq] at hmin
    have hsame : x = num i.max :=
      le_antisymm (le_of_mem_below _ _ _ hmax) (le_of_mem_above _ _ _ hmin)
    refine Or.inr ⟨heq, ?_, ?_⟩
    · by_contra hopen
      rw [Bool.not_eq_false] at hopen
      rw [hopen, mem_above_open, hsame] at hmin
      exact lt_irrefl _ hmin
    · by_contra hopen
      rw [Bool.not_eq_false] at hopen
      rw [hopen, mem_below_open, hsame] at hmax
      exact lt_irrefl _ hmax
  · have hne : i.min.toNat ≠ i.max.toNat := fun h => heq (BitVec.eq_of_toNat_eq h)
    exact Or.inl (BitVec.lt_def.mpr (by omega))

/-- An interval of integers has closed ends. -/
def Normal (i : SndInterval) : Prop := i.integer = true → i.openmin = false ∧ i.openmax = false

/-- The check for an empty interval misses nothing once the lower end of integers is closed. -/
theorem denote_nonempty_of_closed (i : SndInterval) (hclosed : i.integer = true → i.openmin = false)
    (h : interval_is_crossed i = false) : (denote i).Nonempty := by
  rw [not_crossed_iff] at h
  cases hint : i.integer with
  | true =>
    refine ⟨num i.min, ?_, ?_, fun _ => num_integer i.min⟩
    · rw [hclosed hint, mem_above_closed]
    · rcases h with hlt | ⟨heq, -, hmax⟩
      · exact mem_below_of_lt _ _ _ (num_lt _ _ hlt)
      · rw [hmax, mem_below_closed, heq]
  | false =>
    rcases h with hlt | ⟨heq, hmin, hmax⟩
    · have hnum := num_lt _ _ hlt
      refine ⟨(num i.min + num i.max) / 2, mem_above_of_lt _ _ _ ?_, mem_below_of_lt _ _ _ ?_, ?_⟩
      · linarith
      · linarith
      · rw [hint]
        exact fun h => Bool.noConfusion h
    · refine ⟨num i.min, ?_, ?_, ?_⟩
      · rw [hmin, mem_above_closed]
      · rw [hmax, mem_below_closed, heq]
      · rw [hint]
        exact fun h => Bool.noConfusion h

theorem denote_nonempty (i : SndInterval) (hnormal : Normal i) (h : interval_is_crossed i = false) :
    (denote i).Nonempty := denote_nonempty_of_closed i (fun hint => (hnormal hint).1) h

/-! ## The ends stay where they are -/

theorem not_last_of_open (i : SndInterval) (h : interval_is_crossed i = false) (hopen : i.openmin = true) :
    i.min ≠ UINT_MAX := by
  rcases (not_crossed_iff i).mp h with hlt | ⟨-, hclosed, -⟩
  · rintro hlast
    exact le_UINT_MAX i.max (hlast ▸ hlt)
  · exact absurd (hclosed.symm.trans hopen) (by decide)

theorem not_zero_of_open (i : SndInterval) (h : interval_is_crossed i = false) (hopen : i.openmax = true) :
    i.max ≠ 0#32 := by
  rcases (not_crossed_iff i).mp h with hlt | ⟨-, -, hclosed⟩
  · rintro hzero
    have hnat : i.min.toNat < i.max.toNat := hlt
    rw [hzero] at hnat
    exact absurd hnat (Nat.not_lt_zero _)
  · exact absurd (hclosed.symm.trans hopen) (by decide)

theorem not_minWraps_of_end (i : SndInterval) (min : BitVec 32) (openmin integer : Bool)
    (hi : i.empty = false → interval_is_crossed i = false) (hend : ¬ (openmin = true ∧ min = UINT_MAX)) :
    ¬ MinWraps i min openmin integer := by
  rintro ⟨hempty, -, hopen, hlast⟩
  unfold raise_min at hopen hlast
  split_ifs at hopen hlast with hlt heq
  · exact hend ⟨hopen, hlast⟩
  · exact hend ⟨heq.2.2, heq.1.symm.trans hlast⟩
  · exact not_last_of_open i (hi hempty) hopen hlast

theorem not_minWraps (i v : SndInterval) (integer : Bool) (hi : interval_is_crossed i = false)
    (hv : interval_is_crossed v = false) : ¬ MinWraps i v.min v.openmin integer :=
  not_minWraps_of_end i v.min v.openmin integer (fun _ => hi) fun h => not_last_of_open v hv h.1 h.2

/-! ## What the two refinements return -/

theorem checked_crossed (changed : Bool) (i : SndInterval) (h : interval_is_crossed i = true) :
    checked changed i = (-EINVAL, { i with empty := true }) := by
  simp only [checked, interval_check_empty, if_pos h, if_true]

theorem checked_not_crossed (changed : Bool) (i : SndInterval) (h : interval_is_crossed i = false) :
    checked changed i = (if changed then 1 else 0, i) := by
  simp only [checked, interval_check_empty, h, Bool.false_eq_true, if_false]

theorem checked_neg (changed : Bool) (i : SndInterval) (h : (checked changed i).1 < 0) :
    interval_is_crossed (checked changed i).2 = true := by
  cases hcrossed : interval_is_crossed i with
  | true =>
    rw [checked_crossed changed i hcrossed]
    exact hcrossed
  | false =>
    rw [checked_not_crossed changed i hcrossed] at h
    have hnot : ¬ (if changed then 1 else 0 : Int) < 0 := by cases changed <;> decide
    exact absurd h hnot

theorem checked_zero (changed : Bool) (i : SndInterval) (h : (checked changed i).1 = 0) : changed = false := by
  cases hcrossed : interval_is_crossed i with
  | true =>
    rw [checked_crossed changed i hcrossed] at h
    have hnot : ¬ (-EINVAL : Int) = 0 := by decide
    exact absurd h hnot
  | false =>
    rw [checked_not_crossed changed i hcrossed] at h
    cases changed
    · rfl
    · exact absurd h one_ne_zero

theorem flag_integer_unchanged (r : Bool × SndInterval) (integer : Bool) (h : (flag_integer r integer).1 = false) :
    flag_integer r integer = r := by
  unfold flag_integer at h ⊢
  by_cases hflag : ¬ r.2.integer = true ∧ integer = true
  · rw [if_pos hflag] at h
    exact Bool.noConfusion h
  · rw [if_neg hflag]

theorem raise_min_unchanged (i : SndInterval) (min : BitVec 32) (openmin : Bool)
    (h : (raise_min i min openmin).1 = false) : (raise_min i min openmin).2 = i := by
  unfold raise_min at h ⊢
  split_ifs at h ⊢
  rfl

theorem lower_max_unchanged (i : SndInterval) (max : BitVec 32) (openmax : Bool)
    (h : (lower_max i max openmax).1 = false) : (lower_max i max openmax).2 = i := by
  unfold lower_max at h ⊢
  split_ifs at h ⊢
  rfl

theorem refine_min_neg (i : SndInterval) (min : BitVec 32) (openmin integer : Bool) (hempty : i.empty = false)
    (hwrap : ¬ MinWraps i min openmin integer) (h : (snd_interval_refine_min i min openmin integer).1 < 0) :
    denote i ∩ above (num min) openmin ∩ integers integer = ∅ := by
  rw [← snd_interval_refine_min_denote i min openmin integer hempty hwrap]
  rw [snd_interval_refine_min_eq i min openmin integer hempty] at h ⊢
  exact denote_crossed _ (checked_neg _ _ h)

theorem refine_max_neg (i : SndInterval) (max : BitVec 32) (openmax integer : Bool) (hempty : i.empty = false)
    (hwrap : ¬ MaxWraps i max openmax integer) (h : (snd_interval_refine_max i max openmax integer).1 < 0) :
    denote i ∩ below (num max) openmax ∩ integers integer = ∅ := by
  rw [← snd_interval_refine_max_denote i max openmax integer hempty hwrap]
  rw [snd_interval_refine_max_eq i max openmax integer hempty] at h ⊢
  exact denote_crossed _ (checked_neg _ _ h)

theorem refine_min_zero (i : SndInterval) (min : BitVec 32) (openmin integer : Bool) (hempty : i.empty = false)
    (hwrap : ¬ MinWraps i min openmin integer) (h : (snd_interval_refine_min i min openmin integer).1 = 0) :
    denote (snd_interval_refine_min i min openmin integer).2 = denote i := by
  have hdenote := snd_interval_refine_min_denote i min openmin integer hempty hwrap
  rw [snd_interval_refine_min_eq i min openmin integer hempty] at h
  have hunflagged := flag_integer_unchanged _ _ (checked_zero _ _ h)
  have hunchanged := checked_zero _ _ h
  rw [hunflagged] at hunchanged
  rw [hdenote, ← raise_min_spec, ← flag_integer_spec, hunflagged, raise_min_unchanged _ _ _ hunchanged]

theorem refine_max_zero (i : SndInterval) (max : BitVec 32) (openmax integer : Bool) (hempty : i.empty = false)
    (hwrap : ¬ MaxWraps i max openmax integer) (h : (snd_interval_refine_max i max openmax integer).1 = 0) :
    denote (snd_interval_refine_max i max openmax integer).2 = denote i := by
  have hdenote := snd_interval_refine_max_denote i max openmax integer hempty hwrap
  rw [snd_interval_refine_max_eq i max openmax integer hempty] at h
  have hunflagged := flag_integer_unchanged _ _ (checked_zero _ _ h)
  have hunchanged := checked_zero _ _ h
  rw [hunflagged] at hunchanged
  rw [hdenote, ← lower_max_spec, ← flag_integer_spec, hunflagged, lower_max_unchanged _ _ _ hunchanged]

/-! ## What they leave -/

theorem raise_min_empty (i : SndInterval) (min : BitVec 32) (openmin : Bool) :
    (raise_min i min openmin).2.empty = i.empty := by
  unfold raise_min
  split_ifs <;> rfl

theorem lower_max_frame (i : SndInterval) (max : BitVec 32) (openmax : Bool) :
    (lower_max i max openmax).2.openmin = i.openmin ∧ (lower_max i max openmax).2.integer = i.integer ∧
      (lower_max i max openmax).2.empty = i.empty := by
  unfold lower_max
  split_ifs <;> exact ⟨rfl, rfl, rfl⟩

theorem close_min_left (i : SndInterval) :
    (close_min i).empty = i.empty ∧ ((close_min i).integer = true → (close_min i).openmin = false) := by
  unfold close_min
  split_ifs with hclose
  · exact ⟨rfl, fun _ => rfl⟩
  · refine ⟨rfl, fun hint => ?_⟩
    by_contra hopen
    exact hclose ⟨hint, by simpa using hopen⟩

theorem close_max_left (i : SndInterval) :
    (close_max i).openmin = i.openmin ∧ (close_max i).integer = i.integer ∧ (close_max i).empty = i.empty ∧
      ((close_max i).integer = true → (close_max i).openmax = false) := by
  unfold close_max
  split_ifs with hclose
  · exact ⟨rfl, rfl, rfl, fun _ => rfl⟩
  · refine ⟨rfl, rfl, rfl, fun hint => ?_⟩
    by_contra hopen
    exact hclose ⟨hint, by simpa using hopen⟩

theorem refine_min_left (i : SndInterval) (min : BitVec 32) (openmin integer : Bool) (hempty : i.empty = false)
    (hret : 0 ≤ (snd_interval_refine_min i min openmin integer).1) :
    (snd_interval_refine_min i min openmin integer).2.empty = false ∧
      ((snd_interval_refine_min i min openmin integer).2.integer = true →
        (snd_interval_refine_min i min openmin integer).2.openmin = false) := by
  rw [snd_interval_refine_min_eq i min openmin integer hempty] at hret ⊢
  rw [(checked_ok _ _ hret).1]
  obtain ⟨hsame, hclosed⟩ := close_min_left (flag_integer (raise_min i min openmin) integer).2
  refine ⟨?_, hclosed⟩
  rw [hsame, flag_integer_frame]
  exact (raise_min_empty i min openmin).trans hempty

theorem refine_max_left (i : SndInterval) (max : BitVec 32) (openmax integer : Bool) (hempty : i.empty = false)
    (hclosed : i.integer || integer → i.openmin = false)
    (hret : 0 ≤ (snd_interval_refine_max i max openmax integer).1) :
    (snd_interval_refine_max i max openmax integer).2.empty = false ∧
      Normal (snd_interval_refine_max i max openmax integer).2 ∧
      interval_is_crossed (snd_interval_refine_max i max openmax integer).2 = false := by
  rw [snd_interval_refine_max_eq i max openmax integer hempty] at hret ⊢
  obtain ⟨hsame, hcrossed⟩ := checked_ok _ _ hret
  rw [hsame]
  obtain ⟨hopenmin, hinteger, hempty', hopenmax⟩ :=
    close_max_left (flag_integer (lower_max i max openmax) integer).2
  obtain ⟨hopenmin', hinteger', hempty''⟩ := lower_max_frame i max openmax
  rw [flag_integer_frame] at hopenmin hinteger hempty'
  refine ⟨?_, fun hint => ⟨?_, hopenmax hint⟩, hcrossed⟩
  · rw [flag_integer_frame, hempty']
    exact hempty''.trans hempty
  · rw [flag_integer_frame, hinteger] at hint
    rw [flag_integer_frame, hopenmin]
    dsimp only at hint ⊢
    rw [hinteger'] at hint
    rw [hopenmin']
    exact hclosed hint

theorem denote_flagged_point (i : SndInterval) (hmin : i.openmin = false) (hmax : i.openmax = false)
    (hpoint : i.min = i.max) : denote { i with integer := true } = denote i := by
  apply Set.Subset.antisymm
  · rintro x ⟨habove, hbelow, hint⟩
    exact ⟨habove, hbelow, fun _ => hint rfl⟩
  · rintro x ⟨habove, hbelow, -⟩
    refine ⟨habove, hbelow, fun _ => ⟨i.min.toNat, ?_⟩⟩
    rw [hmin, mem_above_closed] at habove
    rw [hmax, mem_below_closed, ← hpoint] at hbelow
    rw [le_antisymm hbelow habove, num]
    norm_cast

/-! ## The intersection -/

theorem denote_inter (i v : SndInterval) : denote i ∩ denote v =
    denote i ∩ above (num v.min) v.openmin ∩ integers v.integer ∩ below (num v.max) v.openmax ∩
      integers v.integer := by
  ext x
  constructor
  · rintro ⟨hi, hmin, hmax, hint⟩
    exact ⟨⟨⟨⟨hi, hmin⟩, hint⟩, hmax⟩, hint⟩
  · rintro ⟨⟨⟨⟨hi, hmin⟩, -⟩, hmax⟩, hint⟩
    exact ⟨hi, hmin, hmax, hint⟩

theorem check_empty_iff (i : SndInterval) : (interval_check_empty i).1 = interval_is_crossed i := by
  unfold interval_check_empty
  split_ifs with hcrossed
  · exact hcrossed.symm
  · exact (Bool.not_eq_true _ ▸ hcrossed).symm

section Refine

variable (i v : SndInterval) (hi : i.empty = false) (hiOk : interval_is_crossed i = false)
  (hvOk : interval_is_crossed v = false)

include hvOk in
theorem not_maxWraps_after (hret : 0 ≤ (snd_interval_refine_min i v.min v.openmin v.integer).1)
    (hwrap : ¬ MinWraps i v.min v.openmin v.integer) :
    ¬ MaxWraps (snd_interval_refine_min i v.min v.openmin v.integer).2 v.max v.openmax v.integer := by
  obtain ⟨-, hcrossed, -⟩ := snd_interval_refine_min_spec i v.min v.openmin v.integer hwrap hret
  apply not_maxWraps _ _ _ _ hcrossed
  by_cases hopen : v.openmax = true
  · exact Or.inl (not_zero_of_open v hvOk hopen)
  · exact Or.inr (by simpa using hopen)

include hi hiOk hvOk in
/-- Either nothing is in both intervals, or what is left is in both and something. -/
theorem snd_interval_refine_outcome :
    ((snd_interval_refine i v).1 < 0 ∧ denote i ∩ denote v = ∅) ∨
      (0 ≤ (snd_interval_refine i v).1 ∧ (snd_interval_refine i v).2.empty = false ∧
        denote (snd_interval_refine i v).2 = denote i ∩ denote v ∧ (denote i ∩ denote v).Nonempty ∧
        ((snd_interval_refine i v).1 = 0 → denote (snd_interval_refine i v).2 = denote i)) := by
  have hwrap := not_minWraps i v v.integer hiOk hvOk
  have hwrap' := fun hret => not_maxWraps_after i v hvOk hret hwrap
  have hdenote := snd_interval_refine_min_denote i v.min v.openmin v.integer hi hwrap
  have hneg := refine_min_neg i v.min v.openmin v.integer hi hwrap
  have hzero := refine_min_zero i v.min v.openmin v.integer hi hwrap
  have hleft := refine_min_left i v.min v.openmin v.integer hi
  have hspec := snd_interval_refine_min_spec i v.min v.openmin v.integer hwrap
  rw [denote_inter]
  unfold snd_interval_refine
  obtain ⟨⟨err, i1⟩, h1⟩ : ∃ r, snd_interval_refine_min i v.min v.openmin v.integer = r := ⟨_, rfl⟩
  rw [h1] at hwrap' hdenote hneg hzero hleft hspec ⊢
  dsimp only at hwrap' hdenote hneg hzero hleft hspec ⊢
  rw [← hdenote] at hneg ⊢
  by_cases herr : err < 0
  · rw [if_pos herr]
    refine Or.inl ⟨herr, ?_⟩
    rw [hneg herr, Set.empty_inter, Set.empty_inter]
  have herr := not_lt.mp herr
  obtain ⟨hempty, hclosed⟩ := hleft herr
  obtain ⟨-, -, -, -, hinteger⟩ := hspec herr
  have hwrap' := hwrap' herr
  have hdenote' := snd_interval_refine_max_denote i1 v.max v.openmax v.integer hempty hwrap'
  have hneg' := refine_max_neg i1 v.max v.openmax v.integer hempty hwrap'
  have hzero' := refine_max_zero i1 v.max v.openmax v.integer hempty hwrap'
  have hleft' := refine_max_left i1 v.max v.openmax v.integer hempty (by
    intro h
    apply hclosed
    rw [hinteger, Bool.or_assoc, Bool.or_self] at h
    rw [hinteger, h])
  rw [if_neg (not_lt.mpr herr)]
  obtain ⟨⟨err', i2⟩, h2⟩ : ∃ r, snd_interval_refine_max i1 v.max v.openmax v.integer = r := ⟨_, rfl⟩
  rw [h2] at hdenote' hneg' hzero' hleft' ⊢
  dsimp only at hdenote' hneg' hzero' hleft' ⊢
  rw [← hdenote'] at hneg' ⊢
  by_cases herr' : err' < 0
  · rw [if_pos herr']
    exact Or.inl ⟨herr', hneg' herr'⟩
  have herr' := not_lt.mp herr'
  obtain ⟨hempty', hnormal, hcrossed⟩ := hleft' herr'
  have hnonempty := denote_nonempty i2 hnormal hcrossed
  rw [if_neg (not_lt.mpr herr')]
  have hunchanged : max err err' = 0 → denote i2 = denote i := by
    intro hmax
    have herr0 : err = 0 := le_antisymm (hmax ▸ le_max_left err err') herr
    have herr0' : err' = 0 := le_antisymm (hmax ▸ le_max_right err err') herr'
    rw [hzero' herr0', hzero herr0]
  right
  by_cases hpoint : ¬ i2.integer = true ∧ ¬ i2.openmin = true ∧ ¬ i2.openmax = true ∧ i2.min = i2.max
  · rw [if_pos hpoint, denote_flagged_point i2 (by simpa using hpoint.2.1) (by simpa using hpoint.2.2.1)
      hpoint.2.2.2]
    exact ⟨le_max_of_le_left herr, hempty', rfl, hnonempty, hunchanged⟩
  · rw [if_neg hpoint]
    exact ⟨le_max_of_le_left herr, hempty', rfl, hnonempty, hunchanged⟩

end Refine

/-- `min++` and `max--` never wrap, only disjoint intervals are refused, and what is left is the
intersection of the two. -/
theorem snd_interval_refine_exact (i v : SndInterval) (hi : i.empty = false)
    (hiOk : (interval_check_empty i).1 = false) (hvOk : (interval_check_empty v).1 = false) :
    ¬ MinWraps i v.min v.openmin v.integer ∧
      (0 ≤ (snd_interval_refine_min i v.min v.openmin v.integer).1 →
        ¬ MaxWraps (snd_interval_refine_min i v.min v.openmin v.integer).2 v.max v.openmax v.integer) ∧
      ((snd_interval_refine i v).1 < 0 ↔ Disjoint (denote i) (denote v)) ∧
      (0 ≤ (snd_interval_refine i v).1 → (snd_interval_refine i v).2.empty = false ∧
        denote (snd_interval_refine i v).2 = denote i ∩ denote v) ∧
      ((snd_interval_refine i v).1 = 0 → denote (snd_interval_refine i v).2 = denote i) := by
  rw [check_empty_iff] at hiOk hvOk
  have hwrap := not_minWraps i v v.integer hiOk hvOk
  refine ⟨hwrap, fun hret => not_maxWraps_after i v hvOk hret hwrap, ?_⟩
  rw [Set.disjoint_iff_inter_eq_empty]
  rcases snd_interval_refine_outcome i v hi hiOk hvOk with ⟨hneg, hnone⟩ | ⟨hret, hempty, hdenote, hsome, hzero⟩
  · exact ⟨iff_of_true hneg hnone, fun h => absurd hneg (not_lt.mpr h), fun h => absurd hneg h.not_lt⟩
  · exact ⟨iff_of_false (not_lt.mpr hret) hsome.ne_empty, fun _ => ⟨hempty, hdenote⟩, hzero⟩

/-- Of the numbers above 3 and the integers from 0 to 9, the integers from 4 to 9 are left. -/
theorem refine_above_three :
    denote (snd_interval_refine ⟨3, 20, true, false, false, false⟩ ⟨0, 9, false, false, true, false⟩).2 =
      denote ⟨3, 20, true, false, false, false⟩ ∩ denote ⟨0, 9, false, false, true, false⟩ :=
  ((snd_interval_refine_exact _ _ rfl (by decide) (by decide)).2.2.2.1 (by decide)).2

end Salsa.HwParams
