import Salsa.HwParams.Narrow
import Salsa.HwParams.Endpoints
import Salsa.HwParams.MaskSets
import Mathlib.Data.BitVec
import Mathlib.Data.Rat.Floor

/-!
# Parameters of one value

A parameter that is reduced to its first or its last value has that value from then on, as long as the
kernel narrows the parameters and leaves none of them empty.
-/

namespace Salsa.HwParams

open Ends

/-! ## Values -/

/-- No parameter is empty, as the kernel leaves them when it accepts. -/
structure Proper (p : SndPcmHwParams) : Prop where
  masks : ∀ m, mask_is_empty (p.masks m) = false
  unflagged : ∀ n, (p.intervals n).empty = false
  normal : ∀ n, Normal (p.intervals n)
  uncrossed : ∀ n, interval_is_crossed (p.intervals n) = false

def Single (p : SndPcmHwParams) : Var → Prop
  | .mask m => mask_is_single (p.masks m) = true
  | .interval n => interval_is_single (p.intervals n) = true

/-- The whole parts of the numbers of an interval. -/
def interval_values (i : SndInterval) : Set ℕ := {u | ∃ x ∈ denote i, (u : ℚ) ≤ x ∧ x < u + 1}

def values (p : SndPcmHwParams) : Var → Set ℕ
  | .mask m => mask_values (p.masks m)
  | .interval n => interval_values (p.intervals n)

/-- What the getter reads where there is one value. -/
def reading (p : SndPcmHwParams) : Var → BitVec 32
  | .mask m => BitVec.ofNat 32 (mask_get_min (p.masks m))
  | .interval n => (p.intervals n).min

theorem floor_unit (i : SndInterval) (x : ℚ) (h : x ∈ denote i) : (⌊x⌋₊ : ℚ) ≤ x ∧ x < ⌊x⌋₊ + 1 := by
  have hpos : 0 ≤ x := le_trans (by simp [num]) (le_of_mem_above _ _ _ h.1)
  exact ⟨Nat.floor_le hpos, Nat.lt_floor_add_one x⟩

theorem mem_floor (i : SndInterval) (x : ℚ) (h : x ∈ denote i) : ⌊x⌋₊ ∈ interval_values i :=
  ⟨x, h, floor_unit i x h⟩

theorem values_mono (p q : SndPcmHwParams) (var : Var) (h : SubParams q p) : values q var ⊆ values p var := by
  cases var with
  | mask m => exact h.masks m
  | interval n =>
    rintro u ⟨x, hx, hu⟩
    exact ⟨x, h.intervals n hx, hu⟩

theorem values_nonempty (p : SndPcmHwParams) (var : Var) (hp : Proper p) : (values p var).Nonempty := by
  cases var with
  | mask m => exact nonempty_of_not_empty (p.masks m) (by simp [hp.masks m])
  | interval n =>
    obtain ⟨x, hx⟩ := denote_nonempty _ (hp.normal n) (hp.uncrossed n)
    exact ⟨⌊x⌋₊, mem_floor _ x hx⟩

/-- One value that is narrowed to something is the same value. -/
theorem values_kept (p q : SndPcmHwParams) (var : Var) (v : ℕ) (hq : Proper q) (hsub : SubParams q p)
    (h : values p var = {v}) : values q var = {v} := by
  have hpart := values_mono p q var hsub
  rw [h, Set.subset_singleton_iff_eq] at hpart
  exact hpart.resolve_left (values_nonempty q var hq).ne_empty

theorem denote_of_single (i : SndInterval) (hsingle : interval_is_single i = true)
    (h : interval_is_crossed i = false) : denote i ⊆ Set.Ico (num i.min) (num i.min + 1) := by
  rintro x ⟨habove, hbelow, -⟩
  refine ⟨le_of_mem_above _ _ _ habove, ?_⟩
  simp only [interval_is_single, Bool.or_eq_true, Bool.and_eq_true, beq_iff_eq] at hsingle
  rcases hsingle with heq | ⟨heq, hopen⟩
  · have hle := le_of_mem_below _ _ _ hbelow
    rw [← heq] at hle
    linarith
  · have hlt := not_singleWraps i h
    have hne : i.min ≠ UINT_MAX := by
      intro hmax
      by_cases hends : i.min = i.max
      · rw [hends] at heq
        exact absurd heq (by simp)
      · exact hlt ⟨hends, hmax⟩
    rw [hopen, mem_below_open, ← heq, num_add_one _ hne] at hbelow
    exact hbelow

theorem mem_values_of_unit (i r : SndInterval) (hne : (denote r).Nonempty) (hpart : denote r ⊆ denote i)
    (hunit : denote r ⊆ Set.Ico (num r.min) (num r.min + 1)) : r.min.toNat ∈ interval_values i := by
  obtain ⟨x, hx⟩ := hne
  exact ⟨x, hpart hx, hunit hx⟩

theorem isLeast_unit (i r : SndInterval) (hmem : r.min.toNat ∈ interval_values i)
    (hleast : ∀ x ∈ denote i, num r.min ≤ x) : IsLeast (interval_values i) r.min.toNat := by
  refine ⟨hmem, ?_⟩
  rintro u ⟨x, hx, -, hlt⟩
  have hlow : (r.min.toNat : ℚ) < (u + 1 : ℕ) := by
    push_cast
    exact (hleast x hx).trans_lt hlt
  exact Nat.lt_succ_iff.mp (Nat.cast_lt.mp hlow)

theorem isGreatest_unit (i r : SndInterval) (hmem : r.min.toNat ∈ interval_values i)
    (hgreatest : ∀ x ∈ denote i, x < num r.min + 1) : IsGreatest (interval_values i) r.min.toNat := by
  refine ⟨hmem, ?_⟩
  rintro u ⟨x, hx, hle, -⟩
  have hhigh : (u : ℚ) < (r.min.toNat + 1 : ℕ) := by
    push_cast
    exact hle.trans_lt (hgreatest x hx)
  exact Nat.lt_succ_iff.mp (Nat.cast_lt.mp hhigh)

theorem single_of_unit (r : SndInterval) (a : ℚ) (hnormal : Normal r) (hr : interval_is_crossed r = false)
    (hunit : denote r ⊆ Set.Ico a (a + 1)) : interval_is_single r = true := by
  have hlow : a ≤ num r.min := (isGLB_denote r hnormal hr).2 fun x hx => (hunit hx).1
  have hhigh : num r.max ≤ a + 1 := (isLUB_denote r hnormal hr).2 fun x hx => (hunit hx).2.le
  simp only [interval_is_single, Bool.or_eq_true, Bool.and_eq_true, beq_iff_eq]
  by_cases hends : r.min = r.max
  · exact Or.inl hends
  have hlt : r.min < r.max := by
    rcases (not_crossed_iff r).mp hr with hlt | ⟨heq, -⟩
    · exact hlt
    · exact absurd heq hends
  have hnext := num_add_one_le _ _ hlt
  have hmax : num r.max = num r.min + 1 := by linarith
  have hne : r.min ≠ UINT_MAX := fun hmin => le_UINT_MAX r.max (hmin ▸ hlt)
  refine Or.inr ⟨num_inj _ _ (by rw [num_add_one _ hne, hmax]), ?_⟩
  -- A closed end would be a number beyond the unit.
  by_contra hclosed
  rw [Bool.not_eq_true] at hclosed
  have hmem : num r.max ∈ denote r := by
    refine ⟨mem_above_of_lt _ _ _ (num_lt _ _ hlt), ?_, fun _ => num_integer r.max⟩
    rw [hclosed]
    exact le_refl (num r.max)
  have hbelow := (hunit hmem).2
  linarith

theorem single_of_values (p : SndPcmHwParams) (var : Var) (v : ℕ) (hp : Proper p) (h : values p var = {v}) :
    Single p var := by
  cases var with
  | mask m =>
    have hne := nonempty_of_not_empty (p.masks m) (by simp [hp.masks m])
    exact (mask_is_single_iff _ hne).mpr ⟨v, h⟩
  | interval n =>
    apply single_of_unit _ v (hp.normal n) (hp.uncrossed n)
    intro x hx
    obtain ⟨y, hy, hfloor⟩ := mem_floor _ x hx
    have hmem : ⌊x⌋₊ ∈ values p (.interval n) := ⟨y, hy, hfloor⟩
    rw [h, Set.mem_singleton_iff] at hmem
    exact hmem ▸ floor_unit _ x hx

theorem values_of_single (p : SndPcmHwParams) (var : Var) (hp : Proper p) (h : Single p var) :
    values p var = {(reading p var).toNat} := by
  cases var with
  | mask m =>
    have hne := nonempty_of_not_empty (p.masks m) (by simp [hp.masks m])
    obtain ⟨w, hw⟩ := (mask_is_single_iff _ hne).mp h
    have hmin : mask_get_min (p.masks m) = w := by
      have hleast := (mask_get_min_spec _ hne).1
      rwa [hw, Set.mem_singleton_iff] at hleast
    have hlt : w < SND_MASK_MAX := mem_lt (p.masks m) w (hw ▸ rfl)
    unfold SND_MASK_MAX at hlt
    unfold values reading
    dsimp only
    rw [hmin, hw, BitVec.toNat_ofNat, Nat.mod_eq_of_lt (by omega)]
  | interval n =>
    have hne := denote_nonempty _ (hp.normal n) (hp.uncrossed n)
    have hunit := denote_of_single _ h (hp.uncrossed n)
    have hmem := mem_values_of_unit (p.intervals n) (p.intervals n) hne subset_rfl hunit
    have hleast := isLeast_unit (p.intervals n) (p.intervals n) hmem fun x hx => (hunit hx).1
    have hgreatest := isGreatest_unit (p.intervals n) (p.intervals n) hmem fun x hx => (hunit hx).2
    exact Set.eq_singleton_iff_unique_mem.mpr ⟨hmem, fun u hu => le_antisymm (hgreatest.2 hu) (hleast.2 hu)⟩

theorem get_of_single (p : SndPcmHwParams) (var : Var) (v : Val) (hp : Proper p) (h : Single p var) :
    ∃ dir, _snd_pcm_hw_param_get p var v = (0, v.write (reading p var) dir) := by
  cases var with
  | mask m =>
    have hsingle : mask_is_single (p.masks m) = true := h
    exact ⟨0, by simp [_snd_pcm_hw_param_get, hp.masks m, hsingle, reading]⟩
  | interval n =>
    have hsingle : interval_is_single (p.intervals n) = true := h
    exact ⟨if (p.intervals n).openmin then 1 else 0, by
      simp [_snd_pcm_hw_param_get, hp.unflagged n, hsingle, reading]⟩

/-! ## One parameter -/

theorem proper_set_mask (p : SndPcmHwParams) (m : Fin 3) (mask : SndMask) (hp : Proper p)
    (h : mask_is_empty mask = false) : Proper (p.set_mask m mask) := by
  refine { hp with masks := fun m' => ?_ }
  by_cases hm : m' = m
  · rw [hm, masks_set_mask]
    exact h
  · have hkept : (p.set_mask m mask).masks m' = p.masks m' := Function.update_of_ne hm _ _
    rw [hkept]
    exact hp.masks m'

theorem proper_set_interval (p : SndPcmHwParams) (n : Fin 12) (i : SndInterval) (hp : Proper p)
    (hempty : i.empty = false) (hnormal : Normal i) (h : interval_is_crossed i = false) :
    Proper (p.set_interval n i) := by
  have hset (n' : Fin 12) : (p.set_interval n i).intervals n' = i ∨
      (p.set_interval n i).intervals n' = p.intervals n' := by
    by_cases hn : n' = n
    · exact Or.inl (by rw [hn, intervals_set_interval])
    · exact Or.inr (Function.update_of_ne hn _ _)
  constructor
  · exact hp.masks
  all_goals
    intro n'
    rcases hset n' with heq | heq <;> rw [heq]
  · exact hempty
  · exact hp.unflagged n'
  · exact hnormal
  · exact hp.normal n'
  · exact h
  · exact hp.uncrossed n'

theorem refined_mask (p : SndPcmHwParams) (m : Fin 3) (v : Nat) (r : Option (Int × SndMask)) (hp : Proper p)
    (hv : v ∈ mask_values (p.masks m)) (h : RefinesTo (p.masks m) r {v}) :
    ∃ changed q, on_mask p m r = some (changed, q) ∧ 0 ≤ changed ∧ Proper q ∧ SubParams q p ∧
      values q (.mask m) = {v} := by
  obtain ⟨ret, mask, rfl, hvalues, -, -, hzero, hone⟩ := h
  have hne : mask_values (p.masks m) ≠ ∅ := Set.nonempty_iff_ne_empty.mp ⟨v, hv⟩
  have hpart : ({v} : Set Nat) ⊆ mask_values (p.masks m) := Set.singleton_subset_iff.mpr hv
  have hret : 0 ≤ ret := by
    rcases hpart.eq_or_ssubset with heq | hlt
    · exact (hzero.mpr ⟨hne, Set.singleton_ne_empty v, heq⟩).ge
    · rw [hone.mpr ⟨hne, Set.singleton_ne_empty v, hlt⟩]
      decide
  have hnonempty : (mask_values mask).Nonempty := hvalues ▸ Set.singleton_nonempty v
  have hempty : mask_is_empty mask = false := by
    rw [← Bool.not_eq_true, mask_is_empty_iff]
    exact hnonempty.ne_empty
  refine ⟨ret, p.set_mask m mask, rfl, hret, proper_set_mask p m mask hp hempty,
    subParams_set_mask p m mask (hvalues ▸ hpart), ?_⟩
  change mask_values ((p.set_mask m mask).masks m) = {v}
  rw [masks_set_mask, hvalues]

theorem refined_interval (p : SndPcmHwParams) (n : Fin 12) (r : SndInterval) (hp : Proper p)
    (hchosen : Chosen (p.intervals n) r) (hnormal : Normal r) (hcrossed : interval_is_crossed r = false) :
    ∃ changed q, on_interval p n (1, r) = some (changed, q) ∧ 0 ≤ changed ∧ Proper q ∧ SubParams q p ∧
      Single q (.interval n) ∧ reading q (.interval n) = r.min := by
  refine ⟨1, p.set_interval n r, rfl, by decide, proper_set_interval p n r hp hchosen.unflagged hnormal hcrossed,
    subParams_set_interval p n r hchosen.part, ?_, ?_⟩
  · change interval_is_single ((p.set_interval n r).intervals n) = true
    rw [intervals_set_interval]
    exact hchosen.single
  · change ((p.set_interval n r).intervals n).min = r.min
    rw [intervals_set_interval]

/-- The first or the last value, by `last`. -/
def set_end (last : Bool) (p : SndPcmHwParams) (var : Var) : Option (Int × SndPcmHwParams) :=
  if last then hw_param_set_last p var else hw_param_set_first p var

/-- The first or the last of the values, by `last`. -/
def AtEnd (last : Bool) (s : Set ℕ) (v : ℕ) : Prop := if last then IsGreatest s v else IsLeast s v

theorem set_end_mask (last : Bool) (p : SndPcmHwParams) (m : Fin 3) (hp : Proper p) :
    ∃ changed q v, set_end last p (.mask m) = some (changed, q) ∧ 0 ≤ changed ∧ Proper q ∧ SubParams q p ∧
      values q (.mask m) = {v} ∧ AtEnd last (values p (.mask m)) v := by
  have hne := nonempty_of_not_empty (p.masks m) (by simp [hp.masks m])
  cases last with
  | false =>
    have hleast := mask_get_min_spec _ hne
    have hset : {v | IsLeast (mask_values (p.masks m)) v} = {mask_get_min (p.masks m)} :=
      Set.ext fun v => ⟨fun hv => hv.unique hleast, fun hv => hv ▸ hleast⟩
    obtain ⟨changed, q, hset, hchanged, hq, hsub, hvalues⟩ :=
      refined_mask p m _ _ hp hleast.1 (hset ▸ snd_mask_refine_first_sets (p.masks m))
    exact ⟨changed, q, _, hset, hchanged, hq, hsub, hvalues, hleast⟩
  | true =>
    have hgreatest := mask_get_max_spec _ hne
    have hset : {v | IsGreatest (mask_values (p.masks m)) v} = {mask_get_max (p.masks m)} :=
      Set.ext fun v => ⟨fun hv => hv.unique hgreatest, fun hv => hv ▸ hgreatest⟩
    obtain ⟨changed, q, hset, hchanged, hq, hsub, hvalues⟩ :=
      refined_mask p m _ _ hp hgreatest.1 (hset ▸ snd_mask_refine_last_sets (p.masks m))
    exact ⟨changed, q, _, hset, hchanged, hq, hsub, hvalues, hgreatest⟩

theorem first_least (i : SndInterval) (h : Chosen i (first_unit i))
    (hcrossed : interval_is_crossed (first_unit i) = false) :
    IsLeast (interval_values i) (first_unit i).min.toNat := by
  have hunit := denote_of_single (first_unit i) h.single hcrossed
  exact isLeast_unit i _ (mem_values_of_unit i _ h.nonempty h.part hunit) fun x hx => le_of_mem_above _ _ _ hx.1

theorem last_greatest (i : SndInterval) (h : Chosen i (last_unit i))
    (hcrossed : interval_is_crossed (last_unit i) = false)
    (hzero : i.openmax = true → i.max ≠ 0#32) : IsGreatest (interval_values i) (last_unit i).min.toNat := by
  have hunit := denote_of_single (last_unit i) h.single hcrossed
  refine isGreatest_unit i _ (mem_values_of_unit i _ h.nonempty h.part hunit) fun x hx => ?_
  have hbelow := hx.2.1
  unfold last_unit
  cases hopen : i.openmax with
  | true =>
    rw [hopen, mem_below_open] at hbelow
    simp only [if_true]
    rw [num_sub_one _ (hzero hopen)]
    exact hbelow
  | false =>
    rw [hopen, mem_below_closed] at hbelow
    simp only [Bool.false_eq_true, if_false]
    linarith

theorem set_end_interval (last : Bool) (p : SndPcmHwParams) (n : Fin 12) (hp : Proper p) :
    ∃ changed q, set_end last p (.interval n) = some (changed, q) ∧ 0 ≤ changed ∧ Proper q ∧ SubParams q p ∧
      Single q (.interval n) ∧ AtEnd last (values p (.interval n)) (reading q (.interval n)).toNat := by
  have hempty := hp.unflagged n
  have hnormal := hp.normal n
  have hcrossed := hp.uncrossed n
  by_cases hsingle : interval_is_single (p.intervals n) = true
  · -- There is nothing to choose.
    have hsame : p.set_interval n (p.intervals n) = p := by
      unfold SndPcmHwParams.set_interval
      rw [Function.update_eq_self]
    have hvalues := values_of_single p (.interval n) hp hsingle
    refine ⟨0, p, ?_, le_rfl, hp, SubParams.refl p, hsingle, ?_⟩
    · cases last <;>
        simp [set_end, hw_param_set_first, hw_param_set_last, snd_interval_refine_first, snd_interval_refine_last,
          on_interval, hempty, hsingle, hsame]
    · rw [hvalues]
      cases last
      · exact isLeast_singleton
      · exact isGreatest_singleton
  · cases last with
    | false =>
      have hunit := first_unit_not_crossed _ (not_last_of_open _ hcrossed)
      have hcall : snd_interval_refine_first (p.intervals n) = (1, first_unit (p.intervals n)) := by
        rw [snd_interval_refine_first, if_neg (by simp [hempty]), if_neg hsingle]
        rfl
      have hchosen : Chosen (p.intervals n) (first_unit (p.intervals n)) := by
        have hchooses := (first_spec (p.intervals n) hempty hnormal hcrossed).1
        rw [hcall] at hchooses
        exact (hchooses.changed (by simpa using hsingle)).2
      obtain ⟨changed, q, hset, hchanged, hq, hsub, hone, hreading⟩ := refined_interval p n _ hp
        hchosen (first_unit_normal _ hnormal) hunit
      refine ⟨changed, q, ?_, hchanged, hq, hsub, hone, ?_⟩
      · rw [← hset, ← hcall]
        rfl
      · rw [hreading]
        exact first_least _ hchosen hunit
    | true =>
      have hzero := not_zero_of_open _ hcrossed
      have hunit := last_unit_not_crossed _ hzero
      have hcall : snd_interval_refine_last (p.intervals n) = (1, last_unit (p.intervals n)) := by
        rw [snd_interval_refine_last, if_neg (by simp [hempty]), if_neg hsingle]
        rfl
      have hchosen : Chosen (p.intervals n) (last_unit (p.intervals n)) := by
        have hchooses := (last_spec (p.intervals n) hempty hnormal hcrossed).1
        rw [hcall] at hchooses
        exact (hchooses.changed (by simpa using hsingle)).2
      obtain ⟨changed, q, hset, hchanged, hq, hsub, hone, hreading⟩ := refined_interval p n _ hp
        hchosen (last_unit_normal _ hnormal) hunit
      refine ⟨changed, q, ?_, hchanged, hq, hsub, hone, ?_⟩
      · rw [← hset, ← hcall]
        rfl
      · rw [hreading]
        exact last_greatest _ hchosen hunit hzero

theorem set_end_outcome (last : Bool) (p : SndPcmHwParams) (var : Var) (hp : Proper p) :
    ∃ changed q v, set_end last p var = some (changed, q) ∧ 0 ≤ changed ∧ Proper q ∧ SubParams q p ∧
      values q var = {v} ∧ AtEnd last (values p var) v := by
  cases var with
  | mask m => exact set_end_mask last p m hp
  | interval n =>
    obtain ⟨changed, q, hset, hchanged, hq, hsub, hsingle, hend⟩ := set_end_interval last p n hp
    exact ⟨changed, q, _, hset, hchanged, hq, hsub, values_of_single q (.interval n) hq hsingle, hend⟩

/-! ## The kernel -/

/-- The kernel accepts a part of the parameters, with none of them empty, or it refuses. -/
def Sound (hw : HwRefine) : Prop := ∀ p, Proper p → (hw p).1 = 0 → SubParams (hw p).2 p ∧ Proper (hw p).2

theorem mark_proper (p : SndPcmHwParams) (var : Var) (hp : Proper p) : Proper (p.mark var) := { hp with }

/-- The kernel is asked where something has changed, and gives back `q` for `p`. -/
def Accepts (hw : HwRefine) (p q : SndPcmHwParams) : Prop :=
  (p.rmask = 0#32 ∧ q = p) ∨ ((hw p).1 = 0 ∧ q = (hw p).2)

theorem Accepts.sub {hw : HwRefine} {p q : SndPcmHwParams} (hhw : Sound hw) (hp : Proper p) (h : Accepts hw p q) :
    SubParams q p ∧ Proper q := by
  rcases h with ⟨-, rfl⟩ | ⟨haccepted, rfl⟩
  · exact ⟨SubParams.refl q, hp⟩
  · exact hhw p hp haccepted

/-- A change is marked, and then the kernel accepts what it is asked or refuses it. -/
theorem update_outcome (hw : HwRefine) (hhw : Sound hw) (p : SndPcmHwParams) (var : Var) (changed : Int)
    (hp : Proper p) (hchanged : 0 ≤ changed) :
    ∃ q, q = (if changed ≠ 0 then p.mark var else p) ∧
      ((∃ q', Accepts hw q q' ∧ hw_param_update_var hw p var changed = (0, q')) ∨
        (0 < (hw q).1 ∧ hw_param_update_var hw p var changed = (-((hw q).1 : Int), (hw q).2))) := by
  unfold hw_param_update_var
  rw [if_neg (Int.not_lt.mpr hchanged)]
  obtain ⟨q, hq⟩ : ∃ q, (if changed ≠ 0 then p.mark var else p) = q := ⟨_, rfl⟩
  have hproper : Proper q := by
    rw [← hq]
    split_ifs
    · exact mark_proper p var hp
    · exact hp
  rw [hq]
  refine ⟨q, rfl, ?_⟩
  dsimp only
  split_ifs with hrmask herr hempty
  · -- The kernel refuses.
    refine Or.inr ⟨?_, rfl⟩
    simp only [snd_pcm_hw_refine] at herr
    omega
  · have hzero : (hw q).1 = 0 := by
      simp only [snd_pcm_hw_refine] at herr
      omega
    have hproper := (hhw q hproper hzero).2
    cases var with
    | mask m => exact absurd hempty (by simp [snd_pcm_hw_param_empty, snd_pcm_hw_refine, hproper.masks m])
    | interval n => exact absurd hempty (by simp [snd_pcm_hw_param_empty, snd_pcm_hw_refine, hproper.unflagged n])
  · have hzero : (hw q).1 = 0 := by
      simp only [snd_pcm_hw_refine] at herr
      omega
    exact Or.inl ⟨_, Or.inr ⟨hzero, rfl⟩, rfl⟩
  · exact Or.inl ⟨q, Or.inl ⟨not_not.mp hrmask, rfl⟩, rfl⟩

end Salsa.HwParams
