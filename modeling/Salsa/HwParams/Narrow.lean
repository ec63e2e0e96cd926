import Salsa.HwParams.Intersect
import Salsa.HwParams.Restore
import Salsa.Lib.Run

/-!
# Setters narrow

A successful setter leaves a part of the configuration space, and what it was asked for,
unless an end that it moves wraps around in 32 bits or the ends of an interval have crossed.
-/

open Ends Run

namespace Salsa.HwParams

/-! ## Parts of the configuration space -/

/-- Every mask and every interval of `new` denotes a part of what it denotes in `old`. -/
structure SubParams (new old : SndPcmHwParams) : Prop where
  masks : ∀ m, mask_values (new.masks m) ⊆ mask_values (old.masks m)
  intervals : ∀ n, denote (new.intervals n) ⊆ denote (old.intervals n)

theorem SubParams.refl (p : SndPcmHwParams) : SubParams p p := ⟨fun _ _ h => h, fun _ _ h => h⟩

theorem SubParams.trans {a b c : SndPcmHwParams} (hab : SubParams a b) (hbc : SubParams b c) :
    SubParams a c :=
  ⟨fun m => (hab.masks m).trans (hbc.masks m), fun n => (hab.intervals n).trans (hbc.intervals n)⟩

theorem subParams_set_mask (p : SndPcmHwParams) (m : Fin 3) (mask : SndMask)
    (h : mask_values mask ⊆ mask_values (p.masks m)) : SubParams (p.set_mask m mask) p := by
  refine ⟨fun m' => ?_, fun _ _ h => h⟩
  by_cases hm : m' = m
  · subst hm
    simpa [SndPcmHwParams.set_mask] using h
  · simp [SndPcmHwParams.set_mask, Function.update_of_ne hm]

theorem subParams_set_interval (p : SndPcmHwParams) (n : Fin 12) (i : SndInterval)
    (h : denote i ⊆ denote (p.intervals n)) : SubParams (p.set_interval n i) p := by
  refine ⟨fun _ _ h => h, fun n' => ?_⟩
  by_cases hn : n' = n
  · subst hn
    simpa [SndPcmHwParams.set_interval] using h
  · simp [SndPcmHwParams.set_interval, Function.update_of_ne hn]

/-- An interval parameter lies within `bound`; of a mask nothing is asked. -/
def Within (bound : Set ℚ) (p : SndPcmHwParams) : Var → Prop
  | .mask _ => True
  | .interval n => denote (p.intervals n) ⊆ bound

theorem Within.mono {bound : Set ℚ} {p q : SndPcmHwParams} {var : Var} (h : Within bound q var)
    (hsub : SubParams p q) : Within bound p var := by
  cases var with
  | mask m => trivial
  | interval n => exact (hsub.intervals n).trans h

/-- `new` is a part of `old` in which `var` lies within `bound`. -/
def Narrowed (bound : Set ℚ) (old : SndPcmHwParams) (var : Var) (new : SndPcmHwParams) : Prop :=
  SubParams new old ∧ Within bound new var

/-! ## The kernel -/

/-- A kernel that accepts parameters only narrows them. -/
def Narrowing (hw : HwRefine) : Prop := ∀ p, (hw p).1 = 0 → SubParams (hw p).2 p

theorem hw_param_update_var_spec (hw : HwRefine) (hhw : Narrowing hw) (p p' : SndPcmHwParams) (var : Var)
    (changed ret : Int) (h : hw_param_update_var hw p var changed = (ret, p')) (hret : 0 ≤ ret) :
    0 ≤ changed ∧ ret = 0 ∧ SubParams p' p := by
  unfold hw_param_update_var at h
  have hmark : ∀ q : SndPcmHwParams, (q = if changed ≠ 0 then p.mark var else p) → SubParams q p := by
    rintro q rfl
    split_ifs
    · exact ⟨fun _ _ h => h, fun _ _ h => h⟩
    · exact SubParams.refl p
  by_cases hneg : changed < 0
  · rw [if_pos hneg] at h
    have := (Prod.mk.inj h).1
    omega
  rw [if_neg hneg] at h
  obtain ⟨q, hq⟩ : ∃ q, q = if changed ≠ 0 then p.mark var else p := ⟨_, rfl⟩
  simp only [← hq, snd_pcm_hw_refine] at h
  split_ifs at h with hrmask herr hempty <;> obtain ⟨rfl, rfl⟩ := Prod.mk.inj h
  · omega
  · exact absurd hret (by simp [ENOENT])
  · exact ⟨by omega, rfl, (hhw q (by omega)).trans (hmark q hq)⟩
  · exact ⟨by omega, rfl, hmark q hq⟩

theorem refine_and_update_nonpos (hw : HwRefine) (var : Var) (refined : Option (Int × SndPcmHwParams)) (err : Int)
    (q : SndPcmHwParams) (h : refine_and_update hw var refined = some (err, q)) : err ≤ 0 := by
  obtain ⟨⟨changed, p⟩, -, heq⟩ := Option.map_eq_some_iff.mp h
  unfold hw_param_update_var snd_pcm_hw_refine at heq
  dsimp only at heq
  split_ifs at heq
  · obtain ⟨rfl, -⟩ := Prod.mk.inj heq
    omega
  all_goals
    obtain ⟨rfl, -⟩ := Prod.mk.inj heq
    first
      | omega
      | decide

theorem refine_and_update_spec (hw : HwRefine) (hhw : Narrowing hw) (bound : Set ℚ)
    (p p' : SndPcmHwParams) (var : Var) (refined : Option (Int × SndPcmHwParams)) (ret : Int)
    (hrefined : ∀ changed p1, refined = some (changed, p1) → 0 ≤ changed → Narrowed bound p var p1)
    (h : refine_and_update hw var refined = some (ret, p')) (hret : 0 ≤ ret) :
    ret = 0 ∧ Narrowed bound p var p' := by
  obtain ⟨⟨changed, p1⟩, h1, h2⟩ := Option.map_eq_some_iff.mp h
  obtain ⟨hchanged, hzero, hsub⟩ := hw_param_update_var_spec hw hhw p1 p' var changed ret h2 hret
  obtain ⟨hsub1, hwithin⟩ := hrefined changed p1 h1 hchanged
  exact ⟨hzero, hsub.trans hsub1, hwithin.mono hsub⟩

/-! ## Refining one parameter -/

theorem on_mask_spec (bound : Set ℚ) (p p1 : SndPcmHwParams) (m : Fin 3) (r : Option (Int × SndMask))
    (changed : Int) (hr : MaskNarrows (p.masks m) r) (h : on_mask p m r = some (changed, p1)) :
    Narrowed bound p (.mask m) p1 := by
  obtain ⟨⟨ret, mask⟩, h1, heq⟩ := Option.map_eq_some_iff.mp h
  obtain ⟨rfl, rfl⟩ := Prod.mk.inj heq
  exact ⟨subParams_set_mask p m mask (hr _ _ h1).values, trivial⟩

theorem on_interval_spec (bound : Set ℚ) (p p1 : SndPcmHwParams) (n : Fin 12) (r : Int × SndInterval)
    (changed : Int) (hr : 0 ≤ r.1 → denote r.2 ⊆ denote (p.intervals n) ∩ bound)
    (h : on_interval p n r = some (changed, p1)) (hret : 0 ≤ changed) :
    Narrowed bound p (.interval n) p1 := by
  obtain ⟨rfl, rfl⟩ := Prod.mk.inj (Option.some.inj h)
  have hsub := hr hret
  refine ⟨subParams_set_interval p n r.2 fun x hx => (hsub hx).1, ?_⟩
  simp only [Within, SndPcmHwParams.set_interval, Function.update_self]
  exact fun x hx => (hsub hx).2

def min_bound (val : BitVec 32) (dir : Int) : Set ℚ :=
  {x | if dir = 0 then num val ≤ x else if dir > 0 then num val < x else num val - 1 < x}

def max_bound (val : BitVec 32) (dir : Int) : Set ℚ :=
  {x | if dir = 0 then x ≤ num val else if dir > 0 then x < num val + 1 else x < num val}

def set_bound (val : BitVec 32) (dir : Int) : Set ℚ :=
  {x | if dir = 0 then x = num val
    else if dir > 0 then num val < x ∧ x < num val + 1
    else num val - 1 < x ∧ x < num val}

theorem num_nonneg (x : BitVec 32) : 0 ≤ num x := by
  unfold num
  exact_mod_cast Nat.zero_le _

theorem num_add_one_ge (x : BitVec 32) : num (x + 1#32) ≤ num x + 1 := by
  by_cases h : x = UINT_MAX
  · have hzero : num (x + 1#32) = 0 := by
      rw [h]
      rfl
    have := num_nonneg x
    linarith
  · rw [num_add_one x h]

theorem above_min_end (val : BitVec 32) (dir : Int) :
    above (num (min_end val dir).1) (min_end val dir).2 ⊆ min_bound val dir := by
  intro x hx
  unfold min_end at hx
  unfold min_bound
  rw [Set.mem_ofPred_eq]
  by_cases hpos : dir > 0
  · have h0 : dir ≠ 0 := by omega
    simp only [if_pos hpos, if_neg h0, mem_above_open] at hx ⊢
    exact hx
  by_cases h0 : dir = 0
  · have hneg : ¬ (dir < 0 ∧ val > 0#32) := by omega
    simp only [if_neg hpos, if_neg hneg, if_pos h0, mem_above_closed] at hx ⊢
    exact hx
  by_cases hval : val = 0#32
  · -- Below 0 there is nothing to ask for.
    have hnonneg := num_nonneg val
    simp only [hval, gt_iff_lt, BitVec.lt_irrefl, and_false, if_neg hpos, if_neg h0, if_false,
      mem_above_closed] at hx hnonneg ⊢
    linarith
  · have hneg : dir < 0 ∧ val > 0#32 := by
      refine ⟨by omega, BitVec.lt_def.mpr (Nat.pos_of_ne_zero fun h => hval (BitVec.eq_of_toNat_eq h))⟩
    have hone := num_sub_one val hval
    simp only [if_neg hpos, if_neg h0, if_pos hneg, mem_above_open] at hx ⊢
    linarith

theorem below_max_end (val : BitVec 32) (dir : Int) :
    below (num (max_end val dir).1) (max_end val dir).2 ⊆ max_bound val dir := by
  intro x hx
  unfold max_end at hx
  unfold max_bound
  rw [Set.mem_ofPred_eq]
  by_cases h0 : dir = 0
  · simp only [h0, ne_eq, not_true_eq_false, if_false, if_true, mem_below_closed] at hx ⊢
    exact hx
  by_cases hpos : dir > 0
  · simp only [if_pos hpos, ne_eq, h0, not_false_eq_true, if_true, if_false, mem_below_open] at hx ⊢
    exact lt_of_lt_of_le hx (num_add_one_ge val)
  · simp only [if_neg hpos, ne_eq, h0, not_false_eq_true, if_true, if_false, mem_below_open] at hx ⊢
    exact hx

/-- What `hw_param_set` refines an interval with. -/
def asked (val : BitVec 32) (dir : Int) : SndInterval := if dir = 0 then point val else open_unit val dir

theorem asked_bound (val : BitVec 32) (dir : Int) (h : ¬ (val = 0#32 ∧ dir < 0)) :
    above (num (asked val dir).min) (asked val dir).openmin ∩
      below (num (asked val dir).max) (asked val dir).openmax ⊆ set_bound val dir := by
  rintro x ⟨hmin, hmax⟩
  unfold set_bound
  rw [Set.mem_ofPred_eq]
  by_cases h0 : dir = 0
  · simp only [asked, point, h0, if_true, mem_above_closed, mem_below_closed] at hmin hmax ⊢
    exact le_antisymm hmax hmin
  by_cases hpos : dir > 0
  · have hneg : ¬ dir < 0 := by omega
    simp only [asked, open_unit, if_neg h0, if_pos hpos, if_neg hneg, mem_above_open,
      mem_below_open] at hmin hmax ⊢
    exact ⟨hmin, lt_of_lt_of_le hmax (num_add_one_ge val)⟩
  · have hneg : dir < 0 := by omega
    have hone := num_sub_one val fun hv => h ⟨hv, hneg⟩
    simp only [asked, open_unit, if_neg h0, if_neg hpos, if_pos hneg, mem_above_open,
      mem_below_open] at hmin hmax ⊢
    exact ⟨by linarith, hmax⟩

/-! ## When no end wraps -/

/-- `set_min` does not move the lower end past the last value. -/
def MinFits (p : SndPcmHwParams) (var : Var) (val : BitVec 32) (dir : Int) : Prop :=
  match var with
  | .mask _ => True
  | .interval n => ¬ MinWraps (p.intervals n) (min_end val dir).1 (min_end val dir).2 false

/-- `set_max` does not move the upper end past 0. -/
def MaxFits (p : SndPcmHwParams) (var : Var) (val : BitVec 32) (dir : Int) : Prop :=
  match var with
  | .mask _ => True
  | .interval n => ¬ MaxWraps (p.intervals n) (max_end val dir).1 (max_end val dir).2 false

def SetFits (p : SndPcmHwParams) (var : Var) (val : BitVec 32) (dir : Int) : Prop :=
  match var with
  | .mask _ => True
  | .interval n => ¬ (val = 0#32 ∧ dir < 0) →
    ¬ MinWraps (p.intervals n) (asked val dir).min (asked val dir).openmin (asked val dir).integer

/-- A number of the interval is above the lower end that is asked for. -/
def MinMet (p : SndPcmHwParams) (var : Var) (val : BitVec 32) (dir : Int) : Prop :=
  match var with
  | .mask _ => True
  | .interval n => (denote (p.intervals n) ∩ min_bound val dir).Nonempty

/-- The ends of an interval have not crossed unnoticed. -/
def OrderFits (p : SndPcmHwParams) : Var → Prop
  | .mask _ => True
  | .interval n => ¬ Inverted (p.intervals n)

/-! ### Ends inside of 32 bits -/

theorem sub_one_ne_last (val : BitVec 32) (h : val ≠ 0#32) : val - 1#32 ≠ UINT_MAX := by
  unfold UINT_MAX
  bv_omega

theorem min_end_inside (val : BitVec 32) (dir : Int) (h : ¬ (0 < dir ∧ val = UINT_MAX)) :
    ¬ ((min_end val dir).2 = true ∧ (min_end val dir).1 = UINT_MAX) := by
  unfold min_end
  split_ifs with hpos hneg
  · exact fun hlast => h ⟨hpos, hlast.2⟩
  · refine fun hlast => sub_one_ne_last val ?_ hlast.2
    rintro rfl
    exact absurd hneg.2 (by decide)
  · exact fun hlast => hlast.1.elim

theorem max_end_inside (val : BitVec 32) (dir : Int) (hlast : ¬ (0 < dir ∧ val = UINT_MAX))
    (hzero : ¬ (dir < 0 ∧ val = 0#32)) : (max_end val dir).1 ≠ 0#32 ∨ (max_end val dir).2 = false := by
  unfold max_end
  split_ifs with hdir hpos
  · refine .inl fun hwrap => hlast ⟨hpos, ?_⟩
    unfold UINT_MAX
    bv_omega
  · exact .inl fun hval => hzero ⟨by omega, hval⟩
  · exact .inr rfl

theorem asked_inside (val : BitVec 32) (dir : Int) (hlast : ¬ (0 < dir ∧ val = UINT_MAX))
    (hzero : ¬ (val = 0#32 ∧ dir < 0)) :
    ¬ ((asked val dir).openmin = true ∧ (asked val dir).min = UINT_MAX) := by
  unfold asked
  split_ifs with hdir
  · exact fun h => Bool.false_ne_true h.1
  · rintro ⟨-, hmin⟩
    unfold open_unit at hmin
    dsimp only at hmin
    split_ifs at hmin with hneg
    · exact sub_one_ne_last val (fun hval => hzero ⟨hval, hneg⟩) hmin
    · exact hlast ⟨by omega, hmin⟩

/-! ### Refining to the request -/

theorem hw_param_set_min_spec (p p1 : SndPcmHwParams) (var : Var) (val : BitVec 32) (dir changed : Int)
    (hfits : MinFits p var val dir) (h : hw_param_set_min p var val dir = some (changed, p1))
    (hret : 0 ≤ changed) : Narrowed (min_bound val dir) p var p1 := by
  cases var with
  | mask m => exact on_mask_spec _ _ _ _ _ _ (snd_mask_refine_min_narrows _ _) h
  | interval n =>
    refine on_interval_spec _ _ _ _ _ _ (fun hok => ?_) h hret
    have hsub := (snd_interval_refine_min_spec _ _ _ _ hfits hok).1
    exact fun x hx => ⟨(hsub hx).1.1, above_min_end val dir (hsub hx).1.2⟩

theorem hw_param_set_max_spec (p p1 : SndPcmHwParams) (var : Var) (val : BitVec 32) (dir changed : Int)
    (hfits : MaxFits p var val dir) (h : hw_param_set_max p var val dir = some (changed, p1))
    (hret : 0 ≤ changed) : Narrowed (max_bound val dir) p var p1 := by
  cases var with
  | mask m => exact on_mask_spec _ _ _ _ _ _ (snd_mask_refine_max_narrows _ _) h
  | interval n =>
    refine on_interval_spec _ _ _ _ _ _ (fun hok => ?_) h hret
    have hsub := snd_interval_refine_max_spec _ _ _ _ hfits hok
    exact fun x hx => ⟨(hsub hx).1.1, below_max_end val dir (hsub hx).1.2⟩

/-- The lower end that `set_min` writes says nothing about the upper end. -/
theorem maxFits_after_min (p p1 : SndPcmHwParams) (var : Var) (val : BitVec 32) (dir changed : Int)
    (max : BitVec 32) (maxdir : Int) (hmin : MinFits p var val dir) (hmax : MaxFits p var max maxdir)
    (h : hw_param_set_min p var val dir = some (changed, p1)) (hret : 0 ≤ changed) :
    MaxFits p1 var max maxdir := by
  cases var with
  | mask m => trivial
  | interval n =>
    obtain ⟨rfl, rfl⟩ := Prod.mk.inj (Option.some.inj h)
    obtain ⟨-, -, hmaxEq, hopenEq, hintEq⟩ := snd_interval_refine_min_spec _ _ _ _ hmin hret
    simp only [MaxFits, SndPcmHwParams.set_interval, Function.update_self]
    refine fun hwraps => hmax (maxWraps_congr _ _ _ _ _ (not_empty_of_refine_min _ _ _ _ hret) hmaxEq
      hopenEq ?_ hwraps)
    rw [hintEq, Bool.or_false]

theorem minMet_of_set_min (p p1 : SndPcmHwParams) (var : Var) (val : BitVec 32) (dir changed : Int)
    (hmin : MinFits p var val dir) (h : hw_param_set_min p var val dir = some (changed, p1)) (hret : 0 ≤ changed) :
    MinMet p var val dir := by
  cases var with
  | mask m => trivial
  | interval n =>
    obtain ⟨rfl, rfl⟩ := Prod.mk.inj (Option.some.inj h)
    obtain ⟨hsub, hcrossed, -⟩ := snd_interval_refine_min_spec _ _ _ _ hmin hret
    have hclosed := (refine_min_left _ _ _ _ (not_empty_of_refine_min _ _ _ _ hret) hret).2
    obtain ⟨x, hx⟩ := denote_nonempty_of_closed _ hclosed hcrossed
    exact ⟨x, (hsub hx).1.1, above_min_end val dir (hsub hx).1.2⟩

theorem Narrowed.trans {bound bound' : Set ℚ} {p q r : SndPcmHwParams} {var : Var}
    (hpq : Narrowed bound p var q) (hqr : Narrowed bound' q var r) : Narrowed (bound ∩ bound') p var r := by
  refine ⟨hqr.1.trans hpq.1, ?_⟩
  have hwithin := hpq.2.mono hqr.1
  cases var with
  | mask m => trivial
  | interval n => exact fun x hx => ⟨hwithin hx, hqr.2 hx⟩

theorem hw_param_set_minmax_spec (p p1 : SndPcmHwParams) (var : Var) (min : BitVec 32) (mindir : Int)
    (max : BitVec 32) (maxdir changed : Int) (hmin : MinFits p var min mindir)
    (hmax : MinMet p var min mindir → MaxFits p var max maxdir)
    (h : hw_param_set_minmax p var min mindir max maxdir = some (changed, p1)) (hret : 0 ≤ changed) :
    Narrowed (min_bound min mindir ∩ max_bound max maxdir) p var p1 := by
  obtain ⟨⟨c1, q⟩, h1, h⟩ := Option.bind_eq_some_iff.mp h
  dsimp only at h
  split_ifs at h with hc1
  · obtain ⟨rfl, -⟩ := Prod.mk.inj (Option.some.inj h)
    omega
  · obtain ⟨⟨c2, q2⟩, h2, h⟩ := Option.map_eq_some_iff.mp h
    have hspec1 := hw_param_set_min_spec p q var min mindir c1 hmin h1 (by omega)
    have hfits2 := maxFits_after_min p q var min mindir c1 max maxdir hmin
      (hmax (minMet_of_set_min p q var min mindir c1 hmin h1 (by omega))) h1 (by omega)
    dsimp only at h
    split_ifs at h with hc2
    · obtain ⟨rfl, -⟩ := Prod.mk.inj h
      omega
    all_goals
      obtain ⟨-, rfl⟩ := Prod.mk.inj h
      exact hspec1.trans (hw_param_set_max_spec q q2 var max maxdir c2 hfits2 h2 (by omega))

/-- An upper end of 0 that is asked for open leaves nothing, so `max--` is not reached. -/
theorem asked_max (i : SndInterval) (val : BitVec 32) (dir : Int) (hdir : ¬ (val = 0#32 ∧ dir < 0))
    (hwrap : ¬ MinWraps i (asked val dir).min (asked val dir).openmin (asked val dir).integer)
    (hret : 0 ≤ (snd_interval_refine_min i (asked val dir).min (asked val dir).openmin
      (asked val dir).integer).1) :
    (asked val dir).max ≠ 0#32 ∨ (asked val dir).openmax = false := by
  by_cases h0 : dir = 0
  · exact Or.inr (by simp [asked, h0, point])
  refine Or.inl fun hmax => ?_
  have hopen : asked val dir = open_unit val dir := if_neg h0
  rw [hopen] at hwrap hret hmax
  by_cases hneg : dir < 0
  · simp only [open_unit, if_pos hneg] at hmax
    exact hdir ⟨hmax, hneg⟩
  · -- `val + 1` is 0: nothing is above the last value.
    simp only [open_unit, if_neg hneg] at hmax hwrap hret
    have hlast : val = UINT_MAX := by
      by_contra hne
      have hone := num_add_one val hne
      have hnonneg := num_nonneg val
      rw [hmax, show num 0#32 = 0 from rfl] at hone
      linarith
    rw [hlast] at hwrap hret
    exact refine_min_last i false hwrap hret

theorem hw_param_set_spec (p p1 : SndPcmHwParams) (var : Var) (val : BitVec 32) (dir changed : Int)
    (hfits : SetFits p var val dir) (h : hw_param_set p var val dir = some (changed, p1))
    (hret : 0 ≤ changed) : Narrowed (set_bound val dir) p var p1 := by
  cases var with
  | mask m =>
    simp only [hw_param_set] at h
    by_cases hlow : val = 0#32 ∧ dir < 0
    · rw [if_pos hlow] at h
      obtain ⟨rfl, -⟩ := Prod.mk.inj (Option.some.inj h)
      exact absurd hret (by decide)
    · rw [if_neg hlow] at h
      exact on_mask_spec _ _ _ _ _ _ (snd_mask_refine_set_narrows _ _) h
  | interval n =>
    simp only [hw_param_set] at h
    by_cases hlow : val = 0#32 ∧ dir < 0
    · rw [if_pos hlow] at h
      obtain ⟨rfl, -⟩ := Prod.mk.inj (Option.some.inj h)
      exact absurd hret (by decide)
    · rw [if_neg hlow] at h
      have hasked : on_interval p n (snd_interval_refine (p.intervals n) (asked val dir)) =
          some (changed, p1) := by
        unfold asked
        split_ifs at h ⊢
        · exact h
        · exact h
      refine on_interval_spec _ _ _ _ _ _ (fun hok => ?_) hasked hret
      have hsub := snd_interval_refine_spec _ _ (hfits hlow)
        (asked_max (p.intervals n) val dir hlow (hfits hlow)) hok
      exact fun x hx => ⟨(hsub hx).1.1.1, asked_bound val dir hlow ⟨(hsub hx).1.1.2, (hsub hx).1.2⟩⟩

theorem hw_param_set_first_spec (p p1 : SndPcmHwParams) (var : Var) (changed : Int)
    (hfits : OrderFits p var) (h : hw_param_set_first p var = some (changed, p1)) (hret : 0 ≤ changed) :
    Narrowed Set.univ p var p1 := by
  cases var with
  | mask m => exact on_mask_spec _ _ _ _ _ _ (snd_mask_refine_first_narrows _) h
  | interval n =>
    refine on_interval_spec _ _ _ _ _ _ (fun hok x hx => ⟨?_, trivial⟩) h hret
    exact snd_interval_refine_first_spec _ hfits hok hx

theorem hw_param_set_last_spec (p p1 : SndPcmHwParams) (var : Var) (changed : Int)
    (hfits : OrderFits p var) (h : hw_param_set_last p var = some (changed, p1)) (hret : 0 ≤ changed) :
    Narrowed Set.univ p var p1 := by
  cases var with
  | mask m => exact on_mask_spec _ _ _ _ _ _ (snd_mask_refine_last_narrows _) h
  | interval n =>
    refine on_interval_spec _ _ _ _ _ _ (fun hok x hx => ⟨?_, trivial⟩) h hret
    exact snd_interval_refine_last_spec _ hfits hok hx

/-! ## The setters -/

theorem saved_narrows {β : Type} (bound : Set ℚ) (var : Var) (refined : Option (Int × SndPcmHwParams))
    (save params' : SndPcmHwParams) (get : SndPcmHwParams → β) (v v' : β) (ret : Int)
    (hrefined : ∀ err q, refined = some (err, q) → 0 ≤ err → err = 0 ∧ Narrowed bound save var q)
    (h : (refined.map fun (err, params) =>
      if err = 0 then ((0 : Int), params, get params) else (err, save, v)) = some (ret, params', v'))
    (hret : 0 ≤ ret) : Narrowed bound save var params' := by
  obtain ⟨⟨err, q⟩, hq, heq⟩ := Option.map_eq_some_iff.mp h
  dsimp only at heq
  split_ifs at heq with herr
  · simp only [Prod.mk.injEq] at heq
    obtain ⟨-, rfl, -⟩ := heq
    exact (hrefined err q hq (by omega)).2
  · obtain ⟨rfl, -⟩ := Prod.mk.inj heq
    exact absurd (hrefined err q hq hret).1 herr

section

variable (hw : HwRefine) (hhw : Narrowing hw) (p p' : SndPcmHwParams) (var : Var) (ret : Int)

include hhw

theorem set_min_narrows (v v' : Val) (hfits : MinFits p var v.val v.dirOr0)
    (h : _snd_pcm_hw_param_set_min hw p var v = some (ret, p', v')) (hret : 0 ≤ ret) :
    Narrowed (min_bound v.val v.dirOr0) p var p' :=
  saved_narrows _ var _ p p' (_snd_pcm_hw_param_get_min · var v) v v' ret
    (fun err q hq herr => refine_and_update_spec hw hhw _ p q var _ err
      (fun changed p1 h1 hc => hw_param_set_min_spec p p1 var _ _ changed hfits h1 hc) hq herr) h hret

theorem set_max_narrows (v v' : Val) (hfits : MaxFits p var v.val v.dirOr0)
    (h : _snd_pcm_hw_param_set_max hw p var v = some (ret, p', v')) (hret : 0 ≤ ret) :
    Narrowed (max_bound v.val v.dirOr0) p var p' :=
  saved_narrows _ var _ p p' (_snd_pcm_hw_param_get_max · var v) v v' ret
    (fun err q hq herr => refine_and_update_spec hw hhw _ p q var _ err
      (fun changed p1 h1 hc => hw_param_set_max_spec p p1 var _ _ changed hfits h1 hc) hq herr) h hret

theorem set_minmax_narrows (min max : Val) (out : Val × Val) (hmin : MinFits p var min.val min.dirOr0)
    (hmax : MinMet p var min.val min.dirOr0 → MaxFits p var max.val max.dirOr0)
    (h : _snd_pcm_hw_param_set_minmax hw p var min max = some (ret, p', out)) (hret : 0 ≤ ret) :
    Narrowed (min_bound min.val min.dirOr0 ∩ max_bound max.val max.dirOr0) p var p' :=
  saved_narrows _ var _ p p' (fun q => (_snd_pcm_hw_param_get_min q var min,
      _snd_pcm_hw_param_get_max q var max)) (min, max) out ret
    (fun err q hq herr => refine_and_update_spec hw hhw _ p q var _ err
      (fun changed p1 h1 hc => hw_param_set_minmax_spec p p1 var _ _ _ _ changed hmin hmax h1 hc)
      hq herr) h hret

theorem set_narrows (val : BitVec 32) (dir : Int) (hfits : SetFits p var val dir)
    (h : _snd_pcm_hw_param_set hw p var val dir = some (ret, p')) (hret : 0 ≤ ret) :
    Narrowed (set_bound val dir) p var p' := by
  obtain ⟨⟨err, q⟩, hq, heq⟩ := Option.map_eq_some_iff.mp h
  obtain ⟨rfl, rfl⟩ := Prod.mk.inj heq
  rw [if_neg (by omega)]
  exact (refine_and_update_spec hw hhw _ p q var _ err
    (fun changed p1 h1 hc => hw_param_set_spec p p1 var _ _ changed hfits h1 hc) hq hret).2

theorem taken_narrows (refined : Option (Int × SndPcmHwParams)) (v v' : Val)
    (hrefined : ∀ changed p1, refined = some (changed, p1) → 0 ≤ changed → Narrowed Set.univ p var p1)
    (h : ((refine_and_update hw var refined).map fun (err, params) =>
      if err = 0 then
        let (err, v) := _snd_pcm_hw_param_get params var v
        (err, params, v)
      else (err, params, v)) = some (ret, p', v')) (hret : 0 ≤ ret) : SubParams p' p := by
  obtain ⟨⟨err, q⟩, hq, heq⟩ := Option.map_eq_some_iff.mp h
  have hspec := refine_and_update_spec hw hhw Set.univ p q var refined err hrefined hq
  dsimp only at heq
  split_ifs at heq with herr
  · simp only [Prod.mk.injEq] at heq
    exact heq.2.1 ▸ (hspec (by omega)).2.1
  · simp only [Prod.mk.injEq] at heq
    exact absurd (hspec (by omega)).1 herr

theorem set_first_narrows (v v' : Val) (hfits : OrderFits p var)
    (h : _snd_pcm_hw_param_set_first hw p var v = some (ret, p', v')) (hret : 0 ≤ ret) :
    SubParams p' p :=
  taken_narrows hw hhw p p' var ret _ v v'
    (fun changed p1 h1 hc => hw_param_set_first_spec p p1 var changed hfits h1 hc) h hret

theorem set_last_narrows (v v' : Val) (hfits : OrderFits p var)
    (h : _snd_pcm_hw_param_set_last hw p var v = some (ret, p', v')) (hret : 0 ≤ ret) :
    SubParams p' p :=
  taken_narrows hw hhw p p' var ret _ v v'
    (fun changed p1 h1 hc => hw_param_set_last_spec p p1 var changed hfits h1 hc) h hret

theorem set_integer_narrows (h : _snd_pcm_hw_param_set_integer hw p var = some (ret, p'))
    (hret : 0 ≤ ret) : SubParams p' p := by
  cases var with
  | mask m => cases h
  | interval n =>
    obtain ⟨i, hi⟩ : ∃ i, p.intervals n = i := ⟨_, rfl⟩
    rw [_snd_pcm_hw_param_set_integer, hi] at h
    by_cases hinteger : i.integer = true
    · rw [if_pos hinteger] at h
      obtain ⟨-, rfl⟩ := Prod.mk.inj (Option.some.inj h)
      exact SubParams.refl _
    by_cases hcrossed : interval_is_crossed i = true
    · simp only [if_neg hinteger, interval_check_empty, if_pos hcrossed, if_true] at h
      obtain ⟨rfl, -⟩ := Prod.mk.inj (Option.some.inj h)
      exact absurd hret (by decide)
    · simp only [if_neg hinteger, interval_check_empty, if_neg hcrossed, Bool.false_eq_true, if_false] at h
      obtain ⟨hr, hp'⟩ := Prod.mk.inj (Option.some.inj h)
      obtain ⟨⟨err, q⟩, hupdate⟩ : ∃ r, hw_param_update_var hw ((p.set_interval n i).set_interval n
        { i with integer := true }) (.interval n) 1 = r := ⟨_, rfl⟩
      rw [hupdate] at hr hp'
      obtain rfl : err = ret := hr
      rw [if_neg (by simpa using hret)] at hp'
      obtain rfl : q = p' := hp'
      have hsub := (hw_param_update_var_spec hw hhw _ _ _ _ _ hupdate hret).2.2
      refine hsub.trans ((subParams_set_interval _ n _ ?_).trans (subParams_set_interval p n i (hi ▸ subset_rfl)))
      simp only [SndPcmHwParams.set_interval, Function.update_self]
      exact fun x hx => ⟨hx.1, hx.2.1, fun _ => hx.2.2 rfl⟩

end

/-! ## The nearest value -/

/-- Of parts of the parameters in order, the kernel does not hand back ends that have crossed without the flag. -/
def Orderly (hw : HwRefine) (p : SndPcmHwParams) (n : Fin 12) : Prop :=
  ∀ q, SubParams q p → interval_is_crossed (q.intervals n) = false → (hw q).1 = 0 → ¬ Inverted ((hw q).2.intervals n)

/-- The parameters as the kernel has them, if `rmask` says to ask it. -/
def known (hw : HwRefine) (p : SndPcmHwParams) : SndPcmHwParams := if p.rmask = 0#32 then p else (hw p).2

/-- The parameters with the lower end of an integer interval closed, which is no change to `set_min`. -/
def closed_below (p : SndPcmHwParams) (n : Fin 12) : SndPcmHwParams :=
  p.set_interval n (close_min (p.intervals n))

/-- The interval may begin at 0: its ends do not cross, and the kernel leaves something of it. -/
structure ZeroTaken (hw : HwRefine) (p : SndPcmHwParams) (n : Fin 12) : Prop where
  ordered : interval_is_crossed (close_min (p.intervals n)) = false
  accepted : p.rmask ≠ 0#32 → (hw (closed_below p n)).1 = 0
  left : ((known hw (closed_below p n)).intervals n).empty = false

/-- The search is over in front of `set_max`. -/
inductive SearchOver (hw : HwRefine) (p : SndPcmHwParams) (n : Fin 12) (v : Val) : Prop
  | crossed (hcrossed : interval_is_crossed (p.intervals n) = true)
      (hsingle : interval_is_single (p.intervals n) = true)
  | refused (hval : v.val = 0#32) (hdir : v.dirOr0 ≤ 0) (hrefused : ¬ ZeroTaken hw p n)
      (hsingle : interval_is_single (p.intervals n) = true)
  | single (hval : v.val = 0#32) (hdir : v.dirOr0 ≤ 0) (htaken : ZeroTaken hw p n)
      (hsingle : interval_is_single ((known hw (closed_below p n)).intervals n) = true)
  | first (hval : v.val = 0#32) (hdir : v.dirOr0 = 0) (htaken : ZeroTaken hw p n)
      (hmin : ((known hw (closed_below p n)).intervals n).min = 0#32)
      (hclosed : ((known hw (closed_below p n)).intervals n).openmin = false)

/-- No end wraps in the search, and the kernel does not make ends cross. -/
def NearFits (hw : HwRefine) (p : SndPcmHwParams) (n : Fin 12) (v : Val) : Prop :=
  MinFits p (.interval n) (near_best v.val) v.dirOr0 ∧
    (MaxFits p (.interval n) (near_max (near_best v.val) v.dirOr0).val (near_max (near_best v.val) v.dirOr0).dirOr0 ∨
      SearchOver hw p n v) ∧
    Orderly hw p n

/-! ### Ends in order -/

theorem not_inverted_of_uncrossed (i : SndInterval) (h : interval_is_crossed i = false) : ¬ Inverted i := by
  rintro ⟨-, -, hlt⟩
  unfold interval_is_crossed at h
  rw [Bool.or_eq_false_iff, decide_eq_false_iff_not] at h
  exact h.1 hlt

theorem refine_max_uncrossed (i : SndInterval) (max : BitVec 32) (openmax integer : Bool)
    (hret : 0 ≤ (snd_interval_refine_max i max openmax integer).1) :
    interval_is_crossed (snd_interval_refine_max i max openmax integer).2 = false := by
  by_cases hempty : i.empty = true
  · simp [snd_interval_refine_max, hempty, ENOENT] at hret
  · rw [snd_interval_refine_max_eq i max openmax integer (by simpa using hempty)] at hret ⊢
    obtain ⟨hsame, hcrossed⟩ := checked_ok _ _ hret
    rw [hsame]
    exact hcrossed

section Orderly

variable {hw : HwRefine} {p : SndPcmHwParams} {n : Fin 12} (horder : Orderly hw p n)

include horder

theorem update_orderly (q q' : SndPcmHwParams) (changed ret : Int) (hsub : SubParams q p)
    (hq : interval_is_crossed (q.intervals n) = false)
    (h : hw_param_update_var hw q (.interval n) changed = (ret, q')) (hret : 0 ≤ ret) :
    ¬ Inverted (q'.intervals n) := by
  have hmarked : SubParams (q.mark (.interval n)) p := ⟨hsub.masks, hsub.intervals⟩
  have hmark : ∀ r, r = (if changed ≠ 0 then q.mark (.interval n) else q) →
      SubParams r p ∧ interval_is_crossed (r.intervals n) = false := by
    rintro r rfl
    split_ifs
    · exact ⟨hmarked, hq⟩
    · exact ⟨hsub, hq⟩
  unfold hw_param_update_var at h
  by_cases hneg : changed < 0
  · rw [if_pos hneg] at h
    have := (Prod.mk.inj h).1
    omega
  rw [if_neg hneg] at h
  obtain ⟨r, hr⟩ : ∃ r, r = if changed ≠ 0 then q.mark (.interval n) else q := ⟨_, rfl⟩
  simp only [← hr, snd_pcm_hw_refine] at h
  split_ifs at h with hrmask herr hempty <;> obtain ⟨rfl, rfl⟩ := Prod.mk.inj h
  · omega
  · exact absurd hret (by simp [ENOENT])
  · exact horder r (hmark r hr).1 (hmark r hr).2 (by omega)
  · exact not_inverted_of_uncrossed _ (hmark r hr).2

theorem saved_orderly {β : Type} (narrowed : Option (Int × SndPcmHwParams)) (save p' : SndPcmHwParams)
    (get : SndPcmHwParams → β) (v v' : β) (ret : Int)
    (hnarrowed : ∀ changed q, narrowed = some (changed, q) → 0 ≤ changed →
      SubParams q p ∧ interval_is_crossed (q.intervals n) = false)
    (h : ((refine_and_update hw (.interval n) narrowed).map fun (err, params) =>
      if err = 0 then ((0 : Int), params, get params) else (err, save, v)) = some (ret, p', v'))
    (hret : 0 ≤ ret) : ¬ Inverted (p'.intervals n) := by
  obtain ⟨⟨err, q'⟩, hupdate, heq⟩ := Option.map_eq_some_iff.mp h
  obtain ⟨⟨changed, q⟩, hq, hupdate⟩ := Option.map_eq_some_iff.mp hupdate
  dsimp only at heq hupdate
  by_cases hchanged : changed < 0
  · rw [hw_param_update_var_error hw q _ changed hchanged] at hupdate
    obtain ⟨rfl, rfl⟩ := Prod.mk.inj hupdate
    rw [if_neg (by omega)] at heq
    obtain ⟨rfl, -⟩ := Prod.mk.inj heq
    omega
  obtain ⟨hsub, hcrossed⟩ := hnarrowed changed q hq (by omega)
  split_ifs at heq with herr
  · simp only [Prod.mk.injEq] at heq
    obtain ⟨-, rfl, -⟩ := heq
    exact update_orderly horder q q' changed err hsub hcrossed hupdate (by omega)
  · obtain ⟨rfl, -⟩ := Prod.mk.inj heq
    have hle := (refine_and_update_nonpos hw (.interval n) narrowed err q' (by rw [hq]; exact congrArg some hupdate))
    omega

theorem set_min_orderly (p' : SndPcmHwParams) (v v' : Val) (ret : Int) (hfits : MinFits p (.interval n) v.val v.dirOr0)
    (h : _snd_pcm_hw_param_set_min hw p (.interval n) v = some (ret, p', v')) (hret : 0 ≤ ret) :
    ¬ Inverted (p'.intervals n) := by
  refine saved_orderly horder _ p p' (_snd_pcm_hw_param_get_min · (.interval n) v) v v' ret
    (fun changed q hq hc => ⟨(hw_param_set_min_spec p q _ _ _ changed hfits hq hc).1, ?_⟩) h hret
  obtain ⟨rfl, rfl⟩ := Prod.mk.inj (Option.some.inj hq)
  rw [intervals_set_interval]
  exact (snd_interval_refine_min_spec _ _ _ _ hfits hc).2.1

theorem set_max_orderly (p' : SndPcmHwParams) (v v' : Val) (ret : Int) (hfits : MaxFits p (.interval n) v.val v.dirOr0)
    (h : _snd_pcm_hw_param_set_max hw p (.interval n) v = some (ret, p', v')) (hret : 0 ≤ ret) :
    ¬ Inverted (p'.intervals n) := by
  refine saved_orderly horder _ p p' (_snd_pcm_hw_param_get_max · (.interval n) v) v v' ret
    (fun changed q hq hc => ⟨(hw_param_set_max_spec p q _ _ _ changed hfits hq hc).1, ?_⟩) h hret
  obtain ⟨rfl, rfl⟩ := Prod.mk.inj (Option.some.inj hq)
  rw [intervals_set_interval]
  exact refine_max_uncrossed _ _ _ _ hc

end Orderly

/-! ### A search that is over early -/

theorem close_min_crossed (i : SndInterval) (hwrap : ¬ (i.integer = true ∧ i.openmin = true ∧ i.min = UINT_MAX))
    (h : interval_is_crossed i = true) : interval_is_crossed (close_min i) = true := by
  unfold close_min
  split_ifs with hclose
  · have hlast : i.min ≠ UINT_MAX := fun hlast => hwrap ⟨hclose.1, hclose.2, hlast⟩
    unfold interval_is_crossed at h ⊢
    unfold UINT_MAX at hlast
    simp only [gt_iff_lt, Bool.or_eq_true, decide_eq_true_eq, Bool.and_eq_true, beq_iff_eq] at h ⊢
    left
    rcases h with h | ⟨h, -⟩ <;> bv_omega
  · exact h

theorem raise_min_crossed (i : SndInterval) (min : BitVec 32) (openmin : Bool) (h : interval_is_crossed i = true) :
    interval_is_crossed (raise_min i min openmin).2 = true := by
  unfold raise_min interval_is_crossed at *
  simp only [gt_iff_lt, Bool.or_eq_true, decide_eq_true_eq, Bool.and_eq_true, beq_iff_eq] at h ⊢
  split_ifs with hlt heq
  · left
    rcases h with h | ⟨h, -⟩
    · exact BitVec.lt_trans h hlt
    · exact h ▸ hlt
  · rcases h with h | ⟨h, -⟩
    · exact .inl h
    · exact .inr ⟨h, .inl rfl⟩
  · exact h

theorem flag_integer_false (r : Bool × SndInterval) : flag_integer r false = r := by
  unfold flag_integer
  rw [if_neg fun h => Bool.false_ne_true h.2]

theorem refine_min_crossed (i : SndInterval) (min : BitVec 32) (openmin : Bool) (hempty : i.empty = false)
    (hwrap : ¬ MinWraps i min openmin false) (h : interval_is_crossed i = true) :
    (snd_interval_refine_min i min openmin false).1 < 0 := by
  have hcrossed := close_min_crossed _ (fun hlast => hwrap ⟨hempty, .inl hlast.1, hlast.2⟩)
    (raise_min_crossed i min openmin h)
  have hneg : (-EINVAL : Int) < 0 := by decide
  rw [snd_interval_refine_min_eq i min openmin false hempty, flag_integer_false, checked_crossed _ _ hcrossed]
  exact hneg

theorem raise_min_from_zero (i : SndInterval) : raise_min i 0#32 false = (false, i) := by
  unfold raise_min
  rw [if_neg (BitVec.not_lt_zero), if_neg fun h => Bool.false_ne_true h.2.2]

/-- Asking for no less than 0 closes the end at most. -/
theorem refine_min_from_zero (i : SndInterval) (hempty : i.empty = false) :
    snd_interval_refine_min i 0#32 false false = checked false (close_min i) := by
  rw [snd_interval_refine_min_eq i _ _ _ hempty, raise_min_from_zero, flag_integer_false]

theorem set_min_fails {hw : HwRefine} {p : SndPcmHwParams} {n : Fin 12} (v v' : Val) (q : SndPcmHwParams) (err : Int)
    (refined : Int × SndInterval)
    (hset : hw_param_set_min p (.interval n) v.val v.dirOr0 = on_interval p n refined) (hneg : refined.1 < 0)
    (h : _snd_pcm_hw_param_set_min hw p (.interval n) v = some (err, q, v')) : err < 0 := by
  unfold _snd_pcm_hw_param_set_min refine_and_update at h
  dsimp only at h
  rw [hset] at h
  unfold on_interval at h
  rw [Option.map_some, Option.map_some] at h
  dsimp only at h
  rw [hw_param_update_var_error hw _ _ _ hneg, if_neg (by omega)] at h
  exact (Prod.mk.inj (Option.some.inj h)).1 ▸ hneg

theorem min_end_zero (dir : Int) (hdir : dir ≤ 0) : min_end 0#32 dir = (0#32, false) := by
  unfold min_end
  rw [if_neg (not_lt.mpr hdir), if_neg fun hneg => absurd hneg.2 (by decide)]

section Early

variable {hw : HwRefine} {p : SndPcmHwParams} {n : Fin 12} (hempty : (p.intervals n).empty = false)

include hempty

theorem hw_param_set_min_zero (dir : Int) (hdir : dir ≤ 0) : hw_param_set_min p (.interval n) 0#32 dir =
    on_interval p n (checked false (close_min (p.intervals n))) := by
  unfold hw_param_set_min
  dsimp only
  rw [min_end_zero dir hdir, refine_min_from_zero _ hempty]

theorem update_closed : hw_param_update_var hw (closed_below p n) (.interval n) 0 =
    if p.rmask ≠ 0#32 ∧ (hw (closed_below p n)).1 ≠ 0 then
      (-((hw (closed_below p n)).1 : Int), (hw (closed_below p n)).2)
    else if ((known hw (closed_below p n)).intervals n).empty then (-ENOENT, known hw (closed_below p n))
    else (0, known hw (closed_below p n)) := by
  have hrmask : (closed_below p n).rmask = p.rmask := rfl
  have hflag : ((closed_below p n).intervals n).empty = false := by
    unfold closed_below close_min
    rw [intervals_set_interval]
    split_ifs <;> exact hempty
  unfold hw_param_update_var snd_pcm_hw_refine snd_pcm_hw_param_empty known
  by_cases hasked : p.rmask = 0#32
  · simp [hrmask, hasked, hflag]
  · by_cases hrefused : (hw (closed_below p n)).1 = 0
    · simp [hrmask, hasked, hrefused]
    · simp [hrmask, hasked, hrefused]

theorem closed_below_narrows (hfits : ¬ MinWraps (p.intervals n) 0#32 false false) :
    SubParams (closed_below p n) p := by
  refine subParams_set_interval p n _ (close_min_spec _ fun hlast => hfits ⟨hempty, ?_⟩).le
  rw [raise_min_from_zero]
  exact ⟨.inl hlast.1, hlast.2⟩

theorem set_min_ordered (dir : Int) (hdir : dir ≤ 0)
    (hordered : interval_is_crossed (close_min (p.intervals n)) = false) (err : Int) (q : SndPcmHwParams)
    (h : hw_param_update_var hw (closed_below p n) (.interval n) 0 = (err, q)) :
    _snd_pcm_hw_param_set_min hw p (.interval n) ⟨0#32, some dir⟩ = some
      (if err = 0 then (0, q, _snd_pcm_hw_param_get_min q (.interval n) ⟨0#32, some dir⟩)
      else (err, p, ⟨0#32, some dir⟩)) := by
  unfold closed_below at h
  unfold _snd_pcm_hw_param_set_min refine_and_update
  dsimp only
  rw [show (⟨0#32, some dir⟩ : Val).dirOr0 = dir from rfl, hw_param_set_min_zero hempty dir hdir,
    checked_not_crossed _ _ hordered]
  unfold on_interval
  rw [Option.map_some]
  dsimp only
  rw [if_neg Bool.false_ne_true, h, Option.map_some]

theorem set_min_taken (dir : Int) (hdir : dir ≤ 0) (htaken : ZeroTaken hw p n) :
    _snd_pcm_hw_param_set_min hw p (.interval n) ⟨0#32, some dir⟩ =
      some (0, known hw (closed_below p n),
        _snd_pcm_hw_param_get_min (known hw (closed_below p n)) (.interval n) ⟨0#32, some dir⟩) := by
  have hupdate : hw_param_update_var hw (closed_below p n) (.interval n) 0 = (0, known hw (closed_below p n)) := by
    rw [update_closed hempty, if_neg fun h => h.2 (htaken.accepted h.1), if_neg (by simp [htaken.left])]
  rw [set_min_ordered hempty dir hdir htaken.ordered _ _ hupdate, if_pos rfl]

theorem set_min_not_taken (dir : Int) (hdir : dir ≤ 0) (hrefused : ¬ ZeroTaken hw p n) (q : SndPcmHwParams)
    (err : Int) (min : Val)
    (h : _snd_pcm_hw_param_set_min hw p (.interval n) ⟨0#32, some dir⟩ = some (err, q, min)) : err < 0 := by
  cases hordered : interval_is_crossed (close_min (p.intervals n)) with
  | true =>
    have hset := hw_param_set_min_zero hempty dir hdir
    have hneg : (-EINVAL : Int) < 0 := by decide
    rw [checked_crossed _ _ hordered] at hset
    exact set_min_fails ⟨0#32, some dir⟩ min q err _ hset hneg h
  | false =>
    obtain ⟨⟨err', q'⟩, hupdate⟩ : ∃ r, hw_param_update_var hw (closed_below p n) (.interval n) 0 = r := ⟨_, rfl⟩
    have heq := Option.some.inj ((set_min_ordered hempty dir hdir hordered err' q' hupdate).symm.trans h)
    have herr : err' < 0 → err < 0 := by
      intro hneg
      rw [if_neg (by omega)] at heq
      exact (Prod.mk.inj heq).1 ▸ hneg
    have hnone : (-ENOENT : Int) < 0 := by decide
    rw [update_closed hempty] at hupdate
    split_ifs at hupdate with hkernel hleft
    · have herrno := (Prod.mk.inj hupdate).1
      exact herr (by omega)
    · exact herr ((Prod.mk.inj hupdate).1 ▸ hnone)
    · refine absurd ⟨hordered, fun hasked => ?_, by simpa using hleft⟩ hrefused
      exact not_not.mp fun hrefuses => hkernel ⟨hasked, hrefuses⟩

end Early

/-- The parameters that the search leaves. -/
def NearChoice.Leaves (p : SndPcmHwParams) (n : Fin 12) : NearChoice → Prop
  | .done ret q _ => 0 ≤ ret → SubParams q p
  | .finish _ q => SubParams q p ∧ ¬ Inverted (q.intervals n)

section Over

variable {hw : HwRefine} {p : SndPcmHwParams} {n : Fin 12} {v : Val}

theorem near_choose_single (q : SndPcmHwParams) (err : Int) (min : Val)
    (hset : _snd_pcm_hw_param_set_min hw p (.interval n) ⟨near_best v.val, some v.dirOr0⟩ = some (err, q, min))
    (hempty : (q.intervals n).empty = false) (hsingle : interval_is_single (q.intervals n) = true) :
    near_choose hw p n v = some (.done 0 q (_snd_pcm_hw_param_get_min q (.interval n) v)) := by
  unfold near_choose
  dsimp only
  rw [hset, Option.bind_some]
  exact if_pos ⟨by simp [hempty], hsingle⟩

/-- If `set_min` fails on a single value, the search returns it. -/
theorem near_choose_refused (hempty : (p.intervals n).empty = false)
    (hsingle : interval_is_single (p.intervals n) = true)
    (hrefused : ∀ q err min,
      _snd_pcm_hw_param_set_min hw p (.interval n) ⟨near_best v.val, some v.dirOr0⟩ = some (err, q, min) → err < 0)
    (choice : NearChoice) (h : near_choose hw p n v = some choice) : choice.Leaves p n := by
  obtain ⟨err, q, min, hset, -⟩ := near_choose_cases hw p n v choice h
  obtain rfl := set_min_restores hw p q _ _ _ err hset (hrefused q err min hset)
  rw [near_choose_single q err min hset hempty hsingle] at h
  exact Option.some.inj h ▸ fun _ => SubParams.refl q

theorem near_choose_first (q : SndPcmHwParams) (min : Val)
    (hset : _snd_pcm_hw_param_set_min hw p (.interval n) ⟨near_best v.val, some v.dirOr0⟩ = some (0, q, min))
    (hmin : min.val = near_best v.val) (hdir : min.dirOr0 = v.dirOr0)
    (hsingle : ¬ interval_is_single (q.intervals n) = true) :
    near_choose hw p n v = some (.finish false q) := by
  unfold near_choose
  dsimp only
  rw [hset, Option.bind_some]
  dsimp only
  rw [if_neg fun hboth => hsingle hboth.2, if_pos (le_refl _), if_pos ⟨hmin, hdir⟩]

theorem known_narrows (hhw : Narrowing hw) (hsub : SubParams (closed_below p n) p) (htaken : ZeroTaken hw p n) :
    SubParams (known hw (closed_below p n)) p := by
  unfold known
  by_cases hrmask : (closed_below p n).rmask = 0#32
  · rw [if_pos hrmask]
    exact hsub
  · rw [if_neg hrmask]
    exact (hhw _ (htaken.accepted hrmask)).trans hsub

theorem known_ordered (horder : Orderly hw p n) (hsub : SubParams (closed_below p n) p)
    (htaken : ZeroTaken hw p n) : ¬ Inverted ((known hw (closed_below p n)).intervals n) := by
  have hordered : interval_is_crossed ((closed_below p n).intervals n) = false := by
    unfold closed_below
    rw [intervals_set_interval]
    exact htaken.ordered
  unfold known
  by_cases hrmask : (closed_below p n).rmask = 0#32
  · rw [if_pos hrmask]
    exact not_inverted_of_uncrossed _ hordered
  · rw [if_neg hrmask]
    exact horder _ hsub hordered (htaken.accepted hrmask)

theorem near_best_zero (hval : v.val = 0#32) : near_best v.val = 0#32 := by
  rw [hval]
  rfl

theorem over_narrows (hhw : Narrowing hw) (horder : Orderly hw p n) (hempty : (p.intervals n).empty = false)
    (hmin : MinFits p (.interval n) (near_best v.val) v.dirOr0) (hover : SearchOver hw p n v)
    (choice : NearChoice) (h : near_choose hw p n v = some choice) : choice.Leaves p n := by
  have hsub : v.val = 0#32 → v.dirOr0 ≤ 0 → SubParams (closed_below p n) p := by
    intro hval hdir
    unfold MinFits at hmin
    rw [near_best_zero hval, min_end_zero v.dirOr0 hdir] at hmin
    exact closed_below_narrows hempty hmin
  cases hover with
  | crossed hcrossed hsingle =>
    refine near_choose_refused hempty hsingle (fun q err min hset => ?_) choice h
    exact set_min_fails ⟨near_best v.val, some v.dirOr0⟩ min q err _ rfl
      (refine_min_crossed _ _ _ hempty hmin hcrossed) hset
  | refused hval hdir hrefused hsingle =>
    refine near_choose_refused hempty hsingle (fun q err min hset => ?_) choice h
    rw [near_best_zero hval] at hset
    exact set_min_not_taken hempty v.dirOr0 hdir hrefused q err min hset
  | single hval hdir htaken hsingle =>
    have hset := set_min_taken hempty v.dirOr0 hdir htaken
    rw [← near_best_zero hval] at hset
    rw [near_choose_single _ _ _ hset htaken.left hsingle] at h
    exact Option.some.inj h ▸ fun _ => known_narrows hhw (hsub hval hdir) htaken
  | first hval hdir htaken hzero hclosed =>
    have hset := set_min_taken hempty v.dirOr0 hdir.le htaken
    rw [← near_best_zero hval] at hset
    have hknown := known_narrows hhw (hsub hval hdir.le) htaken
    by_cases hsingle : interval_is_single ((known hw (closed_below p n)).intervals n) = true
    · rw [near_choose_single _ _ _ hset htaken.left hsingle] at h
      exact Option.some.inj h ▸ fun _ => hknown
    · have hread : (_snd_pcm_hw_param_get_min (known hw (closed_below p n)) (.interval n)
          ⟨near_best v.val, some v.dirOr0⟩).dirOr0 = v.dirOr0 := by
        unfold _snd_pcm_hw_param_get_min
        dsimp only
        rw [hclosed, hdir]
        rfl
      rw [near_choose_first _ _ hset (hzero.trans (near_best_zero hval).symm) hread hsingle] at h
      exact Option.some.inj h ▸ ⟨hknown, known_ordered horder (hsub hval hdir.le) htaken⟩

end Over

/-! ### The search -/

theorem near_choose_narrows (hw : HwRefine) (hhw : Narrowing hw) (p : SndPcmHwParams) (n : Fin 12)
    (v : Val) (choice : NearChoice) (hfits : NearFits hw p n v)
    (h : near_choose hw p n v = some choice) : choice.Leaves p n := by
  obtain ⟨hmin, hmax, horder⟩ := hfits
  by_cases hmax' : MaxFits p (.interval n) (near_max (near_best v.val) v.dirOr0).val
      (near_max (near_best v.val) v.dirOr0).dirOr0
  · obtain ⟨err, q, min, hset, hchoice⟩ := near_choose_cases hw p n v choice h
    have hq : SubParams q p := by
      by_cases herr : err < 0
      · rw [set_min_restores hw p q _ _ _ err hset herr]
        exact SubParams.refl p
      · exact (set_min_narrows hw hhw p q _ err _ _ hmin hset (by omega)).1
    rcases hchoice with ⟨-, rfl⟩ | ⟨herr, rfl⟩ | ⟨err2, q2, max, hset2, ⟨herr2, rfl⟩ | ⟨herr2, rfl⟩⟩
    · exact fun _ => hq
    · exact ⟨hq, set_min_orderly horder q ⟨near_best v.val, some v.dirOr0⟩ min err hmin hset herr⟩
    · exact fun hret => absurd herr2 (not_lt.mpr hret)
    · exact ⟨(set_max_narrows hw hhw p q2 _ err2 _ _ hmax' hset2 (not_lt.mp herr2)).1,
        set_max_orderly horder q2 _ max err2 hmax' hset2 (not_lt.mp herr2)⟩
  · -- The end of `set_max` would wrap, but the search is over in front of it.
    have hempty : (p.intervals n).empty = false := (not_not.mp hmax').1
    exact over_narrows hhw horder hempty hmin (hmax.resolve_left hmax') choice h

theorem set_near_narrows (hw : HwRefine) (hhw : Narrowing hw) (p p' : SndPcmHwParams) (n : Fin 12)
    (v v' : Val) (ret : Int) (hfits : NearFits hw p n v)
    (h : _snd_pcm_hw_param_set_near hw p (.interval n) v = some (ret, p', v')) (hret : 0 ≤ ret) :
    SubParams p' p := by
  obtain ⟨choice, hchoose, h⟩ := Option.bind_eq_some_iff.mp h
  have hleaves := near_choose_narrows hw hhw p n v choice hfits hchoose
  match choice with
  | .done ret' q v'' =>
    simp only [Option.some.injEq, Prod.mk.injEq] at h
    obtain ⟨rfl, rfl, -⟩ := h
    exact hleaves hret
  | .finish true q => exact (set_last_narrows hw hhw q p' (.interval n) ret v v' hleaves.2 h hret).trans hleaves.1
  | .finish false q => exact (set_first_narrows hw hhw q p' (.interval n) ret v v' hleaves.2 h hret).trans hleaves.1

/-! ## Sequences of calls -/

inductive Request where
  | set (var : Var) (val : BitVec 32) (dir : Int)
  | set_min (var : Var) (v : Val)
  | set_max (var : Var) (v : Val)
  | set_minmax (var : Var) (min max : Val)
  | set_first (var : Var) (v : Val)
  | set_last (var : Var) (v : Val)
  | set_integer (var : Var)
  | set_near (var : Var) (v : Val)

structure Request.At where
  hw : HwRefine
  request : Request

def perform (hw : HwRefine) (p : SndPcmHwParams) : Request → Option (Int × SndPcmHwParams)
  | .set var val dir => _snd_pcm_hw_param_set hw p var val dir
  | .set_min var v => (_snd_pcm_hw_param_set_min hw p var v).map fun r => (r.1, r.2.1)
  | .set_max var v => (_snd_pcm_hw_param_set_max hw p var v).map fun r => (r.1, r.2.1)
  | .set_minmax var min max =>
    (_snd_pcm_hw_param_set_minmax hw p var min max).map fun r => (r.1, r.2.1)
  | .set_first var v => (_snd_pcm_hw_param_set_first hw p var v).map fun r => (r.1, r.2.1)
  | .set_last var v => (_snd_pcm_hw_param_set_last hw p var v).map fun r => (r.1, r.2.1)
  | .set_integer var => _snd_pcm_hw_param_set_integer hw p var
  | .set_near var v => (_snd_pcm_hw_param_set_near hw p var v).map fun r => (r.1, r.2.1)

/-- The parameters go from call to call, whatever a call returns. -/
def step (p : SndPcmHwParams) (c : Request.At) : Option SndPcmHwParams :=
  (perform c.hw p c.request).map fun r => r.2

def Request.var : Request → Var
  | .set var _ _ => var
  | .set_min var _ => var
  | .set_max var _ => var
  | .set_minmax var _ _ => var
  | .set_first var _ => var
  | .set_last var _ => var
  | .set_integer var => var
  | .set_near var _ => var

def Request.bound : Request → Set ℚ
  | .set _ val dir => set_bound val dir
  | .set_min _ v => min_bound v.val v.dirOr0
  | .set_max _ v => max_bound v.val v.dirOr0
  | .set_minmax _ min max => min_bound min.val min.dirOr0 ∩ max_bound max.val max.dirOr0
  | _ => Set.univ

/-- A call that succeeds leaves a part of the parameters, within what it asked for. -/
def Narrows (p : SndPcmHwParams) (c : Request.At) : Prop :=
  ∀ ret p', perform c.hw p c.request = some (ret, p') → 0 ≤ ret →
    Narrowed c.request.bound p c.request.var p'

/-- No end wraps in the call, and where it takes the first or the last value the ends have
not crossed. -/
def Fits (p : SndPcmHwParams) (c : Request.At) : Prop :=
  match c.request with
  | .set var val dir => SetFits p var val dir
  | .set_min var v => MinFits p var v.val v.dirOr0
  | .set_max var v => MaxFits p var v.val v.dirOr0
  | .set_minmax var min max => MinFits p var min.val min.dirOr0 ∧
    (MinMet p var min.val min.dirOr0 → MaxFits p var max.val max.dirOr0)
  | .set_first var _ => OrderFits p var
  | .set_last var _ => OrderFits p var
  | .set_integer _ => True
  | .set_near (.interval n) v => NearFits c.hw p n v
  | .set_near (.mask _) _ => True

theorem within_univ (p : SndPcmHwParams) (var : Var) : Within Set.univ p var := by
  cases var with
  | mask m => trivial
  | interval n => exact Set.subset_univ _

theorem narrows_of_fits (p : SndPcmHwParams) (c : Request.At) (hhw : Narrowing c.hw) (hfits : Fits p c) :
    Narrows p c := by
  obtain ⟨hw, request⟩ := c
  intro ret p' h hret
  cases request with
  | set var val dir => exact set_narrows hw hhw p p' var ret val dir hfits h hret
  | set_min var v =>
    obtain ⟨⟨_, _, v'⟩, hr, heq⟩ := Option.map_eq_some_iff.mp h
    obtain ⟨rfl, rfl⟩ := Prod.mk.inj heq
    exact set_min_narrows hw hhw p _ var _ v v' hfits hr hret
  | set_max var v =>
    obtain ⟨⟨_, _, v'⟩, hr, heq⟩ := Option.map_eq_some_iff.mp h
    obtain ⟨rfl, rfl⟩ := Prod.mk.inj heq
    exact set_max_narrows hw hhw p _ var _ v v' hfits hr hret
  | set_minmax var min max =>
    obtain ⟨⟨_, _, out⟩, hr, heq⟩ := Option.map_eq_some_iff.mp h
    obtain ⟨rfl, rfl⟩ := Prod.mk.inj heq
    exact set_minmax_narrows hw hhw p _ var _ min max out hfits.1 hfits.2 hr hret
  | set_first var v =>
    obtain ⟨⟨_, _, v'⟩, hr, heq⟩ := Option.map_eq_some_iff.mp h
    obtain ⟨rfl, rfl⟩ := Prod.mk.inj heq
    exact ⟨set_first_narrows hw hhw p _ var _ v v' hfits hr hret, within_univ _ _⟩
  | set_last var v =>
    obtain ⟨⟨_, _, v'⟩, hr, heq⟩ := Option.map_eq_some_iff.mp h
    obtain ⟨rfl, rfl⟩ := Prod.mk.inj heq
    exact ⟨set_last_narrows hw hhw p _ var _ v v' hfits hr hret, within_univ _ _⟩
  | set_integer var => exact ⟨set_integer_narrows hw hhw p p' var ret h hret, within_univ _ _⟩
  | set_near var v =>
    obtain ⟨⟨_, _, v'⟩, hr, heq⟩ := Option.map_eq_some_iff.mp h
    obtain ⟨rfl, rfl⟩ := Prod.mk.inj heq
    cases var with
    | mask m => cases hr
    | interval n => exact ⟨set_near_narrows hw hhw p _ n v v' _ hfits hr hret, within_univ _ _⟩

/-- In a sequence of calls that all fit, every call that succeeds narrows. -/
theorem calls_narrow (p : SndPcmHwParams) (calls : List Request.At)
    (hhw : ∀ c ∈ calls, Narrowing c.hw) (hfits : AllSteps step Fits p calls) :
    AllSteps step Narrows p calls :=
  allSteps_mono Fits Narrows p calls (fun q c hc => narrows_of_fits q c (hhw c hc)) hfits

def accept : HwRefine := fun p => (0, p)

theorem accept_narrowing : Narrowing accept := fun p _ => SubParams.refl p

def PERIODS : Fin 12 := ⟨7, by decide⟩

/-- All parameters full, but the periods an integer from 0 to 100. -/
def periods_to_100 : SndPcmHwParams :=
  any_params.set_interval PERIODS ⟨0#32, 100#32, false, false, true, false⟩

theorem accept_orderly (p : SndPcmHwParams) (n : Fin 12) : Orderly accept p n :=
  fun _ _ hcrossed _ => not_inverted_of_uncrossed _ hcrossed

def ask_periods : List Request.At :=
  [⟨accept, .set_max (.interval PERIODS) ⟨50#32, some 0⟩⟩, ⟨accept, .set_near (.interval PERIODS) ⟨25#32, none⟩⟩]

theorem calls_narrow_periods : AllSteps step Narrows periods_to_100 ask_periods := by
  apply calls_narrow periods_to_100 ask_periods
  · intro c hc
    rcases List.mem_cons.mp hc with rfl | hc
    · exact accept_narrowing
    · rw [List.mem_singleton.mp hc]
      exact accept_narrowing
  · refine ⟨fun hwraps => absurd hwraps.2.2.1 (by decide), fun q hq => ⟨?_, fun _ _ => trivial⟩⟩
    have hleft : (step periods_to_100 ⟨accept, .set_max (.interval PERIODS) ⟨50#32, some 0⟩⟩).map
        (·.intervals PERIODS) = some ⟨0#32, 50#32, false, false, true, false⟩ := by decide
    rw [hq, Option.map_some] at hleft
    have hperiods := Option.some.inj hleft
    refine ⟨fun hwraps => ?_, .inl fun hwraps => ?_, accept_orderly q PERIODS⟩
    · rw [hperiods] at hwraps
      exact absurd hwraps.2.2.1 (by decide)
    · rw [hperiods] at hwraps
      exact absurd hwraps.2.2.2 (by decide)

/-- Asking for less than 0 periods leaves all the numbers of 32 bits. -/
theorem below_zero_widens : ¬ ∀ (p : SndPcmHwParams) (calls : List Request.At),
    (∀ c ∈ calls, Narrowing c.hw) → AllSteps step Narrows p calls := by
  intro hall
  have h := hall periods_to_100 [⟨accept, .set_max (.interval PERIODS) ⟨0#32, some (-1)⟩⟩] (fun c hc => by
    obtain rfl := List.mem_singleton.mp hc
    exact accept_narrowing)
  have heval : (perform accept periods_to_100 (.set_max (.interval PERIODS) ⟨0#32, some (-1)⟩)).map
      (fun r => (r.1, r.2.intervals PERIODS)) = some (0, ⟨0#32, UINT_MAX, false, false, true, false⟩) := by decide
  obtain ⟨⟨ret, q⟩, hq, heq⟩ := Option.map_eq_some_iff.mp heval
  obtain ⟨rfl, hi⟩ := Prod.mk.inj heq
  have hbound := (h.1 0 q hq (Int.le_refl _)).2
  have hzero : (0 : ℚ) ∈ denote (q.intervals PERIODS) := by
    rw [hi]
    exact ⟨by simp [num], num_nonneg _, fun _ => ⟨0, by simp⟩⟩
  have hlt : (0 : ℚ) < num 0#32 := hbound hzero
  simp [num] at hlt

end Salsa.HwParams
