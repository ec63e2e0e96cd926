import Salsa.HwParams.Single

/-!
# What requests leave

A request that succeeds leaves a part of the parameters, with none of them empty, in which its parameter has the
values that were asked for. Where the call tells a value, it is the only one that is left.
-/

namespace Salsa.HwParams

open Ends Run

/-! ## Intervals with something in them -/

structure Clean (i : SndInterval) : Prop where
  unflagged : i.empty = false
  normal : Normal i
  uncrossed : interval_is_crossed i = false

theorem Proper.clean {p : SndPcmHwParams} (hp : Proper p) (n : Fin 12) : Clean (p.intervals n) :=
  ⟨hp.unflagged n, hp.normal n, hp.uncrossed n⟩

section Refine

variable {i : SndInterval} (hi : Clean i)

include hi

theorem refine_min_clean (min : BitVec 32) (openmin : Bool) (hend : ¬ (openmin = true ∧ min = UINT_MAX))
    (hret : 0 ≤ (snd_interval_refine_min i min openmin false).1) :
    Clean (snd_interval_refine_min i min openmin false).2 := by
  have hwrap := not_minWraps_of_end i min openmin false (fun _ => hi.uncrossed) hend
  obtain ⟨-, hcrossed, -, hopenmax, hinteger⟩ := snd_interval_refine_min_spec i min openmin false hwrap hret
  obtain ⟨hempty, hopenmin⟩ := refine_min_left i min openmin false hi.unflagged hret
  refine ⟨hempty, fun hint => ⟨hopenmin hint, ?_⟩, hcrossed⟩
  rw [hinteger, Bool.or_false] at hint
  rw [hopenmax]
  exact (hi.normal hint).2

theorem refine_max_clean (max : BitVec 32) (openmax : Bool)
    (hret : 0 ≤ (snd_interval_refine_max i max openmax false).1) :
    Clean (snd_interval_refine_max i max openmax false).2 := by
  have hclosed : i.integer || false → i.openmin = false := by
    rw [Bool.or_false]
    exact fun hint => (hi.normal hint).1
  obtain ⟨hempty, hnormal, hcrossed⟩ := refine_max_left i max openmax false hi.unflagged hclosed hret
  exact ⟨hempty, hnormal, hcrossed⟩

theorem refine_clean (v : SndInterval) (hend : ¬ (v.openmin = true ∧ v.min = UINT_MAX))
    (hret : 0 ≤ (snd_interval_refine i v).1) : Clean (snd_interval_refine i v).2 := by
  have hwrap := not_minWraps_of_end i v.min v.openmin v.integer (fun _ => hi.uncrossed) hend
  have hspec1 := snd_interval_refine_min_spec i v.min v.openmin v.integer hwrap
  have hleft1 := refine_min_left i v.min v.openmin v.integer hi.unflagged
  obtain ⟨⟨err, i1⟩, h1⟩ : ∃ r, snd_interval_refine_min i v.min v.openmin v.integer = r := ⟨_, rfl⟩
  have hleft2 := refine_max_left i1 v.max v.openmax v.integer
  obtain ⟨⟨err2, i2⟩, h2⟩ : ∃ r, snd_interval_refine_max i1 v.max v.openmax v.integer = r := ⟨_, rfl⟩
  rw [h1] at hspec1 hleft1
  rw [h2] at hleft2
  dsimp only at hspec1 hleft1 hleft2
  simp only [snd_interval_refine, h1, h2] at hret ⊢
  by_cases herr : err < 0
  · rw [if_pos herr] at hret
    exact absurd hret (Int.not_le.mpr herr)
  by_cases herr2 : err2 < 0
  · rw [if_neg herr, if_pos herr2] at hret
    exact absurd hret (Int.not_le.mpr herr2)
  rw [if_neg herr, if_neg herr2]
  obtain ⟨-, -, -, -, hinteger⟩ := hspec1 (Int.not_lt.mp herr)
  obtain ⟨hempty1, hopenmin1⟩ := hleft1 (Int.not_lt.mp herr)
  -- Whether the request is for integers is known of `i1` already.
  have hclosed : i1.integer || v.integer → i1.openmin = false := by
    rw [hinteger, Bool.or_assoc, Bool.or_self, ← hinteger]
    exact hopenmin1
  obtain ⟨hempty2, hnormal2, hcrossed2⟩ := hleft2 hempty1 hclosed (Int.not_lt.mp herr2)
  split_ifs with hpoint
  · exact ⟨hempty2, fun _ => ⟨by simpa using hpoint.2.1, by simpa using hpoint.2.2.1⟩, hcrossed2⟩
  · exact ⟨hempty2, hnormal2, hcrossed2⟩

end Refine

/-! ## What is left of a parameter -/

/-- The whole parts of the numbers of `bound`. -/
def whole_parts (bound : Set ℚ) : Set ℕ := {u | ∃ x ∈ bound, (u : ℚ) ≤ x ∧ x < u + 1}

/-- `new` is a part of `old` with nothing empty, and `var` has values of `asked` only. -/
structure Left (old : SndPcmHwParams) (var : Var) (asked : Set ℕ) (new : SndPcmHwParams) : Prop where
  proper : Proper new
  part : SubParams new old
  values : values new var ⊆ asked

section Left

variable {p q r : SndPcmHwParams} {var : Var} {asked asked' : Set ℕ}

theorem Left.of_sub (h : Left p var asked q) (hproper : Proper r) (hsub : SubParams r q) : Left p var asked r :=
  ⟨hproper, hsub.trans h.part, (values_mono q r var hsub).trans h.values⟩

theorem Left.trans (h : Left p var asked q) (h' : Left q var asked' r) : Left p var (asked ∩ asked') r :=
  ⟨h'.proper, h'.part.trans h.part, Set.subset_inter ((values_mono q r var h'.part).trans h.values) h'.values⟩

theorem left_of_narrowed {bound : Set ℚ} {n : Fin 12} (hproper : Proper q)
    (h : Narrowed bound p (.interval n) q) : Left p (.interval n) (whole_parts bound) q := by
  refine ⟨hproper, h.1, ?_⟩
  rintro u ⟨x, hx, hu⟩
  exact ⟨x, h.2 hx, hu⟩

theorem proper_on_interval {n : Fin 12} {i : Int × SndInterval} {changed : Int} (hp : Proper p)
    (hclean : 0 ≤ i.1 → Clean i.2) (h : on_interval p n i = some (changed, q)) (hret : 0 ≤ changed) : Proper q := by
  obtain ⟨rfl, rfl⟩ := Prod.mk.inj (Option.some.inj h)
  have hi := hclean hret
  exact proper_set_interval p n i.2 hp hi.unflagged hi.normal hi.uncrossed

/-- A mask that was not found empty has something in it. -/
theorem left_on_mask {m : Fin 3} {refined : Option (Int × SndMask)} {s : Set ℕ} {changed : Int} (hp : Proper p)
    (hr : RefinesTo (p.masks m) refined s) (hs : s ⊆ mask_values (p.masks m) ∩ asked)
    (h : on_mask p m refined = some (changed, q)) (hret : 0 ≤ changed) : Left p (.mask m) asked q := by
  obtain ⟨ret, mask, rfl, hvalues, -, hnone, -⟩ := hr
  obtain ⟨rfl, rfl⟩ := Prod.mk.inj (Option.some.inj h)
  have hfull := (nonempty_of_not_empty (p.masks m) (by simp [hp.masks m])).ne_empty
  have hne : s ≠ ∅ := by
    intro hs
    rw [hnone.mpr ⟨hfull, hs⟩] at hret
    exact absurd hret (by decide)
  have hempty : mask_is_empty mask = false := by
    rw [← Bool.not_eq_true, mask_is_empty_iff, hvalues]
    exact hne
  refine ⟨proper_set_mask p m mask hp hempty, subParams_set_mask p m mask ?_, ?_⟩
  · exact hvalues ▸ hs.trans Set.inter_subset_left
  · change mask_values ((p.set_mask m mask).masks m) ⊆ asked
    rw [masks_set_mask, hvalues]
    exact hs.trans Set.inter_subset_right

end Left

/-! ## What is asked for -/

/-- The value that `hw_param_set` asks a mask for. -/
def set_index (val : BitVec 32) (dir : Int) : BitVec 32 :=
  if dir > 0 then val + 1#32 else if dir < 0 then val - 1#32 else val

def min_asked : Var → BitVec 32 → Int → Set ℕ
  | .mask _, val, _ => {u | val.toNat ≤ u}
  | .interval _, val, dir => whole_parts (min_bound val dir)

def max_asked : Var → BitVec 32 → Int → Set ℕ
  | .mask _, val, _ => {u | u ≤ val.toNat}
  | .interval _, val, dir => whole_parts (max_bound val dir)

def set_asked : Var → BitVec 32 → Int → Set ℕ
  | .mask _, val, dir => {(set_index val dir).toNat}
  | .interval _, val, dir => whole_parts (set_bound val dir)

/-- A mask has the value; above the last number of an interval nothing is asked for. -/
def MinInRange : Var → BitVec 32 → Int → Prop
  | .mask _, val, _ => val.toNat < SND_MASK_MAX
  | .interval _, val, dir => ¬ (0 < dir ∧ val = UINT_MAX)

/-- Nor is below 0. -/
def MaxInRange : Var → BitVec 32 → Int → Prop
  | .mask _, val, _ => val.toNat < SND_MASK_MAX
  | .interval _, val, dir => ¬ (0 < dir ∧ val = UINT_MAX) ∧ ¬ (dir < 0 ∧ val = 0#32)

def SetInRange : Var → BitVec 32 → Int → Prop
  | .mask _, val, dir => (set_index val dir).toNat < SND_MASK_MAX
  | .interval _, val, dir => ¬ (0 < dir ∧ val = UINT_MAX)

/-! ## Refining one parameter -/

section One

variable {p q : SndPcmHwParams} {var : Var} {changed : Int} (hp : Proper p)

include hp

theorem hw_param_set_min_left (val : BitVec 32) (dir : Int) (hrange : MinInRange var val dir)
    (h : hw_param_set_min p var val dir = some (changed, q)) (hret : 0 ≤ changed) :
    Left p var (min_asked var val dir) q := by
  cases var with
  | mask m => exact left_on_mask hp (snd_mask_refine_min_sets _ _ hrange) (fun v hv => hv) h hret
  | interval n =>
    have hinside := min_end_inside val dir hrange
    have hfits : MinFits p (.interval n) val dir :=
      not_minWraps_of_end _ _ _ _ (fun _ => hp.uncrossed n) hinside
    apply left_of_narrowed
    · exact proper_on_interval hp (refine_min_clean (hp.clean n) _ _ hinside) h hret
    · exact hw_param_set_min_spec p q (.interval n) val dir changed hfits h hret

theorem maxFits_of_inRange (val : BitVec 32) (dir : Int) (hrange : MaxInRange var val dir) :
    MaxFits p var val dir := by
  cases var with
  | mask m => trivial
  | interval n => exact not_maxWraps _ _ _ _ (hp.uncrossed n) (max_end_inside val dir hrange.1 hrange.2)

theorem hw_param_set_max_left (val : BitVec 32) (dir : Int) (hrange : MaxInRange var val dir)
    (h : hw_param_set_max p var val dir = some (changed, q)) (hret : 0 ≤ changed) :
    Left p var (max_asked var val dir) q := by
  have hfits := maxFits_of_inRange hp val dir hrange
  cases var with
  | mask m => exact left_on_mask hp (snd_mask_refine_max_sets _ _ hrange) (fun v hv => hv) h hret
  | interval n =>
    apply left_of_narrowed
    · exact proper_on_interval hp (refine_max_clean (hp.clean n) _ _) h hret
    · exact hw_param_set_max_spec p q (.interval n) val dir changed hfits h hret

theorem hw_param_set_minmax_left (min : BitVec 32) (mindir : Int) (max : BitVec 32) (maxdir : Int)
    (hmin : MinInRange var min mindir) (hmax : MaxInRange var max maxdir)
    (h : hw_param_set_minmax p var min mindir max maxdir = some (changed, q)) (hret : 0 ≤ changed) :
    Left p var (min_asked var min mindir ∩ max_asked var max maxdir) q := by
  obtain ⟨⟨c1, q1⟩, h1, h⟩ := Option.bind_eq_some_iff.mp h
  dsimp only at h
  by_cases hc1 : c1 < 0
  · rw [if_pos hc1] at h
    obtain ⟨rfl, -⟩ := Prod.mk.inj (Option.some.inj h)
    exact absurd hret (Int.not_le.mpr hc1)
  · rw [if_neg hc1] at h
    have hleft1 := hw_param_set_min_left hp min mindir hmin h1 (Int.not_lt.mp hc1)
    obtain ⟨⟨c2, q2⟩, h2, h⟩ := Option.map_eq_some_iff.mp h
    dsimp only at h
    by_cases hc2 : c2 < 0
    · rw [if_pos hc2] at h
      obtain ⟨rfl, -⟩ := Prod.mk.inj h
      exact absurd hret (Int.not_le.mpr hc2)
    · rw [if_neg hc2] at h
      obtain ⟨-, rfl⟩ := Prod.mk.inj h
      exact hleft1.trans (hw_param_set_max_left hleft1.proper max maxdir hmax h2 (Int.not_lt.mp hc2))

theorem hw_param_set_left (val : BitVec 32) (dir : Int) (hrange : SetInRange var val dir)
    (h : hw_param_set p var val dir = some (changed, q)) (hret : 0 ≤ changed) :
    Left p var (set_asked var val dir) q := by
  have hzero : ¬ (val = 0#32 ∧ dir < 0) := by
    intro hlow
    cases var with
    | mask m =>
      simp only [hw_param_set, if_pos hlow] at h
      obtain ⟨rfl, -⟩ := Prod.mk.inj (Option.some.inj h)
      exact absurd hret (by decide)
    | interval n =>
      simp only [hw_param_set, if_pos hlow] at h
      obtain ⟨rfl, -⟩ := Prod.mk.inj (Option.some.inj h)
      exact absurd hret (by decide)
  cases var with
  | mask m =>
    simp only [hw_param_set, if_neg hzero] at h
    exact left_on_mask hp (snd_mask_refine_set_sets _ _ hrange) (fun v hv => hv) h hret
  | interval n =>
    have hinside := asked_inside val dir hrange hzero
    have hfits : SetFits p (.interval n) val dir :=
      fun _ => not_minWraps_of_end _ _ _ _ (fun _ => hp.uncrossed n) hinside
    apply left_of_narrowed
    · have hasked : on_interval p n (snd_interval_refine (p.intervals n) (asked val dir)) = some (changed, q) := by
        simp only [hw_param_set, if_neg hzero] at h
        unfold asked
        split_ifs at h ⊢
        · exact h
        · exact h
      exact proper_on_interval hp (refine_clean (hp.clean n) _ hinside) hasked hret
    · exact hw_param_set_spec p q (.interval n) val dir changed hfits h hret

end One

/-! ## The setters -/

section Setters

variable {hw : HwRefine} (hhw : Sound hw) {p p' : SndPcmHwParams} {var : Var} {asked : Set ℕ} {ret : Int}

include hhw

/-- What is left before the kernel is asked is left behind it. -/
theorem update_left (refined : Option (Int × SndPcmHwParams))
    (hrefined : ∀ changed q, refined = some (changed, q) → 0 ≤ changed → Left p var asked q)
    (h : refine_and_update hw var refined = some (ret, p')) (hret : 0 ≤ ret) : ret = 0 ∧ Left p var asked p' := by
  obtain ⟨⟨changed, q⟩, hq, hupdate⟩ := Option.map_eq_some_iff.mp h
  dsimp only at hupdate
  by_cases hchanged : changed < 0
  · rw [hw_param_update_var, if_pos hchanged] at hupdate
    obtain ⟨rfl, -⟩ := Prod.mk.inj hupdate
    exact absurd hret (Int.not_le.mpr hchanged)
  · have hleft := hrefined changed q hq (Int.not_lt.mp hchanged)
    obtain ⟨marked, hmarked, ⟨q', haccepted, hok⟩ | ⟨hneg, hrefused⟩⟩ :=
      update_outcome hw hhw q var changed hleft.proper (Int.not_lt.mp hchanged)
    · rw [hok] at hupdate
      obtain ⟨rfl, rfl⟩ := Prod.mk.inj hupdate
      have hmark : Left p var asked marked := by
        rw [hmarked]
        split_ifs
        · exact hleft.of_sub (mark_proper q var hleft.proper) ⟨fun _ _ h => h, fun _ _ h => h⟩
        · exact hleft
      obtain ⟨hsub, hproper⟩ := haccepted.sub hhw hmark.proper
      exact ⟨rfl, hmark.of_sub hproper hsub⟩
    · rw [hrefused] at hupdate
      obtain ⟨rfl, -⟩ := Prod.mk.inj hupdate
      omega

omit hhw in
theorem saved_left {β : Type} (refined : Option (Int × SndPcmHwParams)) (get : SndPcmHwParams → β) (v v' : β)
    (hrefined : ∀ err q, refined = some (err, q) → 0 ≤ err → err = 0 ∧ Left p var asked q)
    (h : (refined.map fun r => if r.1 = 0 then ((0 : Int), r.2, get r.2) else (r.1, p, v)) = some (ret, p', v'))
    (hret : 0 ≤ ret) : Left p var asked p' := by
  obtain ⟨⟨err, q⟩, hq, heq⟩ := Option.map_eq_some_iff.mp h
  dsimp only at heq
  by_cases herr : err = 0
  · rw [if_pos herr] at heq
    obtain ⟨-, heq⟩ := Prod.mk.inj heq
    obtain ⟨rfl, -⟩ := Prod.mk.inj heq
    exact (hrefined err q hq herr.ge).2
  · rw [if_neg herr] at heq
    obtain ⟨rfl, -⟩ := Prod.mk.inj heq
    exact absurd (hrefined err q hq hret).1 herr

variable (hp : Proper p)

include hp

theorem set_left (val : BitVec 32) (dir : Int) (hrange : SetInRange var val dir)
    (h : _snd_pcm_hw_param_set hw p var val dir = some (ret, p')) (hret : 0 ≤ ret) :
    Left p var (set_asked var val dir) p' := by
  obtain ⟨⟨err, q⟩, hq, heq⟩ := Option.map_eq_some_iff.mp h
  obtain ⟨rfl, rfl⟩ := Prod.mk.inj heq
  rw [if_neg (Int.not_lt.mpr hret)]
  exact (update_left hhw _ (fun _ _ => hw_param_set_left hp val dir hrange) hq hret).2

theorem set_min_left (v v' : Val) (hrange : MinInRange var v.val v.dirOr0)
    (h : _snd_pcm_hw_param_set_min hw p var v = some (ret, p', v')) (hret : 0 ≤ ret) :
    Left p var (min_asked var v.val v.dirOr0) p' :=
  saved_left _ (_snd_pcm_hw_param_get_min · var v) v v'
    (fun _ _ => update_left hhw _ fun _ _ => hw_param_set_min_left hp _ _ hrange) h hret

theorem set_max_left (v v' : Val) (hrange : MaxInRange var v.val v.dirOr0)
    (h : _snd_pcm_hw_param_set_max hw p var v = some (ret, p', v')) (hret : 0 ≤ ret) :
    Left p var (max_asked var v.val v.dirOr0) p' :=
  saved_left _ (_snd_pcm_hw_param_get_max · var v) v v'
    (fun _ _ => update_left hhw _ fun _ _ => hw_param_set_max_left hp _ _ hrange) h hret

theorem set_minmax_left (min max : Val) (out : Val × Val) (hmin : MinInRange var min.val min.dirOr0)
    (hmax : MaxInRange var max.val max.dirOr0)
    (h : _snd_pcm_hw_param_set_minmax hw p var min max = some (ret, p', out)) (hret : 0 ≤ ret) :
    Left p var (min_asked var min.val min.dirOr0 ∩ max_asked var max.val max.dirOr0) p' :=
  saved_left _ (fun q => (_snd_pcm_hw_param_get_min q var min, _snd_pcm_hw_param_get_max q var max)) (min, max) out
    (fun _ _ => update_left hhw _ fun _ _ => hw_param_set_minmax_left hp _ _ _ _ hmin hmax) h hret

/-- The value that the call tells is the one that is left. -/
theorem set_end_left (last : Bool) (v v' : Val)
    (h : (if last then _snd_pcm_hw_param_set_last hw p var v else _snd_pcm_hw_param_set_first hw p var v) =
      some (ret, p', v')) (hret : 0 ≤ ret) : Left p var {v'.val.toNat} p' := by
  have hcall : (if last then _snd_pcm_hw_param_set_last hw p var v else _snd_pcm_hw_param_set_first hw p var v) =
      (refine_and_update hw var (set_end last p var)).map fun r =>
        if r.1 = 0 then ((_snd_pcm_hw_param_get r.2 var v).1, r.2, (_snd_pcm_hw_param_get r.2 var v).2)
        else (r.1, r.2, v) := by
    cases last <;> rfl
  obtain ⟨changed, q, w, hset, -, hq, hsub, hvalues, -⟩ := set_end_outcome last p var hp
  have hleft : ∀ c q', set_end last p var = some (c, q') → 0 ≤ c → Left p var {w} q' := by
    intro c q' hc _
    rw [hset] at hc
    obtain ⟨-, rfl⟩ := Prod.mk.inj (Option.some.inj hc)
    exact ⟨hq, hsub, hvalues.le⟩
  rw [hcall] at h
  obtain ⟨⟨err, q'⟩, hupdate, heq⟩ := Option.map_eq_some_iff.mp h
  dsimp only at heq
  by_cases herr : err = 0
  · obtain ⟨-, hleft'⟩ := update_left hhw _ hleft hupdate herr.ge
    have hone : values q' var = {w} :=
      (Set.subset_singleton_iff_eq.mp hleft'.values).resolve_left (values_nonempty q' var hleft'.proper).ne_empty
    have hsingle := single_of_values q' var w hleft'.proper hone
    obtain ⟨dir, hget⟩ := get_of_single q' var v hleft'.proper hsingle
    rw [if_pos herr, hget] at heq
    obtain ⟨-, heq⟩ := Prod.mk.inj heq
    obtain ⟨rfl, rfl⟩ := Prod.mk.inj heq
    exact ⟨hleft'.proper, hleft'.part, (values_of_single q' var hleft'.proper hsingle).le⟩
  · rw [if_neg herr] at heq
    obtain ⟨rfl, -⟩ := Prod.mk.inj heq
    exact absurd (update_left hhw _ hleft hupdate hret).1 herr

/-- The flag for integers goes to an interval with closed ends. -/
theorem set_integer_left (n : Fin 12) (hclosed : Normal { p.intervals n with integer := true })
    (h : _snd_pcm_hw_param_set_integer hw p (.interval n) = some (ret, p')) (hret : 0 ≤ ret) :
    Left p (.interval n) Set.univ p' := by
  obtain ⟨i, hi⟩ : ∃ i, p.intervals n = i := ⟨_, rfl⟩
  have hcrossed := hi ▸ hp.uncrossed n
  rw [hi] at hclosed
  rw [_snd_pcm_hw_param_set_integer, hi] at h
  by_cases hinteger : i.integer = true
  · rw [if_pos hinteger] at h
    obtain ⟨-, rfl⟩ := Prod.mk.inj (Option.some.inj h)
    exact ⟨hp, SubParams.refl p, Set.subset_univ _⟩
  · simp only [if_neg hinteger, interval_check_empty, hcrossed, Bool.false_eq_true, if_false] at h
    have hsame : p.set_interval n i = p := by
      rw [← hi]
      exact set_interval_self p n
    rw [hsame] at h
    have hflagged : Left p (.interval n) Set.univ (p.set_interval n { i with integer := true }) := by
      refine ⟨?_, ?_, Set.subset_univ _⟩
      · exact proper_set_interval p n _ hp (hi ▸ hp.unflagged n) hclosed hcrossed
      · apply subParams_set_interval
        rw [hi]
        exact fun x hx => ⟨hx.1, hx.2.1, fun _ => hx.2.2 rfl⟩
    obtain ⟨⟨err, q⟩, hupdate⟩ : ∃ r, hw_param_update_var hw (p.set_interval n { i with integer := true })
      (.interval n) 1 = r := ⟨_, rfl⟩
    rw [hupdate] at h
    obtain ⟨rfl, hp'⟩ := Prod.mk.inj (Option.some.inj h)
    rw [if_neg (Int.not_lt.mpr hret)] at hp'
    obtain rfl : q = p' := hp'
    have hall : refine_and_update hw (.interval n) (some (1, p.set_interval n { i with integer := true })) =
        some (err, q) := congrArg some hupdate
    refine (update_left hhw _ ?_ hall hret).2
    intro c q' hc _
    obtain ⟨-, rfl⟩ := Prod.mk.inj (Option.some.inj hc)
    exact hflagged

end Setters

/-! ## The nearest value -/

/-- Nothing below 0 is looked for. -/
def NearInRange (v : Val) : Prop := ¬ (v.dirOr0 ≤ 0 ∧ v.val = 0#32)

theorem near_best_ne_last (val : BitVec 32) : near_best val ≠ UINT_MAX := by
  unfold near_best INT_MAX_U UINT_MAX
  split_ifs <;> bv_omega

theorem near_best_ne_zero (val : BitVec 32) (h : val ≠ 0#32) : near_best val ≠ 0#32 := by
  unfold near_best INT_MAX_U
  split_ifs
  · decide
  · exact h

theorem near_max_inRange (n : Fin 12) (v : Val) (h : NearInRange v) :
    MaxInRange (.interval n) (near_max (near_best v.val) v.dirOr0).val
      (near_max (near_best v.val) v.dirOr0).dirOr0 := by
  have hzero (hdir : v.dirOr0 ≤ 0) : near_best v.val ≠ 0#32 := near_best_ne_zero _ fun hval => h ⟨hdir, hval⟩
  unfold near_max
  split_ifs with hpos hnone
  · exact ⟨fun hlast => Int.lt_irrefl 0 hlast.1, fun hlow => Int.lt_irrefl 0 hlow.1⟩
  · exact ⟨fun hlast => Int.not_lt.mpr (Int.neg_nonpos_of_nonneg Int.one_nonneg) hlast.1,
      fun hlow => hzero hnone.le hlow.2⟩
  · exact ⟨fun hlast => sub_one_ne_last _ (hzero (Int.not_lt.mp hpos)) hlast.2,
      fun hlow => Int.not_lt.mpr Int.one_nonneg hlow.1⟩

/-- What the search has come to: one value and the number that tells it, or something to take an end of. -/
def NearChoice.Leads (p : SndPcmHwParams) (n : Fin 12) : NearChoice → Prop
  | .done ret q v => 0 ≤ ret → Left p (.interval n) {v.val.toNat} q
  | .finish _ q => Proper q ∧ SubParams q p

section Near

variable {hw : HwRefine} (hhw : Sound hw) {p p' : SndPcmHwParams} {n : Fin 12} {ret : Int} (hp : Proper p)

include hhw hp

theorem set_min_part (v v' : Val) (hrange : MinInRange (.interval n) v.val v.dirOr0)
    (h : _snd_pcm_hw_param_set_min hw p (.interval n) v = some (ret, p', v')) : Proper p' ∧ SubParams p' p := by
  by_cases hret : ret < 0
  · rw [set_min_restores hw p p' _ v v' ret h hret]
    exact ⟨hp, SubParams.refl p⟩
  · have hleft := set_min_left hhw hp v v' hrange h (Int.not_lt.mp hret)
    exact ⟨hleft.proper, hleft.part⟩

theorem set_max_part (v v' : Val) (hrange : MaxInRange (.interval n) v.val v.dirOr0)
    (h : _snd_pcm_hw_param_set_max hw p (.interval n) v = some (ret, p', v')) (hret : ¬ ret < 0) :
    Proper p' ∧ SubParams p' p := by
  have hleft := set_max_left hhw hp v v' hrange h (Int.not_lt.mp hret)
  exact ⟨hleft.proper, hleft.part⟩

theorem near_choose_leads (v : Val) (hrange : NearInRange v) (choice : NearChoice)
    (h : near_choose hw p n v = some choice) : choice.Leads p n := by
  have hmax := near_max_inRange n v hrange
  have hmin : MinInRange (.interval n) (near_best v.val) v.dirOr0 := fun hlast => near_best_ne_last _ hlast.2
  obtain ⟨err, q, min, hset, hchoice⟩ := near_choose_cases hw p n v choice h
  have hq := set_min_part hhw hp ⟨near_best v.val, some v.dirOr0⟩ min hmin hset
  rcases hchoice with ⟨hsingle, rfl⟩ | ⟨-, rfl⟩ | ⟨err2, q2, max, hset2, ⟨herr2, rfl⟩ | ⟨herr2, rfl⟩⟩
  · exact fun _ => ⟨hq.1, hq.2, (values_of_single q (.interval n) hq.1 hsingle.2).le⟩
  · exact hq
  · exact fun hret => absurd hret (Int.not_le.mpr herr2)
  · exact set_max_part hhw hp _ max hmax hset2 herr2

theorem set_near_left (v v' : Val) (hrange : NearInRange v)
    (h : _snd_pcm_hw_param_set_near hw p (.interval n) v = some (ret, p', v')) (hret : 0 ≤ ret) :
    Left p (.interval n) {v'.val.toNat} p' := by
  obtain ⟨choice, hchoose, h⟩ := Option.bind_eq_some_iff.mp h
  have hleads := near_choose_leads hhw hp v hrange choice hchoose
  cases choice with
  | done ret' q v'' =>
    simp only [Option.some.injEq, Prod.mk.injEq] at h
    obtain ⟨rfl, rfl, rfl⟩ := h
    exact hleads hret
  | finish last q =>
    have hend : (if last then _snd_pcm_hw_param_set_last hw q (.interval n) v
        else _snd_pcm_hw_param_set_first hw q (.interval n) v) = some (ret, p', v') := by
      cases last <;> exact h
    have hleft := set_end_left hhw hleads.1 last v v' hend hret
    exact ⟨hleft.proper, hleft.part.trans hleads.2, hleft.values⟩

end Near

/-! ## Sequences of requests -/

/-- The value that a call tells which takes one. -/
def Request.At.told (c : Request.At) (p : SndPcmHwParams) : Option (BitVec 32) :=
  match c.request with
  | .set_first var v => (_snd_pcm_hw_param_set_first c.hw p var v).map fun r => r.2.2.val
  | .set_last var v => (_snd_pcm_hw_param_set_last c.hw p var v).map fun r => r.2.2.val
  | .set_near var v => (_snd_pcm_hw_param_set_near c.hw p var v).map fun r => r.2.2.val
  | _ => none

def Request.asked : Request → Set ℕ
  | .set var val dir => set_asked var val dir
  | .set_min var v => min_asked var v.val v.dirOr0
  | .set_max var v => max_asked var v.val v.dirOr0
  | .set_minmax var min max => min_asked var min.val min.dirOr0 ∩ max_asked var max.val max.dirOr0
  | _ => Set.univ

/-- The values that a call which succeeds promises: the one that it tells, or those that were asked for. -/
def Request.At.promise (c : Request.At) (p : SndPcmHwParams) : Set ℕ :=
  match c.told p with
  | some u => {u.toNat}
  | none => c.request.asked

/-- Values are those that a parameter can have. The flag for integers is for closed ends. -/
def InRange (p : SndPcmHwParams) : Request → Prop
  | .set var val dir => SetInRange var val dir
  | .set_min var v => MinInRange var v.val v.dirOr0
  | .set_max var v => MaxInRange var v.val v.dirOr0
  | .set_minmax var min max => MinInRange var min.val min.dirOr0 ∧ MaxInRange var max.val max.dirOr0
  | .set_integer (.interval n) => Normal { p.intervals n with integer := true }
  | .set_near _ v => NearInRange v
  | _ => True

/-- The request puts the parameters back when it fails. -/
def Request.Saved : Request → Prop
  | .set_first _ _ => False
  | .set_last _ _ => False
  | .set_near _ _ => False
  | _ => True

/-- A program goes on behind a request that failed if that one has put the parameters back. -/
structure Allowed (p : SndPcmHwParams) (c : Request.At) : Prop where
  sound : Sound c.hw
  inRange : InRange p c.request
  failed : ∀ ret p', perform c.hw p c.request = some (ret, p') → ret < 0 → c.request.Saved

theorem perform_left (p p' : SndPcmHwParams) (c : Request.At) (ret : Int) (hp : Proper p) (hallowed : Allowed p c)
    (h : perform c.hw p c.request = some (ret, p')) (hret : 0 ≤ ret) :
    Left p c.request.var (c.promise p) p' := by
  obtain ⟨hw, request⟩ := c
  obtain ⟨hsound, hrange, -⟩ := hallowed
  unfold Request.At.promise Request.At.told
  cases request with
  | set var val dir => exact set_left hsound hp val dir hrange h hret
  | set_min var v =>
    obtain ⟨⟨_, _, v'⟩, hr, heq⟩ := Option.map_eq_some_iff.mp h
    obtain ⟨rfl, rfl⟩ := Prod.mk.inj heq
    exact set_min_left hsound hp v v' hrange hr hret
  | set_max var v =>
    obtain ⟨⟨_, _, v'⟩, hr, heq⟩ := Option.map_eq_some_iff.mp h
    obtain ⟨rfl, rfl⟩ := Prod.mk.inj heq
    exact set_max_left hsound hp v v' hrange hr hret
  | set_minmax var min max =>
    obtain ⟨⟨_, _, out⟩, hr, heq⟩ := Option.map_eq_some_iff.mp h
    obtain ⟨rfl, rfl⟩ := Prod.mk.inj heq
    exact set_minmax_left hsound hp min max out hrange.1 hrange.2 hr hret
  | set_first var v =>
    obtain ⟨⟨_, _, v'⟩, hr, heq⟩ := Option.map_eq_some_iff.mp h
    obtain ⟨rfl, rfl⟩ := Prod.mk.inj heq
    dsimp only
    rw [hr]
    exact set_end_left hsound hp false v v' hr hret
  | set_last var v =>
    obtain ⟨⟨_, _, v'⟩, hr, heq⟩ := Option.map_eq_some_iff.mp h
    obtain ⟨rfl, rfl⟩ := Prod.mk.inj heq
    dsimp only
    rw [hr]
    exact set_end_left hsound hp true v v' hr hret
  | set_integer var =>
    cases var with
    | mask m => cases h
    | interval n => exact set_integer_left hsound hp n hrange h hret
  | set_near var v =>
    obtain ⟨⟨_, _, v'⟩, hr, heq⟩ := Option.map_eq_some_iff.mp h
    obtain ⟨rfl, rfl⟩ := Prod.mk.inj heq
    cases var with
    | mask m => cases hr
    | interval n =>
      dsimp only
      rw [hr]
      exact set_near_left hsound hp v v' hrange hr hret

theorem perform_saved (p p' : SndPcmHwParams) (c : Request.At) (ret : Int) (hp : Proper p)
    (hsaved : c.request.Saved) (h : perform c.hw p c.request = some (ret, p')) (hret : ret < 0) : p' = p := by
  obtain ⟨hw, request⟩ := c
  cases request with
  | set var val dir => exact set_restores hw p p' var val dir ret h hret
  | set_min var v =>
    obtain ⟨⟨_, _, v'⟩, hr, heq⟩ := Option.map_eq_some_iff.mp h
    obtain ⟨rfl, rfl⟩ := Prod.mk.inj heq
    exact set_min_restores hw p _ var v v' _ hr hret
  | set_max var v =>
    obtain ⟨⟨_, _, v'⟩, hr, heq⟩ := Option.map_eq_some_iff.mp h
    obtain ⟨rfl, rfl⟩ := Prod.mk.inj heq
    exact saved_restores _ p _ (_snd_pcm_hw_param_get_max · var v) v v' _ hr hret
  | set_minmax var min max =>
    obtain ⟨⟨_, _, out⟩, hr, heq⟩ := Option.map_eq_some_iff.mp h
    obtain ⟨rfl, rfl⟩ := Prod.mk.inj heq
    exact saved_restores _ p _ (fun q => (_snd_pcm_hw_param_get_min q var min, _snd_pcm_hw_param_get_max q var max))
      (min, max) out _ hr hret
  | set_first var v => exact hsaved.elim
  | set_last var v => exact hsaved.elim
  | set_integer var =>
    cases var with
    | mask m => cases h
    | interval n =>
      have hcrossed := hp.uncrossed n
      exact (set_integer_restores_iff hw p n).mpr (.inr (.inr (by simp [hcrossed]))) ret p' h hret
  | set_near var v => exact hsaved.elim

/-- The requests that succeeded have what they were promised in `final`. -/
def Kept (final : SndPcmHwParams) (p : SndPcmHwParams) (c : Request.At) : Prop :=
  ∀ ret p', perform c.hw p c.request = some (ret, p') → 0 ≤ ret → values final c.request.var ⊆ c.promise p

/-- Whatever is asked for later, the promises of all requests are kept by what is left in the end. -/
theorem requests_kept (p final : SndPcmHwParams) (calls : List Request.At) (hp : Proper p)
    (hallowed : AllSteps step Allowed p calls) (hrun : run step p calls = some final) :
    Proper final ∧ SubParams final p ∧ AllSteps step (Kept final) p calls := by
  induction calls generalizing p with
  | nil =>
    obtain rfl := Option.some.inj hrun
    exact ⟨hp, SubParams.refl p, trivial⟩
  | cons c calls ih =>
    obtain ⟨hc, hrest⟩ := hallowed
    obtain ⟨q, hq, hrun⟩ := Option.bind_eq_some_iff.mp hrun
    obtain ⟨⟨ret, q'⟩, hperform, rfl⟩ := Option.map_eq_some_iff.mp hq
    dsimp only at hq hrun
    have hpart : Proper q' ∧ SubParams q' p := by
      by_cases hret : ret < 0
      · rw [perform_saved p q' c ret hp (hc.failed ret q' hperform hret) hperform hret]
        exact ⟨hp, SubParams.refl p⟩
      · have hleft := perform_left p q' c ret hp hc hperform (Int.not_lt.mp hret)
        exact ⟨hleft.proper, hleft.part⟩
    obtain ⟨hfinal, hsub, hkept⟩ := ih q' hpart.1 (hrest q' hq) hrun
    refine ⟨hfinal, hsub.trans hpart.2, (allSteps_cons_iff _ _ _ _ _ hq).mpr ⟨?_, hkept⟩⟩
    intro ret' q'' hperform' hret'
    obtain ⟨rfl, rfl⟩ := Prod.mk.inj (Option.some.inj (hperform.symm.trans hperform'))
    exact (values_mono _ _ _ hsub).trans (perform_left p q' c ret hp hc hperform hret').values

/-! ## The full space -/

def SNDRV_PCM_HW_PARAMS_NORESAMPLE : BitVec 32 := 1#32

def mask_set_any : SndMask := ⟨fun _ => -1#32⟩

def interval_set_any : SndInterval :=
  { min := 0#32, max := UINT_MAX, openmin := false, openmax := false, integer := false, empty := false }

def _snd_pcm_hw_param_any (params : SndPcmHwParams) (var : Var) : SndPcmHwParams :=
  match var with
  | .mask m => (params.set_mask m mask_set_any).mark var
  | .interval n => (params.set_interval n interval_set_any).mark var

/-- The parameters behind `memset`. -/
def zeroed_params : SndPcmHwParams :=
  { flags := 0#32, masks := fun _ => mask_clear, mres := fun _ => mask_clear,
    intervals := fun _ => ⟨0#32, 0#32, false, false, false, false⟩,
    ires := fun _ => ⟨0#32, 0#32, false, false, false, false⟩, rmask := 0#32, cmask := 0#32, info := 0#32,
    msbits := 0#32, rate_num := 0#32, rate_den := 0#32, fifo_size := 0#64, reserved := fun _ => 0#8 }

def _snd_pcm_hw_params_any : SndPcmHwParams :=
  let params := (List.finRange 3).foldl (fun params m => _snd_pcm_hw_param_any params (.mask m)) zeroed_params
  let params := (List.finRange 12).foldl (fun params n => _snd_pcm_hw_param_any params (.interval n)) params
  { params with rmask := -1#32, cmask := 0#32, info := -1#32, flags := SNDRV_PCM_HW_PARAMS_NORESAMPLE }

def snd_pcm_hw_params_any (hw : HwRefine) : Int × SndPcmHwParams := snd_pcm_hw_refine hw _snd_pcm_hw_params_any

theorem any_masks : ∀ m, _snd_pcm_hw_params_any.masks m = mask_set_any := by decide

theorem any_intervals : ∀ n, _snd_pcm_hw_params_any.intervals n = interval_set_any := by decide

theorem any_params_eq : any_params = _snd_pcm_hw_params_any := by
  have hmasks : (fun _ => ⟨fun _ => -1#32⟩ : Fin 3 → SndMask) = _snd_pcm_hw_params_any.masks :=
    (funext any_masks).symm
  have hintervals : (fun _ => ⟨0#32, UINT_MAX, false, false, false, false⟩ : Fin 12 → SndInterval) =
      _snd_pcm_hw_params_any.intervals := (funext any_intervals).symm
  unfold any_params
  rw [hmasks, hintervals]
  rfl

theorem any_proper : Proper _snd_pcm_hw_params_any := by
  constructor
  · intro m
    rw [any_masks]
    decide
  all_goals
    intro n
    rw [any_intervals]
  · rfl
  · exact fun hint => (Bool.false_ne_true hint).elim
  · decide

end Salsa.HwParams
