import Salsa.HwParams.Near
import Salsa.HwParams.Restore

/-!
# The search for the nearest value

When `_snd_pcm_hw_param_set_near` ends with a nearest supported value. It takes a single value above
the request without a look at the values below.
-/

open Ends Nearest

namespace Salsa.HwParams

/-- A nearest supported value is returned, and the interval has that alone. -/
def Picks (S : Finset (BitVec 32)) (n : Fin 12) (val : BitVec 32)
    (result : Option (Int × SndPcmHwParams × Val)) : Prop :=
  ∃ params' v', result = some (0, params', v') ∧ IsNearest num (S : Set (BitVec 32)) (num val) v'.val ∧
    denote (params'.intervals n) = {num v'.val}

/-- A single value that is not below the request is not farther away than the values below. -/
def NoneNearer (S : Finset (BitVec 32)) (val : BitVec 32) : Prop :=
  ∀ a, Above S val = {a} → ∀ s ∈ Below S val, num a - num val ≤ num val - num s

/-- The parameters are still to be refined, or on the side of a request out of their interval they
end with a supported value. -/
def EndSupported (S : Finset (BitVec 32)) (params : SndPcmHwParams) (n : Fin 12) (val : BitVec 32) : Prop :=
  params.rmask ≠ 0#32 ∨ ((¬ (params.intervals n).min < val → (close_min (params.intervals n)).min ∈ S) ∧
    (¬ MaxMoves (params.intervals n) val →
      interval_is_single (params.intervals n) = true ∨ (close_max (params.intervals n)).max ∈ S))

/-- From one number up to the next one, and not for integers. -/
def HalfOpenUnit (i : SndInterval) : Prop := i.integer = false ∧ i.min + 1#32 = i.max ∧ i.openmax = true

/-- Such an interval counts as a single value, and is left alone unless it is refined. -/
def LeftHalfOpen (params : SndPcmHwParams) (n : Fin 12) (val : BitVec 32) : Prop :=
  HalfOpenUnit (params.intervals n) ∧ ((params.intervals n).min < val ∨ params.rmask = 0#32)

/-! ## Distances -/

theorem boundary_nearer_eq (b val a : BitVec 32) (adir : Int) (hadir : adir = 0 ∨ adir = 1) :
    boundary_nearer b 0 val 0 a adir =
      (decide (val - b < a - val) || ((val - b) == (a - val) && decide (0 < adir))) := by
  rcases hadir with rfl | rfl
  · rfl
  · rfl

theorem not_nearer_zero (b a : BitVec 32) (adir : Int) (hb : b ≠ 0#32) (hbmax : b ≤ INT_MAX_U)
    (ha : a ≤ INT_MAX_U) (hadir : adir = 0 ∨ adir = 1) : boundary_nearer b 0 0#32 0 a adir = false := by
  have hfar : a.toNat < (0#32 - b).toNat := by
    have hpos : b.toNat ≠ 0 := fun h => hb (BitVec.eq_of_toNat_eq h)
    rw [BitVec.le_def] at hbmax ha
    simp only [INT_MAX_U, BitVec.toNat_ofNat] at hbmax ha
    rw [BitVec.toNat_sub, BitVec.toNat_ofNat]
    omega
  have hlt : ¬ (0#32 - b < a) := fun h => by
    rw [BitVec.lt_def] at h
    omega
  have hne : ((0#32 - b) == a) = false := by
    apply beq_eq_false_iff_ne.mpr
    intro h
    rw [h] at hfar
    exact lt_irrefl _ hfar
  rw [boundary_nearer_eq _ _ _ _ hadir, BitVec.sub_zero, hne, Bool.false_and, Bool.or_false]
  exact decide_eq_false hlt

theorem nearer_iff (b val a : BitVec 32) (hb : b < val) (ha : val < a) :
    boundary_nearer b 0 val 0 a 0 = true ↔ num val - num b < num a - num val := by
  have hval : (val - b).toNat = val.toNat - b.toNat := by
    rw [BitVec.lt_def] at hb
    rw [BitVec.toNat_sub]
    omega
  have hdiff : (a - val).toNat = a.toNat - val.toNat := by
    rw [BitVec.lt_def] at ha
    rw [BitVec.toNat_sub]
    omega
  rw [boundary_nearer_eq _ _ _ _ (Or.inl rfl), decide_eq_false (lt_irrefl 0), Bool.and_false, Bool.or_false,
    decide_eq_true_iff, BitVec.lt_def, hval, hdiff]
  rw [BitVec.lt_def] at hb ha
  unfold num
  constructor
  · intro h
    have hsum : val.toNat + val.toNat < a.toNat + b.toNat := by omega
    have hcast : (val.toNat : ℚ) + val.toNat < a.toNat + b.toNat := by exact_mod_cast hsum
    linarith
  · intro h
    have hcast : (val.toNat : ℚ) + val.toNat < a.toNat + b.toNat := by linarith
    have hsum : val.toNat + val.toNat < a.toNat + b.toNat := by exact_mod_cast hcast
    omega

/-! ## The exits of the search -/

section Exits

variable (hw : HwRefine) (params : SndPcmHwParams) (n : Fin 12) (v : Val) (hval : v.val ≤ INT_MAX_U)
  (hdir : v.dirOr0 = 0)

include hval in
theorem near_best_eq : near_best v.val = v.val := by
  unfold near_best
  rw [if_neg]
  rw [BitVec.le_def] at hval
  intro h
  have h : INT_MAX_U.toNat < v.val.toNat := h
  omega

theorem near_max_eq (best : BitVec 32) : near_max best 0 = ⟨best, some (-1)⟩ := rfl

include hval hdir

theorem set_near_single (err : Int) (p1 : SndPcmHwParams) (min : Val)
    (hmin : _snd_pcm_hw_param_set_min hw params (.interval n) ⟨v.val, some 0⟩ = some (err, p1, min))
    (hempty : (p1.intervals n).empty = false) (hsingle : interval_is_single (p1.intervals n) = true) :
    _snd_pcm_hw_param_set_near hw params (.interval n) v =
      some (0, p1, _snd_pcm_hw_param_get_min p1 (.interval n) v) := by
  unfold _snd_pcm_hw_param_set_near near_choose
  dsimp only
  rw [near_best_eq v hval, hdir, hmin, Option.bind_some]
  dsimp only
  rw [if_pos ⟨by rw [hempty]; exact Bool.false_ne_true, hsingle⟩, Option.bind_some]

theorem set_near_exact (p1 : SndPcmHwParams) (min : Val)
    (hmin : _snd_pcm_hw_param_set_min hw params (.interval n) ⟨v.val, some 0⟩ = some (0, p1, min))
    (hsingle : interval_is_single (p1.intervals n) = false) (hexact : min.val = v.val ∧ min.dirOr0 = 0) :
    _snd_pcm_hw_param_set_near hw params (.interval n) v =
      _snd_pcm_hw_param_set_first hw p1 (.interval n) v := by
  unfold _snd_pcm_hw_param_set_near near_choose
  dsimp only
  rw [near_best_eq v hval, hdir, hmin, Option.bind_some]
  dsimp only
  rw [if_neg fun h => by rw [hsingle] at h; exact Bool.false_ne_true h.2, if_pos (le_refl _), if_pos hexact,
    Option.bind_some]

theorem set_near_both (p1 p2 : SndPcmHwParams) (min max : Val) (err : Int)
    (hmin : _snd_pcm_hw_param_set_min hw params (.interval n) ⟨v.val, some 0⟩ = some (0, p1, min))
    (hsingle : interval_is_single (p1.intervals n) = false) (hexact : ¬ (min.val = v.val ∧ min.dirOr0 = 0))
    (hmax : _snd_pcm_hw_param_set_max hw params (.interval n) ⟨v.val, some (-1)⟩ = some (err, p2, max)) :
    _snd_pcm_hw_param_set_near hw params (.interval n) v =
      if 0 ≤ err ∧ boundary_nearer max.val max.dirOr0 v.val 0 min.val min.dirOr0 = true then
        _snd_pcm_hw_param_set_last hw p2 (.interval n) v
      else _snd_pcm_hw_param_set_first hw p1 (.interval n) v := by
  unfold _snd_pcm_hw_param_set_near near_choose
  dsimp only
  rw [near_best_eq v hval, hdir, near_max_eq, hmin, Option.bind_some]
  dsimp only
  rw [if_neg fun h => by rw [hsingle] at h; exact Bool.false_ne_true h.2, if_pos (le_refl _), if_neg hexact, hmax,
    Option.map_some]
  dsimp only
  by_cases herr : err < 0
  · rw [if_pos herr, if_neg fun h => absurd herr (not_lt.mpr h.1), Option.bind_some]
  · rw [if_neg herr]
    by_cases hnearer : boundary_nearer max.val max.dirOr0 v.val 0 min.val min.dirOr0 = true
    · rw [if_pos hnearer, if_pos ⟨not_lt.mp herr, hnearer⟩, Option.bind_some]
    · rw [if_neg hnearer, if_neg fun h => hnearer h.2, Option.bind_some]

theorem set_near_below (p2 : SndPcmHwParams) (min max : Val) (err : Int) (herr : err < 0)
    (hmin : _snd_pcm_hw_param_set_min hw params (.interval n) ⟨v.val, some 0⟩ = some (err, params, min))
    (hsingle : interval_is_single (params.intervals n) = false)
    (hmax : _snd_pcm_hw_param_set_max hw params (.interval n) ⟨v.val, some (-1)⟩ = some (0, p2, max)) :
    _snd_pcm_hw_param_set_near hw params (.interval n) v =
      _snd_pcm_hw_param_set_last hw p2 (.interval n) v := by
  unfold _snd_pcm_hw_param_set_near near_choose
  dsimp only
  rw [near_best_eq v hval, hdir, near_max_eq, hmin, Option.bind_some]
  dsimp only
  rw [if_neg fun h => by rw [hsingle] at h; exact Bool.false_ne_true h.2, if_neg (not_le.mpr herr), hmax,
    Option.map_some]
  dsimp only
  rw [if_neg (lt_irrefl _), Option.bind_some]

end Exits

/-! ## Single values -/

theorem Starts.single {S : Finset (BitVec 32)} {i : SndInterval} (h : Starts S i)
    (hsingle : interval_is_single i = true) : i.openmin = false ∧ ∀ s ∈ S, s = i.min := by
  have hcases : i.min = i.max ∨ (i.min + 1#32 = i.max ∧ i.openmax = true) := by
    unfold interval_is_single at hsingle
    rw [Bool.or_eq_true, Bool.and_eq_true, beq_iff_eq, beq_iff_eq] at hsingle
    exact hsingle
  have hsame : ∀ s ∈ S, s = i.min := by
    intro s hs
    obtain ⟨hmin, hmax, -⟩ := h.supported s hs
    have hle := le_of_mem_above _ _ _ hmin
    rcases hcases with heq | ⟨heq, hopen⟩
    · have hge := le_of_mem_below _ _ _ hmax
      rw [← heq] at hge
      exact num_inj _ _ (le_antisymm hge hle)
    · rw [hopen, mem_below_open] at hmax
      by_contra hne
      have hlt : i.min < s := (num_lt_iff _ _).mpr (lt_of_le_of_ne hle fun h => hne (num_inj _ _ h).symm)
      have hnext := num_add_one_le _ _ hlt
      have hlast : i.min ≠ UINT_MAX := fun hlast => le_UINT_MAX s (hlast ▸ hlt)
      rw [← heq, num_add_one _ hlast] at hmax
      linarith
  obtain ⟨s, hs⟩ := h.nonempty
  exact ⟨h.openmin (hsame s hs ▸ hs), hsame⟩

theorem halfOpen_single (i : SndInterval) (h : HalfOpenUnit i) : interval_is_single i = true := by
  unfold interval_is_single
  rw [Bool.or_eq_true, Bool.and_eq_true, beq_iff_eq, beq_iff_eq]
  exact Or.inr h.2

theorem close_min_halfOpen (i : SndInterval) : HalfOpenUnit (close_min i) ↔ HalfOpenUnit i := by
  unfold close_min
  split_ifs with hclose
  · exact iff_of_false (fun h => absurd (h.1.symm.trans hclose.1) Bool.false_ne_true)
      fun h => absurd (h.1.symm.trans hclose.1) Bool.false_ne_true
  · rfl

/-- A half-open unit has more in it than its supported value, unless it is one of integers. -/
theorem denote_single {S : Finset (BitVec 32)} {i : SndInterval} (h : Starts S i)
    (hsingle : interval_is_single i = true) : denote i = {num i.min} ↔ ¬ HalfOpenUnit i := by
  obtain ⟨hopenmin, hsame⟩ := h.single hsingle
  obtain ⟨s, hs⟩ := h.nonempty
  have hmem := h.supported s hs
  rw [hsame s hs] at hmem
  constructor
  · rintro hdenote ⟨hint, hnext, hopen⟩
    obtain ⟨-, hmax, -⟩ := hmem
    rw [hopen, mem_below_open] at hmax
    have hle := num_add_one_le _ _ ((num_lt_iff _ _).mpr hmax)
    have hhalf : num i.min + 1 / 2 ∈ denote i := by
      refine ⟨?_, ?_, fun h => absurd (hint.symm.trans h) Bool.false_ne_true⟩
      · rw [hopenmin, mem_above_closed]
        linarith
      · rw [hopen, mem_below_open]
        linarith
    rw [hdenote, Set.mem_singleton_iff] at hhalf
    linarith
  · intro hnot
    apply Set.Subset.antisymm
    · rintro x ⟨hmin, hmax, hint⟩
      rw [hopenmin, mem_above_closed] at hmin
      rw [Set.mem_singleton_iff]
      unfold interval_is_single at hsingle
      rw [Bool.or_eq_true, Bool.and_eq_true, beq_iff_eq, beq_iff_eq] at hsingle
      rcases hsingle with heq | ⟨hnext, hopen⟩
      · have hge := le_of_mem_below _ _ _ hmax
        rw [← heq] at hge
        exact le_antisymm hge hmin
      · have hinteger : i.integer = true := by
          by_contra hn
          exact hnot ⟨by simpa using hn, hnext, hopen⟩
        obtain ⟨z, rfl⟩ := hint hinteger
        by_contra hne
        have hz := add_one_le_of_lt i.min z (lt_of_le_of_ne hmin (Ne.symm hne))
        have hlt := hmem.2.1
        rw [hopen, mem_below_open] at hlt
        have hlast : i.min ≠ UINT_MAX := fun hlast => le_UINT_MAX i.max (hlast ▸ (num_lt_iff _ _).mpr hlt)
        rw [hopen, mem_below_open, ← hnext, num_add_one _ hlast] at hmax
        linarith
    · rintro x hx
      rw [Set.mem_singleton_iff.mp hx]
      exact hmem

/-! ## How the search ends -/

section Search

variable {S : Finset (BitVec 32)} {n : Fin 12} {hw : HwRefine} (hS : Supports S n hw) {params : SndPcmHwParams}
  (h : Starts S (params.intervals n)) (hmax : ∀ s ∈ S, s ≤ INT_MAX_U) (v : Val) (hval : v.val ≤ INT_MAX_U)
  (hdir : v.dirOr0 = 0)

theorem Hull.isNearest_first {val : BitVec 32} {i : SndInterval} (hull : Hull (Above S val) i)
    (hbelow : ∀ s ∈ Below S val, num i.min - num val ≤ num val - num s) :
    IsNearest num (S : Set (BitVec 32)) (num val) i.min := by
  apply isNearest_of_above _ hull.first.1 hull.first.2
  · exact fun s hs hle => hull.least s ⟨hs, hle⟩
  · exact fun s hs hlt => hbelow s ⟨hs, hlt⟩

theorem Hull.isNearest_last {val : BitVec 32} {i : SndInterval} (hull : Hull (Below S val) i)
    (habove : ∀ s ∈ Above S val, num val - num i.max ≤ num s - num val) :
    IsNearest num (S : Set (BitVec 32)) (num val) i.max := by
  apply isNearest_of_below _ hull.last.1 hull.last.2
  · exact fun s hs hlt => hull.greatest s ⟨hs, hlt⟩
  · exact fun s hs hle => habove s ⟨hs, hle⟩

theorem picks_of_endsWith (x : BitVec 32) (result : Option (Int × SndPcmHwParams × Val))
    (hends : EndsWith n v x result) :
    Picks S n v.val result ↔ IsNearest num (S : Set (BitVec 32)) (num v.val) x := by
  obtain ⟨params', rfl, hpoint⟩ := hends
  constructor
  · rintro ⟨params'', v', heq, hnearest, -⟩
    obtain ⟨-, rfl, rfl⟩ := Prod.mk.inj (Option.some.inj heq) |>.imp id Prod.mk.inj
    exact hnearest
  · intro hnearest
    refine ⟨params', _, rfl, hnearest, ?_⟩
    rw [hpoint, denote_point]
    rfl

theorem not_picks_of_fails (result : Option (Int × SndPcmHwParams × Val)) (hfails : Fails result) :
    ¬ Picks S n v.val result := by
  obtain ⟨err, params', v', rfl, herr⟩ := hfails
  rintro ⟨params'', v'', heq, -⟩
  exact herr (Prod.mk.inj (Option.some.inj heq)).1

theorem picks_of_single (p : SndPcmHwParams) (hp : Starts S (p.intervals n))
    (hsingle : interval_is_single (p.intervals n) = true) :
    Picks S n v.val (some (0, p, _snd_pcm_hw_param_get_min p (.interval n) v)) ↔
      ¬ HalfOpenUnit (p.intervals n) := by
  obtain ⟨-, hsame⟩ := hp.single hsingle
  obtain ⟨s, hs⟩ := hp.nonempty
  have hnearest : IsNearest num (S : Set (BitVec 32)) (num v.val) (p.intervals n).min := by
    refine ⟨hsame s hs ▸ hs, fun t ht => ?_⟩
    rw [hsame t ht]
  rw [← denote_single hp hsingle]
  constructor
  · rintro ⟨params', v', heq, -, hdenote⟩
    obtain ⟨-, rfl, rfl⟩ := Prod.mk.inj (Option.some.inj heq) |>.imp id Prod.mk.inj
    exact hdenote
  · intro hdenote
    exact ⟨p, _, rfl, hnearest, hdenote⟩

/-- The exact condition under which a nearest value is picked. -/
def Good (S : Finset (BitVec 32)) (params : SndPcmHwParams) (n : Fin 12) (val : BitVec 32) : Prop :=
  NoneNearer S val ∧ EndSupported S params n val ∧ ¬ LeftHalfOpen params n val

theorem not_leftHalfOpen (hsingle : interval_is_single (params.intervals n) = false) (val : BitVec 32) :
    ¬ LeftHalfOpen params n val := by
  rintro ⟨hhalf, -⟩
  rw [halfOpen_single _ hhalf] at hsingle
  exact Bool.noConfusion hsingle

theorem noneNearer_of_none (val : BitVec 32) (hnone : Above S val = ∅) : NoneNearer S val := by
  intro a ha
  rw [hnone] at ha
  exact absurd ha.symm (Set.singleton_ne_empty a)

theorem noneNearer_of_not_single {val : BitVec 32} {i : SndInterval} (hull : Hull (Above S val) i)
    (hsingle : interval_is_single i = false) : NoneNearer S val := by
  intro a ha
  rw [ha] at hull
  rw [hull.of_forall a fun t ht => ht, point_single] at hsingle
  exact Bool.noConfusion hsingle

theorem lt_of_above_none (val : BitVec 32) (hnone : Above S val = ∅) (s : BitVec 32) (hs : s ∈ S) :
    num s < num val := by
  by_contra hge
  have hmem : s ∈ Above S val := ⟨hs, not_lt.mp hge⟩
  rw [hnone] at hmem
  exact hmem

theorem noneNearer_of_below_none (val : BitVec 32) (hnone : Below S val = ∅) : NoneNearer S val := by
  intro a _ s hs
  rw [hnone] at hs
  exact absurd hs (Set.notMem_empty s)

include h in
/-- All values are above a request that the interval does not begin below. -/
theorem le_of_not_min_lt (val : BitVec 32) (hle : ¬ (params.intervals n).min < val) (s : BitVec 32) (hs : s ∈ S) :
    num val ≤ num s := by
  rw [num_lt_iff, not_lt] at hle
  exact hle.trans (le_of_mem_above _ _ _ (h.supported s hs).1)

/-- Not refined, the interval is to begin with a supported value. -/
theorem endSupported_kept (val : BitVec 32) (hle : ¬ (params.intervals n).min < val) (hrmask : params.rmask = 0#32)
    (hmoves : MaxMoves (params.intervals n) val) :
    EndSupported S params n val ↔ (close_min (params.intervals n)).min ∈ S := by
  constructor
  · intro hend
    exact (hend.resolve_left (not_not.mpr hrmask)).1 hle
  · intro hmem
    exact Or.inr ⟨fun _ => hmem, fun hkept => absurd hmoves hkept⟩

include h in
theorem ne_zero_of_lt (val : BitVec 32) (hlt : ∀ s ∈ S, num s < num val) : val ≠ 0#32 := by
  rintro rfl
  obtain ⟨s, hs⟩ := h.nonempty
  exact not_num_lt_zero s (hlt s hs)

theorem close_max_not_single (i : SndInterval) (h : interval_is_single i = false) :
    interval_is_single (close_max i) = false := by
  unfold close_max
  split_ifs with hclose
  · unfold interval_is_single at h ⊢
    rw [hclose.2, Bool.and_true, Bool.or_eq_false_iff] at h
    rw [Bool.and_false, Bool.or_false]
    apply beq_eq_false_iff_ne.mpr
    dsimp only
    intro heq
    apply beq_eq_false_iff_ne.mp h.2
    rw [heq, BitVec.sub_add_cancel]
  · exact h

include hS

theorem picks_last (p : SndPcmHwParams) (hp : Starts S (p.intervals n))
    (hsingle : interval_is_single (p.intervals n) = false) (hlt : ∀ s ∈ S, num s < num v.val) :
    Picks S n v.val (_snd_pcm_hw_param_set_last hw p (.interval n) v) ↔ (p.intervals n).max ∈ S := by
  by_cases hmem : (p.intervals n).max ∈ S
  · rw [picks_of_endsWith v _ _ (set_last_ends hS p v ⟨hp.empty, fun hs => by
      rw [hs] at hsingle
      exact Bool.noConfusion hsingle⟩ (hp.openmax hmem) hmem)]
    refine iff_of_true ?_ hmem
    apply isNearest_of_below _ hmem (hlt _ hmem)
    · intro s hs _
      exact le_of_mem_below _ _ _ (hp.supported s hs).2.1
    · intro s hs hle
      exact absurd (hlt s hs) (not_lt.mpr hle)
  · exact iff_of_false (not_picks_of_fails v _ (set_last_fails hS p v hp hsingle (Or.inr hmem))) hmem

theorem picks_first (p : SndPcmHwParams) (hp : Starts S (p.intervals n))
    (hsingle : interval_is_single (p.intervals n) = false) (hge : ∀ s ∈ S, num v.val ≤ num s) :
    Picks S n v.val (_snd_pcm_hw_param_set_first hw p (.interval n) v) ↔ (p.intervals n).min ∈ S := by
  by_cases hmem : (p.intervals n).min ∈ S
  · rw [picks_of_endsWith v _ _ (set_first_ends hS p v ⟨hp.empty, fun hs => by
      rw [hs] at hsingle
      exact Bool.noConfusion hsingle⟩ (hp.openmin hmem) hmem)]
    refine iff_of_true ?_ hmem
    apply isNearest_of_above _ hmem (hge _ hmem)
    · intro s hs _
      exact le_of_mem_above _ _ _ (hp.supported s hs).1
    · intro s hs hlt
      exact absurd hlt (not_lt.mpr (hge s hs))
  · exact iff_of_false (not_picks_of_fails v _ (set_first_fails hS p v hp hsingle (Or.inr hmem))) hmem

theorem picks_first_above (p : SndPcmHwParams) (hull : Hull (Above S v.val) (p.intervals n))
    (hbelow : ∀ s ∈ Below S v.val, num (p.intervals n).min - num v.val ≤ num v.val - num s) :
    Picks S n v.val (_snd_pcm_hw_param_set_first hw p (.interval n) v) := by
  rw [picks_of_endsWith v _ _ (set_first_ends hS p v ⟨hull.empty, hull.single⟩ hull.openmin hull.first.1)]
  exact hull.isNearest_first hbelow

theorem picks_last_below (p : SndPcmHwParams) (hull : Hull (Below S v.val) (p.intervals n))
    (habove : ∀ s ∈ Above S v.val, num v.val - num (p.intervals n).max ≤ num s - num v.val) :
    Picks S n v.val (_snd_pcm_hw_param_set_last hw p (.interval n) v) := by
  have htake : Takeable (p.intervals n) (p.intervals n).max := by
    refine ⟨hull.empty, fun hsingle => ?_⟩
    rw [hull.single hsingle]
    rfl
  rw [picks_of_endsWith v _ _ (set_last_ends hS p v htake hull.openmax hull.last.1)]
  exact hull.isNearest_last habove

omit hS

include hval hdir in
/-- The values below a single one above the request are not looked at. -/
theorem picks_above_single (p1 : SndPcmHwParams) (min : Val)
    (hset : _snd_pcm_hw_param_set_min hw params (.interval n) ⟨v.val, some 0⟩ = some (0, p1, min))
    (hull : Hull (Above S v.val) (p1.intervals n)) (hsingle : interval_is_single (p1.intervals n) = true) :
    Picks S n v.val (_snd_pcm_hw_param_set_near hw params (.interval n) v) ↔ NoneNearer S v.val := by
  have habove := hull.eq_singleton hsingle
  have hends : EndsWith n v (p1.intervals n).min
      (some (0, p1, _snd_pcm_hw_param_get_min p1 (.interval n) v)) := by
    refine ⟨p1, ?_, hull.single hsingle⟩
    unfold _snd_pcm_hw_param_get_min
    dsimp only
    rw [hull.openmin, if_neg Bool.false_ne_true]
  rw [set_near_single hw params n v hval hdir 0 p1 _ hset hull.empty hsingle, picks_of_endsWith v _ _ hends]
  constructor
  · intro hnearest a ha s hs
    rw [habove, Set.singleton_eq_singleton_iff] at ha
    have hdist := hnearest.2 s hs.1
    rw [abs_of_nonneg (sub_nonneg.mpr hull.first.2), abs_of_neg (sub_neg.mpr hs.2), neg_sub] at hdist
    rwa [← ha]
  · exact fun hnearer => hull.isNearest_first fun s hs => hnearer _ habove s hs

include hS h hval hdir

/-- The first value above the request is compared with the last one below. -/
theorem picks_nearer (p1 : SndPcmHwParams)
    (hset : _snd_pcm_hw_param_set_min hw params (.interval n) ⟨v.val, some 0⟩ =
      some (0, p1, ⟨(p1.intervals n).min, some 0⟩))
    (hull : Hull (Above S v.val) (p1.intervals n)) (hsingle : interval_is_single (p1.intervals n) = false)
    (hbelow : (Below S v.val).Nonempty) :
    Picks S n v.val (_snd_pcm_hw_param_set_near hw params (.interval n) v) := by
  by_cases hexact : (p1.intervals n).min = v.val
  · rw [set_near_exact hw params n v hval hdir p1 _ hset hsingle ⟨hexact, rfl⟩]
    apply picks_first_above hS v p1 hull
    intro s hs
    rw [hexact, sub_self]
    exact sub_nonneg.mpr hs.2.le
  have hzero : v.val ≠ 0#32 := by
    obtain ⟨s, -, hlt⟩ := hbelow
    exact fun hzero => not_num_lt_zero s (hzero ▸ hlt)
  have hmoves : MaxMoves (params.intervals n) v.val := by
    by_contra hkept
    exact absurd (below_of_kept h v.val hkept _ hull.first.1) (not_lt.mpr hull.first.2)
  obtain ⟨p2, hset2, hull2⟩ := set_max_refined hS h v.val hzero hbelow (Or.inl hmoves)
  have hlt : num v.val < num (p1.intervals n).min :=
    lt_of_le_of_ne hull.first.2 fun heq => hexact (num_inj _ _ heq).symm
  have hcompare := nearer_iff _ _ _ ((num_lt_iff _ _).mpr hull2.last.2) ((num_lt_iff _ _).mpr hlt)
  rw [set_near_both hw params n v hval hdir p1 p2 _ _ 0 hset hsingle (fun h => hexact h.1) hset2]
  by_cases hnear : boundary_nearer (p2.intervals n).max 0 v.val 0 (p1.intervals n).min 0 = true
  · rw [if_pos ⟨le_refl 0, hnear⟩]
    apply picks_last_below hS v p2 hull2
    intro s hs
    have hfar := hull.least s hs
    have hless := hcompare.mp hnear
    linarith
  · rw [if_neg fun h => hnear h.2]
    apply picks_first_above hS v p1 hull
    intro s hs
    have hfar := hull2.greatest s hs
    have hle := not_lt.mp fun h => hnear (hcompare.mpr h)
    linarith

theorem picks_none (hnone : Above S v.val = ∅) :
    Picks S n v.val (_snd_pcm_hw_param_set_near hw params (.interval n) v) ↔ Good S params n v.val := by
  have hnearer := noneNearer_of_none v.val hnone
  have hlt := lt_of_above_none v.val hnone
  have hmin := min_lt_of_none h v.val hnone
  obtain ⟨err, hset, herr⟩ := set_min_none hS h ⟨v.val, some 0⟩ rfl hnone
  cases hsingle : interval_is_single (params.intervals n) with
  | true =>
    rw [set_near_single hw params n v hval hdir err params _ hset h.empty hsingle,
      picks_of_single v params h hsingle]
    constructor
    · intro hhalf
      exact ⟨hnearer, Or.inr ⟨fun h => absurd hmin h, fun _ => Or.inl hsingle⟩, fun h => hhalf h.1⟩
    · rintro ⟨-, -, hleft⟩ hhalf
      exact hleft ⟨hhalf, Or.inl hmin⟩
  | false =>
    have hleft := not_leftHalfOpen hsingle v.val
    have hzero := ne_zero_of_lt h v.val hlt
    by_cases hcalls : MaxMoves (params.intervals n) v.val ∨ params.rmask ≠ 0#32
    · obtain ⟨s, hs⟩ := h.nonempty
      obtain ⟨p2, hset2, hull⟩ := set_max_refined hS h v.val hzero ⟨s, hs, hlt s hs⟩ hcalls
      rw [set_near_below hw params n v hval hdir p2 _ _ err herr hset hsingle hset2]
      refine iff_of_true ?_ ⟨hnearer, ?_, hleft⟩
      · apply picks_last_below hS v p2 hull
        exact fun s hs => absurd (hlt s hs.1) (not_lt.mpr hs.2)
      · rcases hcalls with hmoves | hrmask
        · exact Or.inr ⟨fun h => absurd hmin h, fun h => absurd hmoves h⟩
        · exact Or.inl hrmask
    · rw [not_or, not_not] at hcalls
      obtain ⟨hkept, hrmask⟩ := hcalls
      obtain ⟨max, hset2⟩ := set_max_kept h v.val hkept hrmask
      rw [set_near_below hw params n v hval hdir _ _ _ err herr hset hsingle hset2]
      have hself := intervals_set_interval params n (close_max (params.intervals n))
      have hstart := (refine_max_kept v.val h hkept).2
      have hlast := picks_last hS v (params.set_interval n (close_max (params.intervals n))) (hself.symm ▸ hstart)
        (hself.symm ▸ close_max_not_single _ hsingle) hlt
      rw [hlast, hself]
      constructor
      · intro hmem
        exact ⟨hnearer, Or.inr ⟨fun h => absurd hmin h, fun _ => Or.inr hmem⟩, hleft⟩
      · rintro ⟨-, hend, -⟩
        have hright := (hend.resolve_left (not_not.mpr hrmask)).2 hkept
        exact hright.resolve_left (by rw [hsingle]; exact Bool.false_ne_true)

include hmax

theorem set_near_first (p1 : SndPcmHwParams) (min : Val)
    (hset : _snd_pcm_hw_param_set_min hw params (.interval n) ⟨v.val, some 0⟩ = some (0, p1, min))
    (hsingle : interval_is_single (p1.intervals n) = false) (hnone : Below S v.val = ∅)
    (hmin : min.val ≤ INT_MAX_U) (hmindir : min.dirOr0 = 0 ∨ min.dirOr0 = 1)
    (hpos : ¬ (min.val = v.val ∧ min.dirOr0 = 0) → v.val = 0#32 → 0#32 ∉ S) :
    _snd_pcm_hw_param_set_near hw params (.interval n) v =
      _snd_pcm_hw_param_set_first hw p1 (.interval n) v := by
  by_cases hexact : min.val = v.val ∧ min.dirOr0 = 0
  · exact set_near_exact hw params n v hval hdir p1 min hset hsingle hexact
  by_cases hzero : v.val = 0#32
  · obtain ⟨err, p2, max, hset2, hmax2⟩ := set_max_zero hS h
    rw [← hzero] at hset2
    rw [set_near_both hw params n v hval hdir p1 p2 min max err hset hsingle hexact hset2, if_neg]
    rintro ⟨herr, hnearer⟩
    obtain ⟨hmem, hmaxdir⟩ := hmax2.resolve_left (not_lt.mpr herr)
    have hne : max.val ≠ 0#32 := fun h => hpos hexact hzero (h ▸ hmem)
    rw [hmaxdir, hzero, not_nearer_zero _ _ _ hne (hmax _ hmem) hmin hmindir] at hnearer
    exact Bool.noConfusion hnearer
  · obtain ⟨err, hset2, herr⟩ := set_max_none hS h v.val hzero hnone
    rw [set_near_both hw params n v hval hdir p1 _ min _ err hset hsingle hexact hset2, if_neg]
    exact fun hboth => absurd herr (not_lt.mpr hboth.1)

/-- The kernel is not asked for the values above the request, as the interval begins there. -/
theorem picks_kept (hle : ¬ (params.intervals n).min < v.val) (hrmask : params.rmask = 0#32) :
    Picks S n v.val (_snd_pcm_hw_param_set_near hw params (.interval n) v) ↔ Good S params n v.val := by
  have hset := @set_min_kept S n hw params h ⟨v.val, some 0⟩ rfl hle hrmask
  have hself := intervals_set_interval params n (close_min (params.intervals n))
  have hj := (refine_min_kept v.val h hle).2
  have hge := le_of_not_min_lt h v.val hle
  have hnone : Below S v.val = ∅ :=
    Set.eq_empty_of_forall_notMem fun s hs => absurd hs.2 (not_lt.mpr (hge s hs.1))
  have hnearer : NoneNearer S v.val := noneNearer_of_below_none v.val hnone
  have hend := @endSupported_kept S n params v.val hle hrmask (moves_of_none h v.val hnone)
  generalize hq : params.set_interval n (close_min (params.intervals n)) = p1 at hset hself
  rw [← hself] at hj
  unfold Good
  rw [hend]
  cases hsingle : interval_is_single (p1.intervals n) with
  | true =>
    obtain ⟨hopen, hsame⟩ := hj.single hsingle
    rw [set_near_single hw params n v hval hdir 0 p1 _ hset hj.empty hsingle, picks_of_single v p1 hj hsingle]
    obtain ⟨s, hs⟩ := hj.nonempty
    have hmem : (close_min (params.intervals n)).min ∈ S := by
      rw [← hself]
      exact hsame s hs ▸ hs
    rw [hself, close_min_halfOpen]
    constructor
    · exact fun hhalf => ⟨hnearer, hmem, fun h => hhalf h.1⟩
    · exact fun hgood hhalf => hgood.2.2 ⟨hhalf, Or.inr hrmask⟩
  | false =>
    have hleft : ¬ LeftHalfOpen params n v.val := by
      rintro ⟨hhalf, -⟩
      rw [hself, halfOpen_single _ ((close_min_halfOpen _).mpr hhalf)] at hsingle
      exact Bool.noConfusion hsingle
    have hminmax : (p1.intervals n).min ≤ INT_MAX_U := by
      obtain ⟨s, hs⟩ := hj.nonempty
      have hfirst := le_of_mem_above _ _ _ (hj.supported s hs).1
      exact BitVec.le_trans ((num_le_iff _ _).mpr hfirst) (hmax s hs)
    rw [set_near_first hS h hmax v hval hdir p1 _ hset hsingle hnone hminmax, picks_first hS v p1 hj hsingle hge,
      hself]
    · exact ⟨fun hmem => ⟨hnearer, hmem, hleft⟩, fun hgood => hgood.2.1⟩
    · unfold _snd_pcm_hw_param_get_min
      dsimp only
      cases (p1.intervals n).openmin
      · exact Or.inl rfl
      · exact Or.inr rfl
    · intro hexact hzero hmem
      have hle := le_of_mem_above _ _ _ (hj.supported _ hmem).1
      have heq : (p1.intervals n).min = 0#32 :=
        num_inj _ _ (le_antisymm hle (not_lt.mp (not_num_lt_zero _)))
      apply hexact
      unfold _snd_pcm_hw_param_get_min
      dsimp only
      rw [hj.openmin (heq ▸ hmem)]
      exact ⟨heq.trans hzero.symm, rfl⟩

theorem picks_refined (hsome : (Above S v.val).Nonempty)
    (hcalls : (params.intervals n).min < v.val ∨ params.rmask ≠ 0#32) :
    Picks S n v.val (_snd_pcm_hw_param_set_near hw params (.interval n) v) ↔ Good S params n v.val := by
  obtain ⟨p1, hset, hull⟩ := set_min_refined hS h ⟨v.val, some 0⟩ rfl hsome hcalls
  have hmoves : MaxMoves (params.intervals n) v.val := by
    by_contra hkept
    obtain ⟨s, hs, hge⟩ := hsome
    exact absurd (below_of_kept h v.val hkept s hs) (not_lt.mpr hge)
  have hend : EndSupported S params n v.val := by
    rcases hcalls with hlt | hrmask
    · exact Or.inr ⟨fun hle => absurd hlt hle, fun hkept => absurd hmoves hkept⟩
    · exact Or.inl hrmask
  have hleft : ¬ LeftHalfOpen params n v.val := by
    rintro ⟨hhalf, hor⟩
    have hlt : (params.intervals n).min < v.val :=
      hor.elim id fun hzero => hcalls.resolve_right (not_not.mpr hzero)
    obtain ⟨s, hs, hge⟩ := hsome
    rw [(h.single (halfOpen_single _ hhalf)).2 s hs] at hge
    rw [num_lt_iff] at hlt
    exact absurd hlt (not_lt.mpr hge)
  have hset' : _snd_pcm_hw_param_set_min hw params (.interval n) ⟨v.val, some 0⟩ =
      some (0, p1, ⟨(p1.intervals n).min, some 0⟩) := hset
  cases hsingle : interval_is_single (p1.intervals n) with
  | true =>
    rw [picks_above_single v hval hdir p1 _ hset' hull hsingle]
    exact ⟨fun hnearer => ⟨hnearer, hend, hleft⟩, fun hgood => hgood.1⟩
  | false =>
    refine iff_of_true ?_ ⟨noneNearer_of_not_single hull hsingle, hend, hleft⟩
    rcases Set.eq_empty_or_nonempty (Below S v.val) with hnone | hbelow
    · rw [set_near_first hS h hmax v hval hdir p1 _ hset' hsingle hnone (hmax _ hull.first.1) (Or.inl rfl)]
      · apply picks_first_above hS v p1 hull
        intro s hs
        rw [hnone] at hs
        exact absurd hs (Set.notMem_empty s)
      · intro hexact hzero hin
        apply hexact
        have hle := hull.least _ ⟨hin, by rw [hzero]⟩
        have heq : (p1.intervals n).min = 0#32 :=
          num_inj _ _ (le_antisymm hle (not_lt.mp (not_num_lt_zero _)))
        exact ⟨heq.trans hzero.symm, rfl⟩
    · exact picks_nearer hS h v hval hdir p1 hset' hull hsingle hbelow

end Search

/-- A nearest supported value is picked just where a single value above the request is one, and the
parameters are to be refined or end well on the side of the request. -/
theorem set_near_picks_iff (S : Finset (BitVec 32)) (n : Fin 12) (hw : HwRefine) (params : SndPcmHwParams)
    (v : Val) (hS : Supports S n hw) (hmax : ∀ s ∈ S, s ≤ INT_MAX_U) (h : Starts S (params.intervals n))
    (hval : v.val ≤ INT_MAX_U) (hdir : v.dirOr0 = 0) :
    Picks S n v.val (_snd_pcm_hw_param_set_near hw params (.interval n) v) ↔
      NoneNearer S v.val ∧ EndSupported S params n v.val ∧ ¬ LeftHalfOpen params n v.val := by
  rcases Set.eq_empty_or_nonempty (Above S v.val) with hnone | hsome
  · exact picks_none hS h v hval hdir hnone
  by_cases hcalls : (params.intervals n).min < v.val ∨ params.rmask ≠ 0#32
  · exact picks_refined hS h hmax v hval hdir hsome hcalls
  · rw [not_or, not_not] at hcalls
    exact picks_kept hS h hmax v hval hdir hcalls.1 hcalls.2

/-! A kernel that supports 10 and 20. -/

def has (i : SndInterval) (s : BitVec 32) : Bool :=
  (if i.openmin then i.min < s else i.min ≤ s) && (if i.openmax then s < i.max else s ≤ i.max)

theorem has_iff (i : SndInterval) (s : BitVec 32) : has i s = true ↔ num s ∈ denote i := by
  obtain ⟨min, max, openmin, openmax, integer, empty⟩ := i
  have hint : integer = true → ∃ z : ℤ, num s = z := fun _ => num_integer s
  cases openmin <;> cases openmax <;>
    simp only [has, denote, Set.mem_ofPred_eq, Bool.false_eq_true, if_true, if_false, Bool.and_eq_true,
      decide_eq_true_eq, mem_above_open, mem_above_closed, mem_below_open, mem_below_closed, num_lt_iff,
      num_le_iff, eq_true hint, and_true]

def ten_or_twenty (n : Fin 12) : HwRefine := fun params =>
  let i := params.intervals n
  if has i 10#32 then
    (0, params.set_interval n { point 10#32 with max := if has i 20#32 then 20#32 else 10#32 })
  else if has i 20#32 then (0, params.set_interval n (point 20#32))
  else (22, params)

theorem ten_or_twenty_supports (n : Fin 12) : Supports {10#32, 20#32} n (ten_or_twenty n) := by
  intro params
  have hinside (s : BitVec 32) : s ∈ Inside {10#32, 20#32} (params.intervals n) ↔
      (s = 10#32 ∨ s = 20#32) ∧ has (params.intervals n) s = true := by
    rw [has_iff]
    unfold Inside
    rw [Set.mem_ofPred_eq, Finset.mem_insert, Finset.mem_singleton]
  have hle : num 10#32 ≤ num 20#32 := by
    unfold num
    norm_num
  unfold ten_or_twenty
  dsimp only
  by_cases hten : has (params.intervals n) 10#32 = true
  · have hmem := (hinside 10#32).mpr ⟨Or.inl rfl, hten⟩
    rw [if_pos hten]
    refine ⟨fun hnone => absurd (hnone ▸ hmem) (Set.notMem_empty _), fun _ => ⟨rfl, ?_⟩⟩
    rw [intervals_set_interval]
    constructor
    · exact hmem
    · intro t ht
      rcases ((hinside t).mp ht).1 with rfl | rfl
      · exact le_refl _
      · exact hle
    · dsimp only
      split_ifs with htwenty
      · exact (hinside 20#32).mpr ⟨Or.inr rfl, htwenty⟩
      · exact hmem
    · intro t ht
      obtain ⟨rfl | rfl, hhas⟩ := (hinside t).mp ht
      · dsimp only
        split_ifs
        · exact hle
        · exact le_refl _
      · dsimp only
        rw [if_pos hhas]
    · rfl
    · rfl
    · rfl
    · rfl
  · rw [if_neg hten]
    by_cases htwenty : has (params.intervals n) 20#32 = true
    · have hmem := (hinside 20#32).mpr ⟨Or.inr rfl, htwenty⟩
      have hall (t : BitVec 32) (ht : t ∈ Inside {10#32, 20#32} (params.intervals n)) : t = 20#32 := by
        obtain ⟨rfl | rfl, hhas⟩ := (hinside t).mp ht
        · exact absurd hhas hten
        · rfl
      rw [if_pos htwenty]
      refine ⟨fun hnone => absurd (hnone ▸ hmem) (Set.notMem_empty _), fun _ => ⟨rfl, ?_⟩⟩
      rw [intervals_set_interval]
      exact ⟨hmem, fun t ht => (hall t ht).symm ▸ le_refl _, hmem, fun t ht => hall t ht ▸ le_refl _, rfl, rfl, rfl,
        rfl⟩
    · rw [if_neg htwenty]
      refine ⟨fun _ => Nat.succ_ne_zero 21, fun ⟨t, ht⟩ => ?_⟩
      obtain ⟨rfl | rfl, hhas⟩ := (hinside t).mp ht
      · exact absurd hhas hten
      · exact absurd hhas htwenty

theorem any_params_starts (n : Fin 12) : Starts {10#32, 20#32} (any_params.intervals n) where
  empty := rfl
  nonempty := ⟨10#32, by decide⟩
  supported := by
    intro s hs
    rw [← has_iff]
    rw [Finset.mem_insert, Finset.mem_singleton] at hs
    obtain rfl | rfl := hs
    · decide +revert
    · decide +revert

theorem ten_or_twenty_max (s : BitVec 32) (hs : s ∈ ({10#32, 20#32} : Finset (BitVec 32))) :
    s ≤ INT_MAX_U := by
  rw [Finset.mem_insert, Finset.mem_singleton] at hs
  obtain rfl | rfl := hs
  · decide
  · decide

/-- For 5 both values are above, and the first is picked. -/
theorem picks_ten : Picks {10#32, 20#32} 3 5#32
    (_snd_pcm_hw_param_set_near (ten_or_twenty 3) any_params (.interval 3) ⟨5#32, none⟩) := by
  refine (set_near_picks_iff {10#32, 20#32} 3 (ten_or_twenty 3) any_params ⟨5#32, none⟩
    (ten_or_twenty_supports 3) ten_or_twenty_max (any_params_starts 3) (by decide) rfl).mpr ⟨?_, ?_, ?_⟩
  · intro a ha
    have hmem (s : BitVec 32) (hs : s ∈ ({10#32, 20#32} : Finset (BitVec 32))) (hle : 5#32 < s) : s = a := by
      have hin : s ∈ Above {10#32, 20#32} 5#32 := ⟨hs, ((num_lt_iff _ _).mp hle).le⟩
      rwa [ha] at hin
    have hten := hmem 10#32 (by decide) (by decide)
    have htwenty := hmem 20#32 (by decide) (by decide)
    exact absurd (hten.trans htwenty.symm) (by decide)
  · exact Or.inl (by decide)
  · rintro ⟨⟨-, -, hopen⟩, -⟩
    exact Bool.noConfusion hopen

/-- For 12 only 20 is above, and is taken, though 10 is nearer. -/
theorem twenty_is_taken : ¬ ∀ (S : Finset (BitVec 32)) (n : Fin 12) (hw : HwRefine) (params : SndPcmHwParams)
    (v : Val), Supports S n hw → (∀ s ∈ S, s ≤ INT_MAX_U) → Starts S (params.intervals n) →
    v.val ≤ INT_MAX_U → v.dirOr0 = 0 →
    Picks S n v.val (_snd_pcm_hw_param_set_near hw params (.interval n) v) := by
  intro h
  obtain ⟨params', v', heq, hnearest, -⟩ := h {10#32, 20#32} 3 (ten_or_twenty 3) any_params ⟨12#32, none⟩
    (ten_or_twenty_supports 3) ten_or_twenty_max (any_params_starts 3) (by decide) rfl
  have heval : (_snd_pcm_hw_param_set_near (ten_or_twenty 3) any_params (.interval 3) ⟨12#32, none⟩).map
      (fun r => r.2.2.val) = some 20#32 := by decide
  rw [heq] at heval
  have hval : v'.val = 20#32 := Option.some.inj heval
  have hdist := hnearest.2 10#32 (by decide)
  rw [hval] at hdist
  unfold num at hdist
  norm_num at hdist

end Salsa.HwParams
