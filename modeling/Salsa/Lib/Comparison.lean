import Mathlib.Order.Defs.LinearOrder
import Mathlib.Order.Lattice

/-!
# Comparisons with an int for the result

The result is negative, 0 or positive, as that of a C function. Where it is a difference in 32 bits, large differences
have the wrong sign.
-/

namespace Comparison

abbrev Cmp (α : Type) := α → α → BitVec 32

/-- A field by its number, and the difference there. -/
abbrev Decision (α : Type) := α → α → Option (Nat × BitVec 32)

variable {α β : Type}

/-- The sign changes with the order of the arguments. -/
def Antisymmetric (cmp : Cmp α) (a b : α) : Prop := (cmp a b).toInt < 0 ↔ 0 < (cmp b a).toInt

def Transitive (cmp : Cmp α) (a b c : α) : Prop := (cmp a b).toInt < 0 → (cmp b c).toInt < 0 → (cmp a c).toInt < 0

/-- The difference that decides is not 2^31, which is its own negative. -/
def Apart (decide : Decision α) (a b : α) : Prop := ∀ f d, decide a b = some (f, d) → d.toInt ≠ -2147483648

/-- Two negative differences in one field do not add up to one below -2^31. -/
def Near (decide : Decision α) (a b c : α) : Prop :=
  ∀ f d e, decide a b = some (f, d) → decide b c = some (f, e) → d.toInt < 0 → e.toInt < 0 →
    -2147483648 ≤ d.toInt + e.toInt

/-- A comparison that is an order just where its differences are small enough. -/
structure Exact (cmp : Cmp α) (decide : Decision α) : Prop where
  zero : ∀ a b, cmp a b = 0#32 ↔ a = b
  antisymmetric : ∀ a b, Antisymmetric cmp a b ↔ Apart decide a b
  transitive : ∀ a b c, Apart decide a b → (Transitive cmp a b c ↔ Near decide a b c)

/-! ## Two numbers -/

def subtract : Cmp (BitVec 32) := fun x y => x - y

def subtract_decision : Decision (BitVec 32) := fun x y => if x = y then none else some (0, x - y)

theorem subtract_zero (x y : BitVec 32) : subtract x y = 0#32 ↔ x = y := by
  unfold subtract
  rw [BitVec.sub_eq_iff_eq_add, BitVec.zero_add]

/-- The difference as an int, up to 2^32. -/
theorem subtract_toInt (x y : BitVec 32) :
    -2147483648 ≤ (subtract x y).toInt ∧ (subtract x y).toInt < 2147483648 ∧
      ((subtract x y).toInt - (x.toInt - y.toInt)) % 4294967296 = 0 := by
  have hbmod : (subtract x y).toInt = (x.toInt - y.toInt).bmod 4294967296 := BitVec.toInt_sub ..
  rw [hbmod, Int.bmod_def]
  split <;> omega

theorem apart_subtract (x y : BitVec 32) : Apart subtract_decision x y ↔ (subtract x y).toInt ≠ -2147483648 := by
  unfold Apart subtract_decision
  by_cases heq : x = y
  · subst heq
    have hself : subtract x x = 0#32 := (subtract_zero x x).mpr rfl
    rw [hself]
    simp
  · simp only [if_neg heq, Option.some.injEq, Prod.mk.injEq, and_imp]
    exact ⟨fun h => h 0 (x - y) rfl rfl, fun h f d _ hd => hd ▸ h⟩

theorem near_subtract (x y z : BitVec 32) : Near subtract_decision x y z ↔
    ((subtract x y).toInt < 0 → (subtract y z).toInt < 0 →
      -2147483648 ≤ (subtract x y).toInt + (subtract y z).toInt) := by
  have hne (a b : BitVec 32) (hneg : (subtract a b).toInt < 0) : a ≠ b := by
    rintro rfl
    rw [(subtract_zero a a).mpr rfl] at hneg
    exact absurd hneg (by decide)
  unfold Near
  constructor
  · intro h hxy hyz
    refine h 0 (subtract x y) (subtract y z) ?_ ?_ hxy hyz
    · exact if_neg (hne x y hxy)
    · exact if_neg (hne y z hyz)
  · intro h f d e hd he hdneg heneg
    unfold subtract_decision at hd he
    split at hd
    · cases hd
    · split at he
      · cases he
      · cases hd
        cases he
        exact h hdneg heneg

theorem exact_subtract : Exact subtract subtract_decision := by
  refine ⟨subtract_zero, fun a b => ?_, fun a b c hapart => ?_⟩
  · rw [apart_subtract]
    unfold Antisymmetric
    have hab := subtract_toInt a b
    have hba := subtract_toInt b a
    omega
  · rw [apart_subtract] at hapart
    rw [near_subtract]
    unfold Transitive
    have hab := subtract_toInt a b
    have hbc := subtract_toInt b c
    have hac := subtract_toInt a c
    omega

/-! ## An order -/

/-- The sign is that of an order. -/
structure IsOrder [LinearOrder α] (cmp : Cmp α) : Prop where
  negative : ∀ a b, (cmp a b).toInt < 0 ↔ a < b
  positive : ∀ a b, 0 < (cmp a b).toInt ↔ b < a

theorem IsOrder.exact [LinearOrder α] {cmp : Cmp α} (h : IsOrder cmp) : Exact cmp fun _ _ => none := by
  have hnone (a b : α) : Apart (fun _ _ => none : Decision α) a b :=
    fun f d hd => absurd hd.symm (Option.some_ne_none _)
  refine ⟨fun a b => ?_, fun a b => iff_of_true ?_ (hnone a b), fun a b c _ => iff_of_true ?_ ?_⟩
  · have hneg := h.negative a b
    have hpos := h.positive a b
    constructor
    · intro hzero
      rw [hzero] at hneg hpos
      exact le_antisymm (not_lt.mp (mt hpos.mpr (by decide))) (not_lt.mp (mt hneg.mpr (by decide)))
    · rintro rfl
      have hzero : (cmp a a).toInt = 0 := Int.le_antisymm (Int.not_lt.mp (mt hpos.mp (lt_irrefl a)))
        (Int.not_lt.mp (mt hneg.mp (lt_irrefl a)))
      exact BitVec.eq_of_toInt_eq hzero
  · exact (h.negative a b).trans (h.positive b a).symm
  · intro hab hbc
    rw [h.negative] at hab hbc ⊢
    exact lt_trans hab hbc
  · exact fun f d e hd => absurd hd.symm (Option.some_ne_none _)

/-! ## One after the other -/

/-- The second decides where the first finds no difference. -/
def chain (first : Cmp α) (second : Cmp β) : Cmp (α × β) :=
  fun a b => if first a.1 b.1 ≠ 0#32 then first a.1 b.1 else second a.2 b.2

def chain_decision [DecidableEq α] (first : Decision α) (second : Decision β) : Decision (α × β) :=
  fun a b => if a.1 = b.1 then (second a.2 b.2).map fun p => (p.1 + 1, p.2) else first a.1 b.1

section Chain

variable {cmp₁ : Cmp α} {cmp₂ : Cmp β} {first : Decision α} {second : Decision β} (h₁ : Exact cmp₁ first)
  (h₂ : Exact cmp₂ second)

include h₁ in
theorem chain_of_eq (a b : α × β) (h : a.1 = b.1) : chain cmp₁ cmp₂ a b = cmp₂ a.2 b.2 := by
  unfold chain
  rw [if_neg (not_not_intro ((h₁.zero a.1 b.1).mpr h))]

include h₁ in
theorem chain_of_ne (a b : α × β) (h : a.1 ≠ b.1) : chain cmp₁ cmp₂ a b = cmp₁ a.1 b.1 := by
  unfold chain
  rw [if_pos (mt (h₁.zero a.1 b.1).mp h)]

variable [DecidableEq α]

theorem apart_of_eq (a b : α × β) (h : a.1 = b.1) :
    Apart (chain_decision first second) a b ↔ Apart second a.2 b.2 := by
  unfold Apart chain_decision
  simp only [if_pos h, Option.map_eq_some_iff, Prod.mk.injEq]
  constructor
  · intro hall f d hd
    exact hall (f + 1) d ⟨(f, d), hd, rfl, rfl⟩
  · rintro hall f d ⟨⟨f', d'⟩, hd, -, rfl⟩
    exact hall f' d' hd

theorem apart_of_ne (a b : α × β) (h : a.1 ≠ b.1) :
    Apart (chain_decision first second) a b ↔ Apart first a.1 b.1 := by
  unfold Apart chain_decision
  simp only [if_neg h]

theorem near_of_eq (a b c : α × β) (hab : a.1 = b.1) (hbc : b.1 = c.1) :
    Near (chain_decision first second) a b c ↔ Near second a.2 b.2 c.2 := by
  unfold Near chain_decision
  simp only [if_pos hab, if_pos hbc, Option.map_eq_some_iff, Prod.mk.injEq]
  constructor
  · intro hall f d e hd he
    exact hall (f + 1) d e ⟨(f, d), hd, rfl, rfl⟩ ⟨(f, e), he, rfl, rfl⟩
  · rintro hall f d e ⟨⟨f', d'⟩, hd, rfl, rfl⟩ ⟨⟨f'', e'⟩, he, heq, rfl⟩
    obtain rfl : f'' = f' := Nat.succ.inj heq
    exact hall f'' d' e' hd he

theorem near_of_ne (a b c : α × β) (hab : a.1 ≠ b.1) (hbc : b.1 ≠ c.1) :
    Near (chain_decision first second) a b c ↔ Near first a.1 b.1 c.1 := by
  unfold Near chain_decision
  simp only [if_neg hab, if_neg hbc]

/-- Differences in two fields do not add up. -/
theorem near_of_fields (hfirst : ∀ x y f d, first x y = some (f, d) → f = 0) (a b c : α × β)
    (h : ¬ (a.1 = b.1 ↔ b.1 = c.1)) : Near (chain_decision first second) a b c := by
  intro f d e hd he
  unfold chain_decision at hd he
  exfalso
  by_cases hab : a.1 = b.1
  · have hbc : b.1 ≠ c.1 := fun hbc => h (iff_of_true hab hbc)
    rw [if_pos hab] at hd
    rw [if_neg hbc] at he
    obtain ⟨p, -, hp⟩ := Option.map_eq_some_iff.mp hd
    have hzero := hfirst _ _ _ _ he
    exact absurd ((Prod.mk.inj hp).1.trans hzero) (Nat.succ_ne_zero _)
  · have hbc : b.1 = c.1 := Classical.byContradiction fun hbc => h (iff_of_false hab hbc)
    rw [if_neg hab] at hd
    rw [if_pos hbc] at he
    obtain ⟨p, -, hp⟩ := Option.map_eq_some_iff.mp he
    have hzero := hfirst _ _ _ _ hd
    exact absurd ((Prod.mk.inj hp).1.trans hzero) (Nat.succ_ne_zero _)

include h₁ h₂

theorem Exact.chain (hfirst : ∀ x y f d, first x y = some (f, d) → f = 0) :
    Exact (chain cmp₁ cmp₂) (chain_decision first second) := by
  refine ⟨fun a b => ?_, fun a b => ?_, fun a b c hapart => ?_⟩
  · by_cases hab : a.1 = b.1
    · rw [chain_of_eq h₁ a b hab, h₂.zero]
      exact ⟨fun h => Prod.ext hab h, fun h => congrArg Prod.snd h⟩
    · rw [chain_of_ne h₁ a b hab, h₁.zero]
      exact iff_of_false hab fun h => hab (congrArg Prod.fst h)
  · unfold Antisymmetric
    by_cases hab : a.1 = b.1
    · rw [chain_of_eq h₁ a b hab, chain_of_eq h₁ b a hab.symm, apart_of_eq a b hab]
      exact h₂.antisymmetric a.2 b.2
    · rw [chain_of_ne h₁ a b hab, chain_of_ne h₁ b a (Ne.symm hab), apart_of_ne a b hab]
      exact h₁.antisymmetric a.1 b.1
  · unfold Transitive
    by_cases hab : a.1 = b.1
    · rw [apart_of_eq a b hab] at hapart
      by_cases hbc : b.1 = c.1
      · rw [chain_of_eq h₁ a b hab, chain_of_eq h₁ b c hbc, chain_of_eq h₁ a c (hab.trans hbc),
          near_of_eq a b c hab hbc]
        exact h₂.transitive a.2 b.2 c.2 hapart
      · refine iff_of_true ?_ (near_of_fields hfirst a b c fun h => hbc (h.mp hab))
        rw [chain_of_ne h₁ b c hbc, chain_of_ne h₁ a c (hab ▸ hbc), hab]
        exact fun _ hneg => hneg
    · rw [apart_of_ne a b hab] at hapart
      by_cases hbc : b.1 = c.1
      · refine iff_of_true ?_ (near_of_fields hfirst a b c fun h => hab (h.mpr hbc))
        rw [chain_of_ne h₁ a b hab, chain_of_ne h₁ a c (hbc ▸ hab), hbc]
        exact fun hneg _ => hneg
      · have hnear := h₁.transitive a.1 b.1 c.1 hapart
        rw [chain_of_ne h₁ a b hab, chain_of_ne h₁ b c hbc, near_of_ne a b c hab hbc]
        by_cases hac : a.1 = c.1
        · -- Two differences that are each other's negative are not both negative.
          have hanti := (h₁.antisymmetric a.1 b.1).mpr hapart
          unfold Antisymmetric at hanti
          rw [hac] at hanti ⊢
          have hnot : ¬ ((cmp₁ c.1 b.1).toInt < 0 ∧ (cmp₁ b.1 c.1).toInt < 0) := by omega
          refine iff_of_true (fun hneg hneg' => absurd ⟨hneg, hneg'⟩ hnot) ?_
          rw [hac] at hnear
          exact hnear.mp fun hneg hneg' => absurd ⟨hneg, hneg'⟩ hnot
        · rw [chain_of_ne h₁ a c hac]
          exact hnear

end Chain

end Comparison
