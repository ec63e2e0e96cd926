import Mathlib.Data.Set.Basic
import Mathlib.Logic.Nontrivial.Basic
import Mathlib.Tactic.ByContra

/-!
# Patterns that are written over memory

What a pattern leaves does not depend on what was there. Units are written, of some bits each, and it is
told bit by bit whether they lie where they were meant to.
-/

namespace Overlay

section Values

variable {α β : Type}

/-- The values of `e`, and those of `v` where it has none. -/
def overlay (e : α → Option β) (v : α → β) : α → β := fun p => (e p).getD (v p)

/-- What is written later lies on top. -/
theorem overlay_overlay (e e' : α → Option β) (v : α → β) :
    overlay e' (overlay e v) = overlay (fun p => (e' p).or (e p)) v := by
  funext p
  unfold overlay
  cases h : e' p with
  | none => simp only [h, Option.getD_none, Option.none_or]
  | some b => simp only [h, Option.getD_some, Option.some_or]

/-- The places of `I` have their values, and nothing else is changed. -/
structure Written {ι : Type} (I : Set ι) (place : ι → α) (value : ι → β) (v v' : α → β) : Prop where
  value : ∀ i ∈ I, v' (place i) = value i
  kept : ∀ p, (∀ i ∈ I, p ≠ place i) → v' p = v p

/-- What is written twice has to be the same twice. -/
theorem Written.append {ι : Type} {I J : Set ι} {place : ι → α} {value : ι → β} {v v' v'' : α → β}
    (h : Written I place value v v') (h' : Written J place value v' v'')
    (hagree : ∀ i ∈ I, ∀ j ∈ J, place i = place j → value i = value j) :
    Written (I ∪ J) place value v v'' := by
  constructor
  · rintro i (hi | hi)
    · by_cases hlater : ∃ j ∈ J, place i = place j
      · obtain ⟨j, hj, hplace⟩ := hlater
        rw [hplace, h'.value j hj, hagree i hi j hj hplace]
      · rw [h'.kept (place i) fun j hj heq => hlater ⟨j, hj, heq⟩, h.value i hi]
    · exact h'.value i hi
  · intro p hp
    rw [h'.kept p fun j hj => hp j (.inr hj), h.kept p fun i hi => hp i (.inl hi)]

/-- Places that are one have one value. -/
theorem Written.agree {ι : Type} {I : Set ι} {place : ι → α} {value : ι → β} {v v' : α → β}
    (h : Written I place value v v') {i j : ι} (hi : i ∈ I) (hj : j ∈ I) (hplace : place i = place j) :
    value i = value j := by
  rw [← h.value i hi, hplace, h.value j hj]

/-- The places by other names. -/
theorem Written.image {ι κ : Type} {I : Set κ} {f : κ → ι} {place : ι → α} {value : ι → β} {v v' : α → β}
    (h : Written I (fun i => place (f i)) (fun i => value (f i)) v v') : Written (f '' I) place value v v' := by
  constructor
  · rintro - ⟨i, hi, rfl⟩
    exact h.value i hi
  · exact fun p hp => h.kept p fun i hi => hp (f i) ⟨i, hi, rfl⟩

/-- It is seen in memories of which two differ at each place. -/
theorem overlay_written_iff {ι μ : Type} (I : Set ι) (place : ι → α) (value : ι → β) (e : α → Option β)
    (view : μ → α → β) (hview : ∀ p, ∃ m m', view m p ≠ view m' p) :
    (∀ m, Written I place value (view m) (overlay e (view m))) ↔
      (∀ i ∈ I, e (place i) = some (value i)) ∧ ∀ p, (∀ i ∈ I, p ≠ place i) → e p = none := by
  constructor
  · intro h
    constructor
    · intro i hi
      obtain ⟨m, m', hne⟩ := hview (place i)
      have hm := (h m).value i hi
      have hm' := (h m').value i hi
      unfold overlay at hm hm'
      cases he : e (place i) with
      | none =>
        rw [he] at hm hm'
        exact absurd (hm.trans hm'.symm) hne
      | some b =>
        rw [he] at hm
        exact congrArg some hm
    · intro p hp
      obtain ⟨m, m', hne⟩ := hview p
      have hm := (h m).kept p hp
      have hm' := (h m').kept p hp
      unfold overlay at hm hm'
      cases he : e p with
      | none => rfl
      | some b =>
        rw [he] at hm hm'
        exact absurd (hm.symm.trans hm') hne
  · rintro ⟨hvalue, hkept⟩ m
    constructor
    · intro i hi
      unfold overlay
      rw [hvalue i hi]
      rfl
    · intro p hp
      unfold overlay
      rw [hkept p hp]
      rfl

/-- Overlays that leave the same of every memory are the same. -/
theorem overlay_inj [Nontrivial β] {e e' : α → Option β} (h : ∀ v, overlay e v = overlay e' v) : e = e' := by
  obtain ⟨x, y, hxy⟩ := exists_pair_ne β
  funext a
  have hx := congrFun (h fun _ => x) a
  have hy := congrFun (h fun _ => y) a
  unfold overlay at hx hy
  cases he : e a with
  | none =>
    cases he' : e' a with
    | none => rfl
    | some b =>
      rw [he, he'] at hx hy
      exact absurd (hx.trans hy.symm) hxy
  | some b =>
    cases he' : e' a with
    | none =>
      rw [he, he'] at hx hy
      exact absurd (hx.symm.trans hy) hxy
    | some b' =>
      rw [he, he'] at hx
      exact congrArg some hx

end Values

/-! ## Blocks at a distance -/

section Blocks

variable {β : Type} (pat : Nat → β) (width step : Nat)

def block (dst a : Nat) : Option β := if dst ≤ a ∧ a < dst + width then some (pat (a - dst)) else none

def blocks : Nat → Nat → Nat → Option β
  | 0, _, _ => none
  | samples + 1, dst, a => (blocks samples (dst + step) a).or (block pat width dst a)

theorem blocks_one (dst : Nat) : blocks pat width step 1 dst = block pat width dst := by
  funext a
  exact Option.none_or

variable {pat width step} {samples dst a : Nat}

theorem blocks_eq_some {b : β} (h : blocks pat width step samples dst a = some b) :
    ∃ k < samples, ∃ i < width, a = dst + k * step + i ∧ b = pat i := by
  induction samples generalizing dst with
  | zero => cases h
  | succ samples ih =>
    rcases Option.or_eq_some_iff.mp h with hlater | ⟨-, hfirst⟩
    · obtain ⟨k, hk, i, hi, ha, hb⟩ := ih hlater
      refine ⟨k + 1, by omega, i, hi, ?_, hb⟩
      rw [Nat.add_mul, Nat.one_mul]
      omega
    · unfold block at hfirst
      split at hfirst
      · cases hfirst
        refine ⟨0, by omega, a - dst, by omega, ?_, rfl⟩
        rw [Nat.zero_mul]
        omega
      · cases hfirst

theorem blocks_eq_none_iff :
    blocks pat width step samples dst a = none ↔ ∀ k < samples, ∀ i < width, a ≠ dst + k * step + i := by
  constructor
  · induction samples generalizing dst with
    | zero => exact fun _ k hk => absurd hk (Nat.not_lt_zero k)
    | succ samples ih =>
      intro h k hk i hi
      obtain ⟨hlater, hfirst⟩ := Option.or_eq_none_iff.mp h
      cases k with
      | zero =>
        unfold block at hfirst
        split at hfirst
        · cases hfirst
        · rw [Nat.zero_mul]
          omega
      | succ k =>
        have hne := ih hlater k (by omega) i hi
        rw [Nat.add_mul, Nat.one_mul]
        omega
  · intro h
    by_contra hne
    obtain ⟨b, hb⟩ := Option.ne_none_iff_exists'.mp hne
    obtain ⟨k, hk, i, hi, ha, -⟩ := blocks_eq_some hb
    exact h k hk i hi ha

/-- The pattern repeats itself where blocks overlap. -/
theorem repeats_of_step (h : ∀ i, step + i < width → pat (step + i) = pat i) (d i : Nat) (hi : d * step + i < width) :
    pat (d * step + i) = pat i := by
  induction d with
  | zero => rw [Nat.zero_mul, Nat.zero_add]
  | succ d ih =>
    rw [Nat.add_mul, Nat.one_mul] at hi ⊢
    rw [Nat.add_comm (d * step), Nat.add_assoc, h _ (by omega), ih (by omega)]

/-- Then it does not matter which block was written last. -/
theorem blocks_of_repeats (h : 1 < samples → ∀ i, step + i < width → pat (step + i) = pat i) (k i : Nat)
    (hk : k < samples) (hi : i < width) :
    blocks pat width step samples dst (dst + k * step + i) = some (pat i) := by
  have hcovered : blocks pat width step samples dst (dst + k * step + i) ≠ none :=
    fun hnone => blocks_eq_none_iff.mp hnone k hk i hi rfl
  obtain ⟨b, hb⟩ := Option.ne_none_iff_exists'.mp hcovered
  obtain ⟨l, hl, j, hj, hlj, rfl⟩ := blocks_eq_some hb
  rw [hb]
  congr 1
  rcases Nat.lt_trichotomy k l with hlt | rfl | hlt
  · obtain ⟨d, rfl⟩ := Nat.exists_eq_add_of_lt hlt
    rw [Nat.add_assoc k, Nat.add_mul] at hlj
    obtain rfl : i = (d + 1) * step + j := by omega
    exact (repeats_of_step (h (by omega)) _ j hi).symm
  · rw [Nat.add_left_cancel hlj]
  · obtain ⟨d, rfl⟩ := Nat.exists_eq_add_of_lt hlt
    rw [Nat.add_assoc l, Nat.add_mul] at hlj
    obtain rfl : j = (d + 1) * step + i := by omega
    exact repeats_of_step (h (by omega)) _ i hj

/-- Blocks next to each other are one block. -/
theorem blocks_packed (hwidth : 0 < width) :
    blocks pat width width samples dst = block (fun i => pat (i % width)) (samples * width) dst := by
  funext a
  unfold block
  cases h : blocks pat width width samples dst a with
  | some b =>
    obtain ⟨k, hk, i, hi, rfl, rfl⟩ := blocks_eq_some h
    have hle : (k + 1) * width ≤ samples * width := Nat.mul_le_mul_right _ hk
    rw [Nat.add_mul, Nat.one_mul] at hle
    rw [if_pos (by omega), Nat.add_assoc, Nat.add_sub_cancel_left]
    dsimp only
    rw [Nat.add_comm, Nat.add_mul_mod_self_right, Nat.mod_eq_of_lt hi]
  | none =>
    rw [if_neg]
    rintro ⟨hle, hlt⟩
    have hdiv := Nat.div_add_mod (a - dst) width
    rw [Nat.mul_comm] at hdiv
    refine blocks_eq_none_iff.mp h ((a - dst) / width) ?_ ((a - dst) % width) (Nat.mod_lt _ hwidth) ?_
    · rw [Nat.div_lt_iff_lt_mul hwidth]
      omega
    · omega

theorem block_inj {pat' : Nat → β} {width' : Nat} :
    block pat width dst = block pat' width' dst ↔ width = width' ∧ ∀ i < width, pat i = pat' i := by
  constructor
  · intro h
    have hat (i : Nat) : (if i < width then some (pat i) else none) = if i < width' then some (pat' i) else none := by
      have ha := congrFun h (dst + i)
      unfold block at ha
      simpa using ha
    have hle : width = width' := by
      rcases Nat.lt_trichotomy width width' with hlt | heq | hlt
      · have ha := hat width
        rw [if_neg (Nat.lt_irrefl _), if_pos hlt] at ha
        cases ha
      · exact heq
      · have ha := hat width'
        rw [if_neg (Nat.lt_irrefl _), if_pos hlt] at ha
        cases ha
    refine ⟨hle, fun i hi => ?_⟩
    have ha := hat i
    rw [if_pos hi, if_pos (hle ▸ hi)] at ha
    exact Option.some.inj ha
  · rintro ⟨rfl, h⟩
    funext a
    unfold block
    by_cases ha : dst ≤ a ∧ a < dst + width
    · rw [if_pos ha, if_pos ha, h (a - dst) (by omega)]
    · rw [if_neg ha, if_neg ha]

end Blocks

/-! ## Bits -/

section Bits

variable {u : Nat}

/-- Bit `p`, where bit 0 of a unit is its highest one. -/
def bits (v : Nat → BitVec u) (p : Nat) : Bool := (v (p / u)).getMsbD (p % u)

def bits_of (e : Nat → Option (BitVec u)) (p : Nat) : Option Bool := (e (p / u)).map fun b => b.getMsbD (p % u)

theorem bits_overlay (e : Nat → Option (BitVec u)) (v : Nat → BitVec u) :
    bits (overlay e v) = overlay (bits_of e) (bits v) := by
  funext p
  unfold bits overlay bits_of
  cases e (p / u) <;> rfl

theorem bits_differ (hu : 0 < u) (p : Nat) : ∃ v v' : Nat → BitVec u, bits v p ≠ bits v' p := by
  refine ⟨fun _ => 0#u, fun _ => BitVec.allOnes u, ?_⟩
  unfold bits
  simp [Nat.mod_lt p hu]

theorem bits_at (hu : 0 < u) (v : Nat → BitVec u) (a i : Nat) : bits v (u * a + i) = bits (fun j => v (a + j)) i := by
  unfold bits
  rw [Nat.mul_add_div hu, Nat.mul_add_mod]

theorem bits_of_at (hu : 0 < u) (e : Nat → Option (BitVec u)) (a i : Nat) :
    bits_of e (u * a + i) = bits_of (fun j => e (a + j)) i := by
  unfold bits_of
  rw [Nat.mul_add_div hu, Nat.mul_add_mod]

theorem bits_of_eq_none (e : Nat → Option (BitVec u)) (p : Nat) : bits_of e p = none ↔ e (p / u) = none :=
  Option.map_eq_none_iff

/-- Blocks that lie as the samples do, and agree where they overlap. -/
structure Fitting (pat : Nat → BitVec u) (width step samples dst first distance : Nat) : Prop where
  first : first = u * dst
  distance : 1 < samples → distance = u * step
  repeats : 1 < samples → ∀ i, step + i < width → pat (step + i) = pat i

/-- The bits of the samples: which one, and which bit of it. -/
def sample_bits (u width samples : Nat) : Set (Nat × Nat) := {ki | ki.1 < samples ∧ ki.2 < u * width}

variable {pat : Nat → BitVec u} {width step samples dst first distance : Nat}

theorem Fitting.place (h : Fitting pat width step samples dst first distance) (k : Nat) (hk : k < samples) :
    first + k * distance = u * (dst + k * step) := by
  rw [h.first, Nat.mul_add]
  by_cases hone : 1 < samples
  · rw [h.distance hone, Nat.mul_left_comm]
  · obtain rfl : k = 0 := by omega
    rw [Nat.zero_mul, Nat.zero_mul, Nat.mul_zero]

/-- The bits that are written are the ones that are meant. -/
structure Exact (pat : Nat → BitVec u) (width step samples dst first distance : Nat) : Prop where
  value : ∀ ki ∈ sample_bits u width samples,
    bits_of (blocks pat width step samples dst) (first + ki.1 * distance + ki.2) = some (bits pat ki.2)
  kept : ∀ p, (∀ ki ∈ sample_bits u width samples, p ≠ first + ki.1 * distance + ki.2) →
    bits_of (blocks pat width step samples dst) p = none

theorem exact_of_fitting (hu : 0 < u) (h : Fitting pat width step samples dst first distance) :
    Exact pat width step samples dst first distance := by
  constructor
  · rintro ⟨k, i⟩ ⟨hk, hi⟩
    have hunit : i / u < width := Nat.div_lt_of_lt_mul hi
    dsimp only
    rw [h.place k hk, bits_of_at hu, bits_of, blocks_of_repeats h.repeats k _ hk hunit]
    rfl
  · intro p hp
    rw [bits_of_eq_none, blocks_eq_none_iff]
    intro k hk j hj hunit
    have hlt : p % u < u := Nat.mod_lt p hu
    have hmul : u * j + u ≤ u * width := by
      rw [← Nat.mul_succ]
      exact Nat.mul_le_mul_left u hj
    refine hp (k, u * j + p % u) ⟨hk, by dsimp only; omega⟩ ?_
    dsimp only
    rw [h.place k hk, ← Nat.add_assoc, ← Nat.mul_add, ← hunit, Nat.div_add_mod]

section Exact

variable (h : Exact pat width step samples dst first distance)

include h

/-- A bit that is meant lies in a block. -/
theorem Exact.covered (k i : Nat) (hk : k < samples) (hi : i < u * width) :
    ∃ l < samples, ∃ j < width, (first + k * distance + i) / u = dst + l * step + j := by
  by_contra hnot
  have hnone : blocks pat width step samples dst ((first + k * distance + i) / u) = none :=
    blocks_eq_none_iff.mpr fun l hl j hj heq => hnot ⟨l, hl, j, hj, heq⟩
  have hvalue := h.value (k, i) ⟨hk, hi⟩
  rw [(bits_of_eq_none _ _).mpr hnone] at hvalue
  cases hvalue

/-- A bit of a block is meant. -/
theorem Exact.meant (hu : 0 < u) (l j b : Nat) (hl : l < samples) (hj : j < width) (hb : b < u) :
    ∃ k < samples, ∃ i < u * width, u * (dst + l * step + j) + b = first + k * distance + i := by
  by_contra hnot
  have hnone := h.kept (u * (dst + l * step + j) + b) fun ki hki heq => hnot ⟨ki.1, hki.1, ki.2, hki.2, heq⟩
  rw [bits_of_eq_none, Nat.mul_add_div hu, Nat.div_eq_of_lt hb, Nat.add_zero] at hnone
  exact blocks_eq_none_iff.mp hnone l hl j hj rfl

/-- The first bit of all is the same. -/
theorem Exact.first_eq (hu : 0 < u) (hwidth : 0 < width) (hsamples : 0 < samples) : first = u * dst := by
  obtain ⟨l, -, j, -, hcovered⟩ := h.covered 0 0 hsamples (Nat.mul_pos hu hwidth)
  obtain ⟨k, -, i, -, hmeant⟩ := h.meant hu 0 0 0 hsamples hwidth hu
  have hle : dst * u ≤ first := by
    rw [← Nat.le_div_iff_mul_le hu]
    simp only [Nat.zero_mul, Nat.add_zero] at hcovered
    omega
  simp only [Nat.zero_mul, Nat.add_zero] at hmeant
  rw [Nat.mul_comm] at hle
  omega

/-- So is the last one. -/
theorem Exact.distance_eq (hu : 0 < u) (hwidth : 0 < width) (hsamples : 1 < samples) : distance = u * step := by
  obtain ⟨n, rfl⟩ := Nat.exists_eq_add_of_lt hsamples
  have hfirst := h.first_eq hu hwidth (by omega)
  have hpos := Nat.mul_pos hu hwidth
  obtain ⟨l, hl, j, hj, hcovered⟩ := h.covered (1 + n) (u * width - 1) (by omega) (by omega)
  obtain ⟨k, hk, i, hi, hmeant⟩ := h.meant hu (1 + n) (width - 1) (u - 1) (by omega) (by omega) (by omega)
  have hlast : l * step ≤ (1 + n) * step := Nat.mul_le_mul_right _ (by omega)
  have hlast' : k * distance ≤ (1 + n) * distance := Nat.mul_le_mul_right _ (by omega)
  have hlt : (first + (1 + n) * distance + (u * width - 1)) / u < dst + (1 + n) * step + width := by omega
  rw [Nat.div_lt_iff_lt_mul hu, Nat.mul_comm _ u, Nat.mul_add, Nat.mul_add] at hlt
  rw [Nat.mul_add, Nat.mul_add, Nat.mul_sub, Nat.mul_one] at hmeant
  have hle : u * 1 ≤ u * width := Nat.mul_le_mul_left u hwidth
  have hmul : (1 + n) * distance = (1 + n) * (u * step) := by
    rw [Nat.mul_left_comm]
    omega
  exact Nat.eq_of_mul_eq_mul_left (by omega) hmul

theorem Exact.repeats_pat (hu : 0 < u) (hwidth : 0 < width) (hsamples : 1 < samples) (i : Nat) (hi : step + i < width) :
    pat (step + i) = pat i := by
  have hdistance := h.distance_eq hu hwidth hsamples
  have hbound (j : Nat) (hj : j < width) : u * j + u ≤ u * width := by
    rw [← Nat.mul_succ]
    exact Nat.mul_le_mul_left u hj
  apply BitVec.eq_of_getMsbD_eq
  intro b hb
  have hzero := h.value (0, u * (step + i) + b) ⟨by dsimp only; omega, by
    have hle := hbound (step + i) hi
    dsimp only
    omega⟩
  have hone := h.value (1, u * i + b) ⟨hsamples, by
    have hle := hbound i (by omega)
    dsimp only
    omega⟩
  have hplace : first + 0 * distance + (u * (step + i) + b) = first + 1 * distance + (u * i + b) := by
    rw [hdistance, Nat.mul_add]
    omega
  dsimp only at hzero hone
  rw [hplace, hone] at hzero
  have hbits := Option.some.inj hzero
  rw [bits_at hu, bits_at hu] at hbits
  unfold bits at hbits
  rw [Nat.div_eq_of_lt hb, Nat.mod_eq_of_lt hb] at hbits
  exact hbits.symm

end Exact

/-- The blocks of each memory are right if and only if they lie as the samples do. -/
theorem blocks_written_iff (hu : 0 < u) (hwidth : 0 < width) (hsamples : 0 < samples) :
    (∀ v, Written (sample_bits u width samples) (fun ki => first + ki.1 * distance + ki.2) (fun ki => bits pat ki.2)
        (bits v) (bits (overlay (blocks pat width step samples dst) v))) ↔
      Fitting pat width step samples dst first distance := by
  simp only [bits_overlay]
  rw [overlay_written_iff _ _ _ _ _ (bits_differ hu)]
  constructor
  · rintro ⟨hvalue, hkept⟩
    have h : Exact pat width step samples dst first distance := ⟨hvalue, hkept⟩
    exact ⟨h.first_eq hu hwidth hsamples, h.distance_eq hu hwidth, h.repeats_pat hu hwidth⟩
  · intro h
    have hexact := exact_of_fitting hu h
    exact ⟨hexact.value, hexact.kept⟩

end Bits

end Overlay
