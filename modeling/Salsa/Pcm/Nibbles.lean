import Salsa.Pcm.Copy

/-!
# Samples of 4 bits

Memory as a sequence of nibbles, of which the one at bit 0 of a byte is its high one. A nibble that is
copied stays in its half of the byte.
-/

namespace Salsa.Pcm.Samples

open CInt Moves

def high (b : BitVec 8) : BitVec 4 := b.extractLsb' 4 4

def low (b : BitVec 8) : BitVec 4 := b.extractLsb' 0 4

/-- Nibble `p` of the memory. -/
def nibble (m : Mem) (p : Nat) : BitVec 4 := if p % 2 = 0 then high (m (p / 2)) else low (m (p / 2))

/-- The memory with these nibbles. -/
def of_nibbles (v : Nat → BitVec 4) : Mem := fun a => v (2 * a) ++ v (2 * a + 1)

theorem high_and_low (b : BitVec 8) : high (b &&& 0x0f#8) = 0#4 := by revert b; decide
theorem high_and_high (b : BitVec 8) : high (b &&& 0xf0#8) = high b := by revert b; decide
theorem low_and_low (b : BitVec 8) : low (b &&& 0x0f#8) = low b := by revert b; decide
theorem low_and_high (b : BitVec 8) : low (b &&& 0xf0#8) = 0#4 := by revert b; decide

theorem high_or (b c : BitVec 8) : high (b ||| c) = high b ||| high c := BitVec.extractLsb'_or

theorem low_or (b c : BitVec 8) : low (b ||| c) = low b ||| low c := BitVec.extractLsb'_or

theorem high_append (u v : BitVec 4) : high (u ++ v) = u := by revert u v; decide

theorem low_append (u v : BitVec 4) : low (u ++ v) = v := by revert u v; decide

theorem nibble_of_nibbles (v : Nat → BitVec 4) : nibble (of_nibbles v) = v := by
  funext p
  unfold nibble of_nibbles
  by_cases hp : p % 2 = 0
  · rw [if_pos hp, high_append, show 2 * (p / 2) = p by omega]
  · rw [if_neg hp, low_append, show 2 * (p / 2) + 1 = p by omega]

/-- The nibbles of a memory with another byte at `a`. -/
theorem nibble_set (m : Mem) (a p : Nat) (b : BitVec 8) :
    nibble (m.set a b) p = if p / 2 = a then if p % 2 = 0 then high b else low b else nibble m p := by
  unfold nibble Mem.set
  by_cases hp : p / 2 = a
  · rw [if_pos hp, hp, Function.update_self]
  · rw [if_neg hp, Function.update_of_ne hp]

/-! ## One sample -/

/-- The nibble is cleared. -/
def clear (v : Nat → BitVec 4) (t : Nat) : Nat → BitVec 4 := Function.update v t 0#4

/-- The other nibble of the byte. -/
def other (t : Nat) : Nat := if t % 2 = 0 then t + 1 else t - 1

/-- A nibble is copied if both places are of one half; or else it is added to the other half. -/
def put (v : Nat → BitVec 4) (t s : Nat) : Nat → BitVec 4 :=
  if t % 2 = s % 2 then Function.update v t (v s) else Function.update (clear v t) (other t) (v (other t) ||| v s)

theorem other_ne (t : Nat) : other t ≠ t := by
  unfold other
  split <;> omega

/-- The byte and the bit of a place. -/
structure At (a bit p : Nat) : Prop where
  byte : p / 2 = a
  bit : bit = 4 * (p % 2)

theorem nibble_clear (m : Mem) (a bit t : Nat) (h : At a bit t) :
    nibble (m.set a (if bit ≠ 0 then m a &&& 0xf0#8 else m a &&& 0x0f#8)) = clear (nibble m) t := by
  obtain ⟨rfl, rfl⟩ := h
  funext p
  unfold clear
  rw [nibble_set]
  by_cases hpt : p = t
  · subst hpt
    rw [if_pos rfl, Function.update_self]
    by_cases hp : p % 2 = 0
    · rw [if_pos hp, if_neg (by omega), high_and_low]
    · rw [if_neg hp, if_pos (by omega), low_and_high]
  · rw [Function.update_of_ne hpt]
    by_cases hbyte : p / 2 = t / 2
    · rw [if_pos hbyte, nibble, hbyte]
      by_cases hp : p % 2 = 0
      · rw [if_pos hp, if_pos hp, if_pos (by omega), high_and_high]
      · rw [if_neg hp, if_neg hp, if_neg (by omega), low_and_low]
    · rw [if_neg hbyte]

/-- The half of a byte that a nibble has. -/
def half (b : BitVec 8) (p : Nat) : BitVec 4 := if p % 2 = 0 then high b else low b

theorem half_or (b c : BitVec 8) (p : Nat) : half (b ||| c) p = half b p ||| half c p := by
  unfold half
  split
  · exact high_or b c
  · exact low_or b c

theorem half_nibble (m : Mem) (p : Nat) : half (m (p / 2)) p = nibble m p := rfl

/-- What is taken from the source. -/
theorem half_srcval (m : Mem) (a bit s p : Nat) (h : At a bit s) :
    half (if bit ≠ 0 then m a &&& 0x0f#8 else m a &&& 0xf0#8) p = if p % 2 = s % 2 then nibble m s else 0#4 := by
  obtain ⟨rfl, rfl⟩ := h
  unfold half nibble
  by_cases hs : s % 2 = 0
  · have hbit : ¬ 4 * (s % 2) ≠ 0 := by omega
    rw [if_neg hbit, if_pos hs]
    by_cases hp : p % 2 = 0
    · rw [if_pos hp, if_pos (by omega), high_and_high]
    · rw [if_neg hp, if_neg (by omega), low_and_high]
  · have hbit : 4 * (s % 2) ≠ 0 := by omega
    rw [if_pos hbit, if_neg hs]
    by_cases hp : p % 2 = 0
    · rw [if_pos hp, if_neg (by omega), high_and_low]
    · rw [if_neg hp, if_pos (by omega), low_and_low]

theorem byte_iff (p t : Nat) : p / 2 = t / 2 ↔ p = t ∨ p = other t := by
  unfold other
  split <;> omega

theorem nibble_put (m : Mem) (a bit t a' bit' s : Nat) (ht : At a bit t) (hs : At a' bit' s) :
    nibble (
      let srcval := if bit' ≠ 0 then m a' &&& 0x0f#8 else m a' &&& 0xf0#8
      let m := m.set a (if bit ≠ 0 then m a &&& 0xf0#8 else m a &&& 0x0f#8)
      m.set a (m a ||| srcval)) = put (nibble m) t s := by
  have hclear := nibble_clear m a bit t ht
  have hsrcval := half_srcval m a' bit' s
  dsimp only
  set m₁ := m.set a (if bit ≠ 0 then m a &&& 0xf0#8 else m a &&& 0x0f#8)
  funext p
  rw [nibble_set]
  change (if p / 2 = a then half (m₁ a ||| _) p else _) = _
  rw [half_or, hsrcval p hs, hclear]
  unfold put
  by_cases hbyte : p / 2 = a
  · have hpt : p / 2 = t / 2 := hbyte.trans ht.byte.symm
    rw [if_pos hbyte, ← hbyte, half_nibble, hclear]
    rcases (byte_iff p t).mp hpt with rfl | hother
    · have hcleared : clear (nibble m) p p = 0#4 := Function.update_self ..
      rw [hcleared, BitVec.zero_or]
      by_cases hphase : p % 2 = s % 2
      · rw [if_pos hphase, if_pos hphase, Function.update_self]
      · rw [if_neg hphase, if_neg hphase, Function.update_of_ne (other_ne p).symm, hcleared]
    · have hne : p ≠ t := hother ▸ other_ne t
      have hhalf : p % 2 ≠ t % 2 := by omega
      have hkept : clear (nibble m) t p = nibble m p := Function.update_of_ne hne _ _
      rw [hkept]
      by_cases hphase : t % 2 = s % 2
      · rw [if_pos hphase, if_neg (by omega), BitVec.or_zero, Function.update_of_ne hne]
      · rw [if_neg hphase, if_pos (by omega), ← hother, Function.update_self]
  · have hpt : ¬ (p = t ∨ p = other t) := by
      rw [← byte_iff, ht.byte]
      exact hbyte
    rw [not_or] at hpt
    have hkept : clear (nibble m) t p = nibble m p := Function.update_of_ne hpt.1 _ _
    rw [if_neg hbyte, hkept]
    by_cases hphase : t % 2 = s % 2
    · rw [if_pos hphase, Function.update_of_ne hpt.1]
    · rw [if_neg hphase, Function.update_of_ne hpt.2, hkept]

/-! ## The loops -/

/-- The nibbles that the loop of a copy leaves. -/
def put_loop (src_step dst_step : Nat) : Nat → Nat → Nat → (Nat → BitVec 4) → Nat → BitVec 4
  | 0, _, _, v => v
  | samples + 1, t, s, v => put_loop src_step dst_step samples (t + dst_step) (s + src_step) (put v t s)

/-- One step on, for a step of bits that is a multiple of 4. -/
theorem At.next {a bit p step : Nat} (h : At a bit p) (hstep : 4 ∣ step) :
    (bit + step % 8 = 8 → At (a + step / 8 + 1) 0 (p + step / 4)) ∧
      (bit + step % 8 ≠ 8 → At (a + step / 8) (bit + step % 8) (p + step / 4)) := by
  obtain ⟨rfl, rfl⟩ := h
  obtain ⟨n, rfl⟩ := hstep
  rw [Nat.mul_div_cancel_left _ (by decide)]
  constructor
  · intro hbit
    constructor <;> omega
  · intro hbit
    constructor <;> omega

theorem nibble_copy_loop (src_step dst_step samples a' bit' s a bit t : Nat) (m : Mem) (hsrc : 4 ∣ src_step)
    (hdst : 4 ∣ dst_step) (hs : At a' bit' s) (ht : At a bit t) :
    nibble (copy_4bit_loop (src_step / 8) (src_step % 8) (dst_step / 8) (dst_step % 8) samples a' bit' a bit m) =
      put_loop (src_step / 4) (dst_step / 4) samples t s (nibble m) := by
  induction samples generalizing a' bit' s a bit t m with
  | zero => rfl
  | succ samples ih =>
    have hput := nibble_put m a bit t a' bit' s ht hs
    obtain ⟨hsrc_wrap, hsrc_next⟩ := hs.next hsrc
    obtain ⟨hdst_wrap, hdst_next⟩ := ht.next hdst
    dsimp only at hput
    unfold copy_4bit_loop put_loop
    dsimp only
    rw [← hput]
    by_cases hsbit : bit' + src_step % 8 = 8 <;> by_cases htbit : bit + dst_step % 8 = 8
    · rw [if_pos hsbit, if_pos htbit]
      exact ih _ _ _ _ _ _ _ (hsrc_wrap hsbit) (hdst_wrap htbit)
    · rw [if_pos hsbit, if_neg htbit]
      exact ih _ _ _ _ _ _ _ (hsrc_wrap hsbit) (hdst_next htbit)
    · rw [if_neg hsbit, if_pos htbit]
      exact ih _ _ _ _ _ _ _ (hsrc_next hsbit) (hdst_wrap htbit)
    · rw [if_neg hsbit, if_neg htbit]
      exact ih _ _ _ _ _ _ _ (hsrc_next hsbit) (hdst_next htbit)

theorem put_loop_concat (src_step dst_step samples t s : Nat) (v : Nat → BitVec 4) :
    put_loop src_step dst_step (samples + 1) t s v =
      put (put_loop src_step dst_step samples t s v) (t + samples * dst_step) (s + samples * src_step) := by
  induction samples generalizing t s v with
  | zero =>
    unfold put_loop
    simp [put_loop]
  | succ samples ih =>
    rw [put_loop, ih, put_loop, Nat.add_mul, Nat.add_mul, Nat.one_mul, Nat.one_mul]
    congr 1 <;> omega

end Salsa.Pcm.Samples
