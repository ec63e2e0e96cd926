import Mathlib.Data.Int.Notation
import Mathlib.Tactic.SplitIfs

/-!
# Computations of a C program

Integers are mathematical ones, checked against the width of their type after every operation.
A computation without a defined outcome ends with the reason.
-/

namespace CInt

inductive Fault where
  | read
  | uninitialized
  | overflow
  | divide
  | free
  /-- The computation does not come to an end. -/
  | diverge
deriving DecidableEq

abbrev C := Except Fault

def int (x : Int) : C Int := if -2147483648 ≤ x ∧ x ≤ 2147483647 then .ok x else .error .overflow

def long (x : Int) : C Int :=
  if -9223372036854775808 ≤ x ∧ x ≤ 9223372036854775807 then .ok x else .error .overflow

/-- Division of longs, towards 0. -/
def divide (x y : Int) : C Int := if y = 0 then .error .divide else long (x.tdiv y)

@[simp] theorem ok_bind {α β : Type} (a : α) (f : α → C β) : ((.ok a : C α) >>= f) = f a := rfl

@[simp] theorem error_bind {α β : Type} (fault : Fault) (f : α → C β) :
    ((.error fault : C α) >>= f) = .error fault := rfl

theorem bind_eq_ok {α β : Type} (x : C α) (f : α → C β) (r : β) :
    (x >>= f) = .ok r ↔ ∃ a, x = .ok a ∧ f a = .ok r := by
  cases x with
  | error fault => simp [bind, Except.bind]
  | ok a => simp [bind, Except.bind]

def IsInt (x : Int) : Prop := -2147483648 ≤ x ∧ x ≤ 2147483647

def IsLong (x : Int) : Prop := -9223372036854775808 ≤ x ∧ x ≤ 9223372036854775807

theorem IsInt.isLong {x : Int} (h : IsInt x) : IsLong x := by
  obtain ⟨hlow, hhigh⟩ := h
  exact ⟨by omega, by omega⟩

theorem IsInt.ok {x : Int} (h : IsInt x) : int x = .ok x := if_pos h

theorem IsLong.ok {x : Int} (h : IsLong x) : long x = .ok x := if_pos h

theorem int_error {x : Int} (h : ¬ IsInt x) : int x = .error .overflow := if_neg h

theorem long_error {x : Int} (h : ¬ IsLong x) : long x = .error .overflow := if_neg h

theorem long_cases (x : Int) : long x = .ok x ∨ long x = .error .overflow := by
  unfold long
  split_ifs
  · exact Or.inl rfl
  · exact Or.inr rfl

theorem long_eq_ok (x y : Int) (h : long x = .ok y) : y = x := by
  unfold long at h
  split at h
  · cases h
    rfl
  · cases h

theorem int_eq_ok (x y : Int) (h : int x = .ok y) : y = x := by
  unfold int at h
  split at h
  · cases h
    rfl
  · cases h

theorem isLong_of_ok (x y : Int) (h : long x = .ok y) : IsLong x := by
  unfold long at h
  split at h
  · assumption
  · cases h

theorem divide_eq_ok (x y z : Int) (h : divide x y = .ok z) : z = x.tdiv y := by
  unfold divide at h
  split at h
  · cases h
  · exact long_eq_ok _ _ h

theorem divide_ok (x y : Int) (hx : 0 ≤ x) (hlong : IsLong x) (hy : 0 < y) : divide x y = .ok (x / y) := by
  have hnonneg : 0 ≤ x / y := Int.ediv_nonneg hx (by omega)
  have hle : x / y ≤ x := Int.ediv_le_self y hx
  have hquot : IsLong (x / y) := by
    obtain ⟨-, hhigh⟩ := hlong
    exact ⟨by omega, by omega⟩
  rw [divide, if_neg (by omega), Int.tdiv_eq_ediv_of_nonneg hx, hquot.ok]

/-- The conversion of a long to an int. -/
def cut (x : Int) : Int := (BitVec.ofInt 32 x).toInt

theorem toInt_isInt (v : BitVec 32) : IsInt v.toInt := by
  have hlow := BitVec.le_toInt v
  have hhigh := BitVec.toInt_lt (x := v)
  exact ⟨by simpa using hlow, by simp at hhigh; omega⟩

theorem cut_isInt (x : Int) : IsInt (cut x) := toInt_isInt _

theorem IsInt.cut {x : Int} (h : IsInt x) : cut x = x := by
  obtain ⟨hlow, hhigh⟩ := h
  rw [CInt.cut, BitVec.toInt_ofInt]
  exact Int.bmod_eq_of_le (by omega) (by omega)

/-- Memory of 32-bit words, as far as a pointer may read from it. -/
structure Words where
  size : Nat
  word : Nat → BitVec 32

def Words.read (m : Words) (i : Nat) : C (BitVec 32) :=
  if i < m.size then .ok (m.word i) else .error .read

theorem Words.read_ok (m : Words) (i : Nat) (h : i < m.size) : m.read i = .ok (m.word i) := if_pos h

theorem Words.read_error (m : Words) (i : Nat) (h : ¬ i < m.size) : m.read i = .error .read := if_neg h

def Words.skip (m : Words) (n : Nat) : Words := ⟨m.size - n, fun i => m.word (n + i)⟩

theorem Words.skip_skip (m : Words) (i j : Nat) : (m.skip i).skip j = m.skip (i + j) := by
  unfold Words.skip
  congr 1
  · exact Nat.sub_sub _ _ _
  · funext k
    rw [Nat.add_assoc]

def Words.ofList (l : List (BitVec 32)) : Words := ⟨l.length, fun i => l.getD i 0#32⟩

end CInt
