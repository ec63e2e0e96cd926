import Mathlib.Data.Finset.Basic
import Mathlib.Logic.Function.Basic

/-!
# Memory mappings

The mappings of a process by their addresses, and the calls that make and remove them.
-/

namespace Mappings

/-- What is mapped at an address. -/
structure Region where
  length : BitVec 64
  offset : BitVec 64
deriving DecidableEq

/-- `stray` holds the calls of `munmap` that met no mapping of their length. -/
structure Space where
  addrs : Finset Nat
  region : Nat → Region
  stray : List (Nat × BitVec 64)

def Space.add (m : Space) (addr : Nat) (r : Region) : Space :=
  { m with addrs := insert addr m.addrs, region := Function.update m.region addr r }

def Space.remove (m : Space) (addr : Nat) : Space := { m with addrs := m.addrs.erase addr }

/-- How a call of `mmap` ends: it fails, or takes an address that is not in use. -/
structure Answer where
  fails : Option { e : Nat // 0 < e }
  pick : Finset Nat → Nat
  unused : ∀ addrs, pick addrs ∉ addrs
  nonnull : ∀ addrs, pick addrs ≠ 0

def mmap (a : Answer) (r : Region) (m : Space) : Except { e : Nat // 0 < e } (Nat × Space) :=
  match a.fails with
  | some e => .error e
  | none => .ok (a.pick m.addrs, m.add (a.pick m.addrs) r)

def munmap (addr : Nat) (length : BitVec 64) (m : Space) : Space :=
  if addr ∈ m.addrs ∧ (m.region addr).length = length then m.remove addr
  else { m with stray := (addr, length) :: m.stray }

/-! ## What is left -/

/-- The same mappings. -/
structure Same (m m' : Space) : Prop where
  addrs : m'.addrs = m.addrs
  region : ∀ a ∈ m.addrs, m'.region a = m.region a
  stray : m'.stray = m.stray

theorem Same.refl (m : Space) : Same m m := ⟨rfl, fun _ _ => rfl, rfl⟩

@[simp] theorem add_addrs (m : Space) (addr : Nat) (r : Region) : (m.add addr r).addrs = insert addr m.addrs := rfl

@[simp] theorem add_region_self (m : Space) (addr : Nat) (r : Region) : (m.add addr r).region addr = r :=
  Function.update_self _ _ _

theorem add_region_of_mem (m : Space) (addr x : Nat) (r : Region) (hnew : addr ∉ m.addrs) (hx : x ∈ m.addrs) :
    (m.add addr r).region x = m.region x := by
  have hne : x ≠ addr := by
    rintro rfl
    exact hnew hx
  exact Function.update_of_ne hne _ _

theorem munmap_of_mem (addr : Nat) (length : BitVec 64) (m : Space) (hmem : addr ∈ m.addrs)
    (hlength : (m.region addr).length = length) : munmap addr length m = m.remove addr := by
  unfold munmap
  rw [if_pos ⟨hmem, hlength⟩]

theorem mmap_ok (a : Answer) (r : Region) (m m' : Space) (addr : Nat) (h : mmap a r m = .ok (addr, m')) :
    addr ∉ m.addrs ∧ addr ≠ 0 ∧ m' = m.add addr r := by
  unfold mmap at h
  split at h
  · cases h
  · obtain ⟨rfl, rfl⟩ := Prod.mk.inj (Except.ok.inj h)
    exact ⟨a.unused m.addrs, a.nonnull m.addrs, rfl⟩

end Mappings
