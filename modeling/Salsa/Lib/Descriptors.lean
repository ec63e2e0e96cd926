import Salsa.Lib.Prog
import Mathlib.Data.Finset.Basic
import Mathlib.Logic.Function.Basic

/-!
# File descriptors

The descriptors of a process, the calls that open and close them, and what a piece of a program leaves
of them.
-/

namespace Descriptors

open Prog

abbrev Failure := { e : Nat // 0 < e }

/-- The open descriptors with the files that they stand for; a file is told by the number of files that
were opened before it. -/
structure Table where
  fds : Finset Nat
  file : Nat → Nat
  files : Nat
  errno : Nat
  opened : ∀ fd ∈ fds, file fd < files

def Table.fail (t : Table) (e : Nat) : Table := { t with errno := e }

def Table.add (t : Table) (fd : Nat) : Table where
  fds := insert fd t.fds
  file := Function.update t.file fd t.files
  files := t.files + 1
  errno := t.errno
  opened x hx := by
    by_cases h : x = fd
    · rw [h, Function.update_self]
      exact Nat.lt_succ_self _
    · rw [Function.update_of_ne h]
      exact Nat.lt_succ_of_lt (t.opened x (Finset.mem_of_mem_insert_of_ne hx h))

def Table.remove (t : Table) (fd : Nat) : Table where
  fds := t.fds.erase fd
  file := t.file
  files := t.files
  errno := t.errno
  opened x hx := t.opened x (Finset.mem_of_mem_erase hx)

/-! ## System calls -/

/-- How a call of `open` ends: it fails, or takes a descriptor that is not in use. -/
structure OpenAnswer where
  fails : Option Failure
  pick : Finset Nat → Nat
  unused : ∀ fds, pick fds ∉ fds

def openFile (a : OpenAnswer) : Prog Table Int := fun t =>
  match a.fails with
  | some e => some (-1, t.fail e)
  | none => some (a.pick t.fds, t.add (a.pick t.fds))

/-- To close what is not open has no outcome. -/
def closeFile (fd : Nat) : Prog Table Unit := fun t => if fd ∈ t.fds then some ((), t.remove fd) else none

/-- A call that opens and closes nothing: -1 and an `errno`, or 0. -/
def call (answer : Option Failure) : Prog Table Int := fun t =>
  match answer with
  | some e => some (-1, t.fail e)
  | none => some (0, t)

/-- `-errno` -/
def negErrno : Prog Table Int := fun t => some (-(t.errno : Int), t)

/-! ## Descriptors in a larger state -/

class HasTable (σ : Type) where
  table : σ → Table
  put : Table → σ → σ

/-- A call that changes nothing but the descriptors and `errno`. -/
def sys {σ α : Type} [HasTable σ] (m : Prog Table α) : Prog σ α := on HasTable.table HasTable.put m

theorem sys_wp {σ α : Type} [HasTable σ] (m : Prog Table α) (s : σ) (post : α → σ → Prop)
    (h : Wp m (HasTable.table s) fun a t => post a (HasTable.put t s)) : Wp (sys m) s post :=
  wp_on HasTable.table HasTable.put m s post h

/-! ## What is left -/

/-- The same descriptors, standing for the same files. -/
structure Same (t t' : Table) : Prop where
  fds : t'.fds = t.fds
  file : ∀ fd ∈ t.fds, t'.file fd = t.file fd

structure Opened (fd : Nat) (t t' : Table) : Prop where
  new : fd ∉ t.fds
  fds : t'.fds = insert fd t.fds
  file : ∀ x ∈ t.fds, t'.file x = t.file x

structure Closed (fd : Nat) (t t' : Table) : Prop where
  old : fd ∈ t.fds
  fds : t'.fds = t.fds.erase fd
  file : ∀ x ∈ t'.fds, t'.file x = t.file x

theorem Same.refl (t : Table) : Same t t := ⟨rfl, fun _ _ => rfl⟩

theorem same_fail (t : Table) (e : Nat) : Same t (t.fail e) := ⟨rfl, fun _ _ => rfl⟩

theorem Same.trans {a b c : Table} (h : Same a b) (h' : Same b c) : Same a c where
  fds := h'.fds.trans h.fds
  file fd hfd := (h'.file fd (h.fds ▸ hfd)).trans (h.file fd hfd)

theorem opened_add (t : Table) (fd : Nat) (h : fd ∉ t.fds) : Opened fd t (t.add fd) where
  new := h
  fds := rfl
  file x hx := by
    have hne : x ≠ fd := by
      rintro rfl
      exact h hx
    unfold Table.add
    exact Function.update_of_ne hne _ _

theorem closed_remove (t : Table) (fd : Nat) (h : fd ∈ t.fds) : Closed fd t (t.remove fd) :=
  ⟨h, rfl, fun _ _ => rfl⟩

theorem Same.opened {fd : Nat} {a b c : Table} (h : Same a b) (h' : Opened fd b c) : Opened fd a c where
  new := h.fds ▸ h'.new
  fds := h.fds ▸ h'.fds
  file x hx := (h'.file x (h.fds.symm ▸ hx)).trans (h.file x hx)

theorem Opened.same {fd : Nat} {a b c : Table} (h : Opened fd a b) (h' : Same b c) : Opened fd a c where
  new := h.new
  fds := h'.fds.trans h.fds
  file x hx := (h'.file x (h.fds.symm ▸ Finset.mem_insert_of_mem hx)).trans (h.file x hx)

theorem Same.closed {fd : Nat} {a b c : Table} (h : Same a b) (h' : Closed fd b c) : Closed fd a c where
  old := h.fds ▸ h'.old
  fds := h.fds ▸ h'.fds
  file x hx := by
    have hmem : x ∈ a.fds := by
      rw [h'.fds, h.fds] at hx
      exact Finset.mem_of_mem_erase hx
    exact (h'.file x hx).trans (h.file x hmem)

/-- What is opened and closed again leaves no trace. -/
theorem Opened.closed {fd : Nat} {a b c : Table} (h : Opened fd a b) (h' : Closed fd b c) : Same a c where
  fds := by
    rw [h'.fds, h.fds, Finset.erase_insert h.new]
  file x hx := by
    have hmem : x ∈ c.fds := by
      rw [h'.fds, h.fds, Finset.erase_insert h.new]
      exact hx
    exact (h'.file x hmem).trans (h.file x hx)

/-- What is closed first leaves what was opened after it. -/
theorem Opened.over {x fd : Nat} {a b c d : Table} (hx : Opened x a b) (hfd : Opened fd b c) (h : Closed x c d) :
    Opened fd a d := by
  have hnew : fd ∉ insert x a.fds := hx.fds ▸ hfd.new
  have hne : fd ≠ x := fun heq => hnew (heq ▸ Finset.mem_insert_self fd a.fds)
  have hfds : d.fds = insert fd a.fds := by
    rw [h.fds, hfd.fds, hx.fds, Finset.erase_insert_of_ne hne, Finset.erase_insert hx.new]
  refine ⟨fun hmem => hnew (Finset.mem_insert_of_mem hmem), hfds, fun y hy => ?_⟩
  rw [h.file y (hfds ▸ Finset.mem_insert_of_mem hy),
    hfd.file y (hx.fds ▸ Finset.mem_insert_of_mem hy), hx.file y hy]

theorem Opened.mem {fd : Nat} {a b : Table} (h : Opened fd a b) : fd ∈ b.fds :=
  h.fds ▸ Finset.mem_insert_self fd a.fds

/-- A descriptor that is closed was open, and one that is opened was not. -/
theorem not_same_of_closed {fd : Nat} {a b : Table} (h : Closed fd a b) : ¬ Same a b := by
  intro hsame
  have hmem := h.old
  rw [← hsame.fds, h.fds] at hmem
  exact Finset.notMem_erase fd a.fds hmem

theorem not_opened_of_same {fd : Nat} {a b : Table} (h : Same a b) : ¬ Opened fd a b := by
  intro hopened
  exact hopened.new (h.fds ▸ hopened.mem)

/-! ## The calls -/

theorem openFile_wp (a : OpenAnswer) (t : Table) : Wp (openFile a) t fun fd t' =>
    (fd < 0 ∧ a.fails ≠ none ∧ Same t t' ∧ 0 < t'.errno) ∨
      (0 ≤ fd ∧ a.fails = none ∧ Opened fd.toNat t t' ∧ t'.errno = t.errno) := by
  unfold openFile
  cases h : a.fails with
  | some e => exact ⟨-1, t.fail e, rfl, Or.inl ⟨by decide, Option.some_ne_none e, same_fail t e, e.property⟩⟩
  | none =>
    refine ⟨a.pick t.fds, t.add (a.pick t.fds), rfl, Or.inr ⟨Int.natCast_nonneg _, rfl, ?_, rfl⟩⟩
    rw [Int.toNat_natCast]
    exact opened_add t _ (a.unused t.fds)

theorem closeFile_wp (fd : Nat) (t : Table) (h : fd ∈ t.fds) :
    Wp (closeFile fd) t fun _ t' => Closed fd t t' ∧ t'.errno = t.errno := by
  refine ⟨(), t.remove fd, ?_, closed_remove t fd h, rfl⟩
  unfold closeFile
  rw [if_pos h]

theorem closeFile_none (fd : Nat) (t : Table) (h : fd ∉ t.fds) : closeFile fd t = none := by
  unfold closeFile
  rw [if_neg h]

theorem call_wp (answer : Option Failure) (t : Table) : Wp (call answer) t fun r t' =>
    Same t t' ∧ ((r < 0 ∧ ∃ e : Failure, answer = some e ∧ t'.errno = e) ∨ (r = 0 ∧ answer = none ∧ t' = t)) := by
  unfold call
  cases answer with
  | some e => exact ⟨-1, t.fail e, rfl, same_fail t e, Or.inl ⟨by decide, e, rfl, rfl⟩⟩
  | none => exact ⟨0, t, rfl, Same.refl t, Or.inr ⟨rfl, rfl, rfl⟩⟩

/-! ## Programs that open and close nothing, all in all -/

def Keeps {α : Type} (m : Prog Table α) : Prop := ∀ t, Wp m t fun _ t' => Same t t'

section Keeps

variable {α β : Type}

theorem keeps_pure (a : α) : Keeps (pure a : Prog Table α) := fun t => wp_pure a t _ (Same.refl t)

theorem keeps_bind (m : Prog Table α) (f : α → Prog Table β) (hm : Keeps m) (hf : ∀ a, Keeps (f a)) :
    Keeps (m >>= f) := by
  intro t
  apply wp_bind
  refine (hm t).mono fun a t' hsame => ?_
  exact (hf a t').mono fun b t'' hsame' => hsame.trans hsame'

theorem keeps_ite {c : Prop} [Decidable c] (m m' : Prog Table α) (hm : Keeps m) (hm' : Keeps m') :
    Keeps (if c then m else m') := by
  split
  · exact hm
  · exact hm'

theorem keeps_call (answer : Option Failure) : Keeps (call answer) := fun t =>
  (call_wp answer t).mono fun _ _ h => h.1

theorem keeps_negErrno : Keeps negErrno := fun t => ⟨_, t, rfl, Same.refl t⟩

end Keeps

end Descriptors
