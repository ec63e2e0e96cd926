import Mathlib.Data.List.Basic

/-!
# Blocks of memory

A block is the list of its bytes. An access outside of the block has no defined
outcome and is `none`.
-/

namespace Memory

variable {β : Type*}

def poke (block : List β) (ofs : Int) (text : List β) : Option (List β) :=
  if 0 ≤ ofs ∧ ofs + text.length ≤ block.length then
    some (block.take ofs.toNat ++ text ++ block.drop (ofs.toNat + text.length))
  else none

/-- What an allocator answers to a request: `none`, or the bytes of a fresh block. -/
abbrev Alloc (β : Type*) := Nat → Option (Nat → β)

/-- `realloc`: the old bytes are kept as far as they fit. -/
def realloc (alloc : Alloc β) (block : List β) (size : Nat) : Option (List β) :=
  (alloc size).map fun fresh => (List.range size).map fun i => block.getD i (fresh i)

theorem poke_of_fits (block : List β) (ofs : Nat) (text : List β)
    (h : ofs + text.length ≤ block.length) :
    poke block ofs text =
      some (block.take ofs ++ text ++ block.drop (ofs + text.length)) := by
  rw [poke, if_pos (by omega)]
  simp

theorem realloc_length (alloc : Alloc β) (block block' : List β) (size : Nat)
    (h : realloc alloc block size = some block') : block'.length = size := by
  simp only [realloc, Option.map_eq_some_iff] at h
  obtain ⟨fresh, -, rfl⟩ := h
  simp

theorem realloc_take (alloc : Alloc β) (block block' : List β) (size n : Nat)
    (h : realloc alloc block size = some block') (hn : n ≤ block.length) (hsize : n ≤ size) :
    block'.take n = block.take n := by
  simp only [realloc, Option.map_eq_some_iff] at h
  obtain ⟨fresh, -, rfl⟩ := h
  apply List.ext_getElem
  · simp; omega
  · intro i hi _
    simp only [List.length_take, List.length_map, List.length_range] at hi
    have hib : i < block.length := by omega
    simp [List.getD_eq_getElem?_getD, List.getElem?_eq_getElem hib]

end Memory
