import Mathlib.Data.List.Basic

/-!
# Names of mixer controls

What `add_simple_element` reads from the name of a control: the name of its mixer element and the
direction.
-/

namespace Salsa.Mixer

/-- `dir` 0, `dir` 1, or `gflag`. -/
inductive Direction where
  | playback
  | capture
  | global
deriving DecidableEq

/-- `name_alias`, each with its `longname`, `shortname` and `dir`. -/
def name_alias : List (List Char × List Char × Direction) :=
  [("Tone Control - Switch".toList, "Tone".toList, .playback),
    ("Tone Control - Bass".toList, "Bass".toList, .playback),
    ("Tone Control - Treble".toList, "Treble".toList, .playback),
    ("Synth Tone Control - Switch".toList, "Synth Tone".toList, .playback),
    ("Synth Tone Control - Bass".toList, "Synth Bass".toList, .playback),
    ("Synth Tone Control - Treble".toList, "Synth Treble".toList, .playback)]

/-- The new name and `*dirp`, if the name is an alias. -/
def check_elem_alias (name : List Char) : Option (List Char × Direction) :=
  (name_alias.find? fun p => name == p.1).map fun p => p.2

/-- The text in front of the first `sfx`, and the rest from there on. -/
def strstr (sfx : List Char) : List Char → Option (List Char × List Char)
  | [] => if sfx.isPrefixOf [] then some ([], []) else none
  | c :: name =>
    if sfx.isPrefixOf (c :: name) then some ([], c :: name)
    else (strstr sfx name).map fun (before, p) => (c :: before, p)

/-- The name without the suffix, if its first `sfx` is the end of it. -/
def remove_suffix (name sfx : List Char) : Option (List Char) :=
  (strstr sfx name).bind fun (before, p) => if p = sfx then some before else none

/-- The name of the mixer element, and the direction of the control. -/
structure Decoded where
  name : List Char
  dir : Direction
deriving DecidableEq

/-- The direction of a name without its standard suffixes. -/
def check_direction (name : List Char) : Decoded :=
  match remove_suffix name " Playback".toList with
  | some name => ⟨name, .playback⟩
  | none =>
    match remove_suffix name " Capture".toList with
    | some name => ⟨name, .capture⟩
    | none =>
      if "Capture".toList.isPrefixOf name then ⟨name, .capture⟩
      else if "Input".toList.isPrefixOf name then ⟨name, .capture⟩
      else ⟨name, .global⟩

/-- `add_simple_element` up to the label `found`. -/
def decode_name (name : List Char) : Decoded :=
  let name := name.take 63
  match check_elem_alias name with
  | some (name, dir) => ⟨name, dir⟩
  | none =>
    let name := (remove_suffix name " Volume".toList).getD name
    let name := (remove_suffix name " Switch".toList).getD name
    check_direction name

theorem remove_suffix_length (name sfx rest : List Char) (h : remove_suffix name sfx = some rest) :
    rest.length ≤ name.length := by
  have hstrstr (name before p : List Char) (h : strstr sfx name = some (before, p)) :
      before.length ≤ name.length := by
    induction name generalizing before with
    | nil =>
      unfold strstr at h
      split at h
      · cases h
        exact Nat.le_refl _
      · cases h
    | cons c name ih =>
      unfold strstr at h
      split at h
      · cases h
        exact Nat.zero_le _
      · obtain ⟨⟨before', p'⟩, hrest, heq⟩ := Option.map_eq_some_iff.mp h
        cases heq
        exact Nat.succ_le_succ (ih before' hrest)
  obtain ⟨⟨before, p⟩, hfound, hrest⟩ := Option.bind_eq_some_iff.mp h
  dsimp only at hrest
  split at hrest
  · cases hrest
    exact hstrstr name rest p hfound
  · cases hrest

theorem remove_suffix_getD_length (name sfx : List Char) :
    ((remove_suffix name sfx).getD name).length ≤ name.length := by
  cases h : remove_suffix name sfx with
  | none => exact Nat.le_refl _
  | some rest => exact remove_suffix_length name sfx rest h

theorem check_direction_length (name : List Char) : (check_direction name).name.length ≤ name.length := by
  unfold check_direction
  split
  · rename_i h
    exact remove_suffix_length _ _ _ h
  · split
    · rename_i h
      exact remove_suffix_length _ _ _ h
    · split
      · exact Nat.le_refl _
      · split <;> exact Nat.le_refl _

theorem decode_name_length (name : List Char) (n : Nat) (hn : 12 ≤ n) (h : name.length ≤ n) :
    (decode_name name).name.length ≤ n := by
  have htake : (name.take 63).length ≤ n := Nat.le_trans (List.length_take_le' _ _) h
  unfold decode_name
  dsimp only
  split
  · rename_i short dir halias
    obtain ⟨p, hp, heq⟩ := Option.map_eq_some_iff.mp halias
    have hshort : ∀ p ∈ name_alias, p.2.1.length ≤ 12 := by decide
    have hmem := hshort p (List.mem_of_find?_eq_some hp)
    rw [heq] at hmem
    exact Nat.le_trans hmem hn
  · have hsuffix := remove_suffix_getD_length
    refine Nat.le_trans (check_direction_length _) ?_
    exact Nat.le_trans (hsuffix _ _) (Nat.le_trans (hsuffix _ _) htake)

example : decode_name "PCM Playback Volume".toList = ⟨"PCM".toList, .playback⟩ := by decide +kernel
example : decode_name "Tone Control - Bass".toList = ⟨"Bass".toList, .playback⟩ := by decide +kernel

end Salsa.Mixer
