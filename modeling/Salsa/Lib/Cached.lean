import Mathlib.Data.Set.Basic

/-!
# Caches

A cache holds what a store shows at each place. A place is stale after its value has changed in the store
alone, or in the cache alone. The other places that are in use are the ones that can be relied on.
-/

namespace Cached

variable {ι β : Type*}

/-- The places that are in use hold what the store shows, unless they are stale. -/
def Fresh (live stale : Set ι) (cached shown : ι → β) : Prop := ∀ i ∈ live, i ∉ stale → cached i = shown i

variable {live stale : Set ι} {cached shown : ι → β}

/-- Nothing changes, or places go out of use. -/
theorem Fresh.kept (h : Fresh live stale cached shown) {live' : Set ι} {cached' shown' : ι → β}
    (hkept : ∀ i ∈ live', i ∈ live ∧ cached' i = cached i ∧ shown' i = shown i) :
    Fresh live' stale cached' shown' := by
  intro i hi hstale
  obtain ⟨hlive, hcached, hshown⟩ := hkept i hi
  rw [hcached, hshown]
  exact h i hlive hstale

/-- The store changes by itself. -/
theorem Fresh.changed (h : Fresh live stale cached shown) (places : Set ι) {shown' : ι → β}
    (hshown : ∀ i ∈ live, i ∉ places → shown' i = shown i) : Fresh live (stale ∪ places) cached shown' := by
  intro i hi hstale
  rw [hshown i hi fun hmem => hstale (Or.inr hmem)]
  exact h i hi fun hmem => hstale (Or.inl hmem)

/-- A place changes, and the store does not get it. -/
theorem Fresh.missed (h : Fresh live stale cached shown) (place : ι) {cached' : ι → β}
    (hcached : ∀ i, i ≠ place → cached' i = cached i) : Fresh live (insert place stale) cached' shown := by
  intro i hi hstale
  rw [hcached i fun heq => hstale (Or.inl heq)]
  exact h i hi fun hmem => hstale (Or.inr hmem)

/-- Places come to what the store shows, as they are written through or read. -/
theorem Fresh.refreshed (h : Fresh live stale cached shown) (places : Set ι) {live' : Set ι} {cached' shown' : ι → β}
    (hnew : ∀ i ∈ live', i ∈ places → cached' i = shown' i)
    (hkept : ∀ i ∈ live', i ∉ places → i ∈ live ∧ cached' i = cached i ∧ shown' i = shown i) :
    Fresh live' (stale \ places) cached' shown' := by
  intro i hi hstale
  by_cases hmem : i ∈ places
  · exact hnew i hi hmem
  · obtain ⟨hlive, hcached, hshown⟩ := hkept i hi hmem
    rw [hcached, hshown]
    exact h i hlive fun hin => hstale ⟨hin, hmem⟩

end Cached
