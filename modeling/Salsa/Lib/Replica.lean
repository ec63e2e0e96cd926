import Mathlib.Data.Multiset.AddSub

/-!
# Replicas

A copy of a multiset follows its source through a queue of the changes made there. What a copy
comes to in the end is `replay`: it stays the same while changes are made at the source and queued,
and while they are taken from the queue and made at the copy.
-/

namespace Replica

variable {α : Type*} [DecidableEq α]

inductive Change (α : Type*) where
  | add (a : α)
  | remove (a : α)
  | none

def Change.apply : Change α → Multiset α → Multiset α
  | .add a, s => a ::ₘ s
  | .remove a, s => s.erase a
  | .none, s => s

def replay (queue : List (Change α)) (copy : Multiset α) : Multiset α :=
  queue.foldl (fun s c => c.apply s) copy

@[simp] theorem replay_nil (copy : Multiset α) : replay [] copy = copy := rfl

/-- The source makes a change, and queues it. -/
@[simp] theorem replay_concat (c : Change α) (queue : List (Change α)) (copy : Multiset α) :
    replay (queue ++ [c]) copy = c.apply (replay queue copy) := by
  simp [replay, List.foldl_append]

end Replica
