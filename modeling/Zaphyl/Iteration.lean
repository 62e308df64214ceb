import Mathlib.Data.List.AList
import Mathlib.Data.List.MinMax
import Mathlib.Data.List.Sort
/-!
# Iteration — containers that iterate in an order of their own

A hash map and a directory listing give their members in an unspecified order.  An `Order` is one such order: any
rearrangement of the members.  From an iteration a program picks the first minimum or the head of a stable sort.
-/
namespace Iteration

/-- An iteration order: a rearrangement of every list of members. -/
structure Order (α : Type*) where
  arrange : List α → List α
  perm : ∀ l, (arrange l).Perm l

namespace Order

variable {α : Type*}

def kept : Order α := ⟨fun l => l, fun _ => List.Perm.refl _⟩

end Order

/-- The first member of the iteration with the least key. -/
def minByKey {α β : Type*} [LinearOrder β] (key : α → β) (l : List α) : Option α := l.argmin key

/-- The head of the members sorted by key; the sort is stable. -/
def headByKey {α β : Type*} [LinearOrder β] (key : α → β) (l : List α) : Option α :=
  (l.insertionSort (fun a b => key a ≤ key b)).head?

theorem lookup_of_lookup_erase {κ : Type*} [DecidableEq κ] {ν : Type*} {m : AList (fun _ : κ => ν)} {k k' : κ} {v : ν}
    (h : (m.erase k').lookup k = some v) : m.lookup k = some v := by
  by_cases hk : k = k'
  · subst hk
    rw [AList.lookup_erase] at h
    cases h
  · rwa [AList.lookup_erase_ne hk] at h

end Iteration
