import Zaphyl.Iteration
/-!
# BoundedMap — a map of bounded size that gives up its least member

An insertion into a full map of a key it lacks drops a member of the least rank first.  The size never passes the
bound, and an insertion changes no other key or drops exactly one, of a rank no other member is below
(`lookup_insert`).
-/
namespace BoundedMap

open Iteration (Order minByKey)

variable {κ ν β : Type}

theorem length_eq_keys (m : AList fun _ : κ => ν) : m.entries.length = m.keys.length := by
  unfold AList.keys List.keys
  rw [List.length_map]

variable [DecidableEq κ] [LinearOrder β]

/-- What an insertion of `k` leaves to insert into. -/
def makeRoom (bound : Nat) (order : Order (Sigma fun _ : κ => ν)) (rank : ν → β) (m : AList fun _ : κ => ν) (k : κ) :
    AList fun _ : κ => ν :=
  if bound ≤ m.entries.length ∧ k ∉ m then
    match minByKey (fun e => rank e.2) (order.arrange m.entries) with
    | some least => m.erase least.1
    | none => m
  else m

def insert (bound : Nat) (order : Order (Sigma fun _ : κ => ν)) (rank : ν → β) (m : AList fun _ : κ => ν) (k : κ)
    (v : ν) : AList fun _ : κ => ν := (makeRoom bound order rank m k).insert k v

/-- `victim` is a member of a full map that `k` is not in, and no member ranks below it. -/
structure Yields (bound : Nat) (rank : ν → β) (m : AList fun _ : κ => ν) (k victim : κ) : Prop where
  full : bound ≤ m.entries.length
  absent : k ∉ m
  held : victim ∈ m
  least : ∀ v, m.lookup victim = some v → ∀ j w, m.lookup j = some w → rank v ≤ rank w

variable {bound : Nat} {order : Order (Sigma fun _ : κ => ν)} {rank : ν → β} {m : AList fun _ : κ => ν} {k : κ} {v : ν}

theorem mem_entries {j : κ} {w : ν} : (⟨j, w⟩ : Sigma fun _ : κ => ν) ∈ m.entries ↔ m.lookup j = some w :=
  (AList.mem_lookup_iff).symm

/-- **Room is made by dropping a least member of a full map, or there is room.** -/
theorem makeRoom_cases (hb : 0 < bound) (order : Order (Sigma fun _ : κ => ν)) (rank : ν → β) (m : AList fun _ : κ => ν)
    (k : κ) :
    (makeRoom bound order rank m k = m ∧ (k ∈ m ∨ m.entries.length < bound)) ∨
      ∃ victim, Yields bound rank m k victim ∧ makeRoom bound order rank m k = m.erase victim := by
  unfold makeRoom
  by_cases hfull : bound ≤ m.entries.length ∧ k ∉ m
  · rw [if_pos hfull]
    right
    have hmem : ∀ e, e ∈ order.arrange m.entries ↔ e ∈ m.entries := fun e => (order.perm m.entries).mem_iff
    cases hmin : minByKey (fun e : Sigma fun _ : κ => ν => rank e.2) (order.arrange m.entries) with
    | none =>
      have hnil := List.argmin_eq_none.1 hmin
      have hlen : (order.arrange m.entries).length = m.entries.length := (order.perm m.entries).length_eq
      rw [hnil, List.length_nil] at hlen
      omega
    | some least =>
      have hleast := (hmem least).1 (List.argmin_mem hmin)
      refine ⟨least.1, ⟨hfull.1, hfull.2, ?_, fun w hw j u hu => ?_⟩, rfl⟩
      · exact AList.lookup_isSome.1 (by rw [mem_entries.1 hleast]; rfl)
      · rw [mem_entries.1 hleast, Option.some.injEq] at hw
        subst hw
        have hu := (hmem ⟨j, u⟩).2 (mem_entries.2 hu)
        exact List.le_of_mem_argmin (f := fun e : Sigma fun _ : κ => ν => rank e.2) hu hmin
  · rw [if_neg hfull]
    refine Or.inl ⟨rfl, ?_⟩
    by_cases hk : k ∈ m
    · exact Or.inl hk
    · exact Or.inr (Nat.lt_of_not_le (fun h => hfull ⟨h, hk⟩))

theorem lookup_insert_self : (insert bound order rank m k v).lookup k = some v := by
  unfold insert
  exact AList.lookup_insert _

/-- **The size stays within the bound.** -/
theorem length_insert_le (hb : 0 < bound) (hm : m.entries.length ≤ bound) :
    (insert bound order rank m k v).entries.length ≤ bound := by
  have hlength : ∀ m' : AList fun _ : κ => ν,
      (m'.insert k v).entries.length = (m'.keys.erase k).length + 1 := by
    intro m'
    rw [length_eq_keys, AList.keys_insert, List.length_cons]
  unfold insert
  rw [hlength]
  rw [length_eq_keys] at hm
  rcases makeRoom_cases hb order rank m k with ⟨hroom, hk | hlt⟩ | ⟨victim, hy, hroom⟩
  · rw [hroom, List.length_erase_of_mem (AList.mem_keys.1 hk)]
    have := List.length_pos_of_mem (AList.mem_keys.1 hk)
    omega
  · rw [hroom]
    rw [length_eq_keys] at hlt
    have := List.length_erase_le (a := k) (l := m.keys)
    omega
  · rw [hroom, AList.keys_erase]
    have hheld := List.length_erase_of_mem (AList.mem_keys.1 hy.held)
    have hpos := List.length_pos_of_mem (AList.mem_keys.1 hy.held)
    have := List.length_erase_le (a := k) (l := m.keys.erase victim)
    omega

/-- **An insertion changes no other key, or drops one least member of a full map and changes no further key.** -/
theorem lookup_insert (hb : 0 < bound) (order : Order (Sigma fun _ : κ => ν)) (rank : ν → β) (m : AList fun _ : κ => ν)
    (k : κ) (v : ν) :
    ((k ∈ m ∨ m.entries.length < bound) ∧ ∀ j, j ≠ k → (insert bound order rank m k v).lookup j = m.lookup j) ∨
      ∃ victim, Yields bound rank m k victim ∧ victim ∉ insert bound order rank m k v ∧
        ∀ j, j ≠ k → j ≠ victim → (insert bound order rank m k v).lookup j = m.lookup j := by
  unfold insert
  rcases makeRoom_cases hb order rank m k with ⟨hroom, h⟩ | ⟨victim, hy, hroom⟩
  · rw [hroom]
    exact Or.inl ⟨h, fun j hj => AList.lookup_insert_ne hj⟩
  · rw [hroom]
    have hne : victim ≠ k := fun h => hy.absent (h ▸ hy.held)
    refine Or.inr ⟨victim, hy, ?_, fun j hj hv => ?_⟩
    · rw [AList.mem_insert, not_or]
      exact ⟨hne, fun h => (AList.mem_erase.1 h).1 rfl⟩
    · rw [AList.lookup_insert_ne hj, AList.lookup_erase_ne hv]

end BoundedMap
