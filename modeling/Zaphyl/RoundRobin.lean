import Mathlib.Algebra.Order.Ring.Int
import Zaphyl.Rotation
import Zaphyl.Router
/-!
# RoundRobin — every healthy target in its turn

A route's counter advances by as many turns as a call skips, and by one more when it finds no healthy target.  As long
as the counter does not wrap, the calls of a route are the picks of a rotation (`nextTargets_eq_picks`), so that as
many calls as there are healthy targets return each of them once.
-/
namespace Zaphyl
namespace Route

/-- What `k` calls of `next_target` in sequence return, and the route they leave. -/
def nextTargets (r : Route) : Nat → List (Option Target) × Route
  | 0 => ([], r)
  | k + 1 =>
    let picked := r.nextTarget
    let rest := nextTargets picked.2 k
    (picked.1 :: rest.1, rest.2)

/-- Where the counter stands after `k` calls, counted without wrapping. -/
def turnsAfter (r : Route) (k : Nat) : Nat := (Rotation.picks Target.healthy r.targets k r.next.toNat).2

/-! ## The counter is the turn -/

theorem scanTargets_eq_scan {targets : List Target} {tries : Nat} {next : UInt64}
    (h : (Rotation.scan Target.healthy targets tries next.toNat).2 ≤ 2 ^ 64) :
    (scanTargets targets tries next).1 = (Rotation.scan Target.healthy targets tries next.toNat).1 ∧
      (scanTargets targets tries next).2.toNat =
        (Rotation.scan Target.healthy targets tries next.toNat).2 % 2 ^ 64 := by
  have hsucc : ∀ next : UInt64, (next + 1).toNat = (next.toNat + 1) % 2 ^ 64 := fun next => UInt64.toNat_add next 1
  induction tries generalizing next with
  | zero => exact ⟨rfl, hsucc next⟩
  | succ tries ih =>
    rw [scanTargets_succ]
    rw [Rotation.scan] at h ⊢
    by_cases hhealthy : (Rotation.turn targets next.toNat).any Target.healthy = true
    · rw [if_pos hhealthy, if_pos (by exact hhealthy)]
      exact ⟨rfl, hsucc next⟩
    · rw [if_neg hhealthy] at h ⊢
      rw [if_neg (by exact hhealthy)]
      -- the turn after a skipped one is still below the bound
      have hlt : next.toNat + 1 < 2 ^ 64 := Nat.lt_of_lt_of_le (Rotation.lt_scan tries (next.toNat + 1)) h
      have hnext : (next + 1).toNat = next.toNat + 1 := by rw [hsucc, Nat.mod_eq_of_lt hlt]
      rw [← hnext] at h ⊢
      exact ih h

theorem nextTarget_eq_scan {r : Route} (hr : r.targets ≠ [])
    (h : (Rotation.scan Target.healthy r.targets r.targets.length r.next.toNat).2 ≤ 2 ^ 64) :
    r.nextTarget.1 = (Rotation.scan Target.healthy r.targets r.targets.length r.next.toNat).1 ∧
      r.nextTarget.2.targets = r.targets ∧ r.nextTarget.2.next.toNat =
        (Rotation.scan Target.healthy r.targets r.targets.length r.next.toNat).2 % 2 ^ 64 := by
  have hlen : ¬ r.targets.length = 0 := by simpa using hr
  unfold nextTarget
  rw [if_neg hlen]
  exact ⟨(scanTargets_eq_scan h).1, rfl, (scanTargets_eq_scan h).2⟩

/-- **The calls of a route are the picks of a rotation**, as long as the counter does not wrap. -/
theorem nextTargets_eq_picks {r : Route} (hr : r.targets ≠ []) {k : Nat} (h : r.turnsAfter k ≤ 2 ^ 64) :
    (r.nextTargets k).1 = (Rotation.picks Target.healthy r.targets k r.next.toNat).1 := by
  induction k generalizing r with
  | zero => rfl
  | succ k ih =>
    have hle := Rotation.le_picks (p := Target.healthy) (l := r.targets) k
      (Rotation.scan Target.healthy r.targets r.targets.length r.next.toNat).2
    obtain ⟨htarget, htargets, hnext⟩ := nextTarget_eq_scan hr (Nat.le_trans hle h)
    show r.nextTarget.1 :: (r.nextTarget.2.nextTargets k).1 = _ :: _
    rw [htarget]
    cases k with
    | zero => rfl
    | succ k =>
      -- a call still to come takes a turn, so the counter is not at the bound yet
      have hlt := Nat.lt_of_lt_of_le (Rotation.lt_scan (p := Target.healthy) (l := r.targets) r.targets.length _)
        (Nat.le_trans (Rotation.le_picks (p := Target.healthy) (l := r.targets) k _) h)
      rw [Nat.mod_eq_of_lt hlt] at hnext
      have ih := ih (r := r.nextTarget.2) (by rw [htargets]; exact hr)
        (by unfold turnsAfter; rw [htargets, hnext]; exact h)
      rw [ih, htargets, hnext]

/-- Calls after `j` others are picks from where those left the counter. -/
theorem drop_nextTargets {r : Route} (hr : r.targets ≠ []) {j k : Nat} (h : r.turnsAfter (j + k) ≤ 2 ^ 64) :
    (r.nextTargets (j + k)).1.drop j = (Rotation.picks Target.healthy r.targets k (r.turnsAfter j)).1 := by
  rw [nextTargets_eq_picks hr h, Rotation.picks_add]
  exact List.drop_left' (Rotation.length_picks j r.next.toNat)

/-- **The rotation is fair to healthy targets.**  After any calls that came before, as many calls as there are healthy
targets return the healthy targets, each once, in the cyclic order of the list from where the counter stands; when no
target is healthy, as many calls as there are targets return them all so.  The counter wraps in none of these calls. -/
theorem nextTargets_fair (r : Route) (hr : r.targets ≠ []) (j : Nat) :
    ((∃ t ∈ r.targets, t.healthy = true) → r.turnsAfter (j + (r.targets.filter Target.healthy).length) ≤ 2 ^ 64 →
      (r.nextTargets (j + (r.targets.filter Target.healthy).length)).1.drop j =
        ((r.targets.rotate (r.turnsAfter j)).filter Target.healthy).map some) ∧
    ((∀ t ∈ r.targets, t.healthy = false) → r.turnsAfter (j + r.targets.length) ≤ 2 ^ 64 →
      (r.nextTargets (j + r.targets.length)).1.drop j = (r.targets.rotate (r.turnsAfter j)).map some) := by
  constructor
  · intro hsome h
    rw [drop_nextTargets hr h, Rotation.picks_filter hsome]
  · intro hnone h
    rw [drop_nextTargets hr h, Rotation.picks_of_none hnone, Rotation.window_length]

/-- With the middle one of three targets down, two calls after the first return the third and then the first. -/
theorem three_targets_one_down :
    let a := Target.new "a:1".toList false []
    let c := Target.new "c:3".toList false []
    let r := Route.new none none [a, { Target.new "b:2".toList false [] with healthy := false }, c]
    (r.nextTargets 3).1.drop 1 = [some c, some a] := by
  intro a c r
  have hr : r.targets ≠ [] := by decide
  have h := (nextTargets_fair r hr 1).1 ⟨a, by decide, by decide⟩ (by decide)
  exact h.trans (by decide)

end Route
end Zaphyl
