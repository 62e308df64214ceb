import Mathlib.Algebra.Order.Ring.Int
import Zaphyl.Router
import Zaphyl.Runs
/-!
# TargetRace — concurrent calls of `next_target` on one counter

A call takes up to one turn of the shared counter for each target to look for a healthy one, and then one more that
takes any.  Other calls take turns in between, so its turns need not visit every target.  A call returns a healthy
target exactly when one of its turns falls on one (`calls_healthy_iff`), as it does when nobody takes a turn between
its own.
-/
namespace Zaphyl

/-- A call of `next_target`: it has turns left to look for a healthy target, or has returned. -/
inductive TargetCall
  | scanning (tries : Nat)
  | returned (target : Option Target)
deriving DecidableEq

/-- What a call makes of the target that its turn gives. -/
def TargetCall.afterTurn (found : Option Target) : Nat → TargetCall
  | 0 => .returned found
  | tries + 1 => if found.any Target.healthy then .returned found else .scanning tries

theorem TargetCall.afterTurn_eq_scanning_iff {found : Option Target} {tries left : Nat} :
    afterTurn found tries = .scanning left ↔ tries = left + 1 ∧ found.any Target.healthy = false := by
  cases tries with
  | zero => simp [afterTurn]
  | succ tries => cases h : found.any Target.healthy <;> simp [afterTurn, h]

theorem TargetCall.afterTurn_eq_returned_iff {found target : Option Target} {tries : Nat} :
    afterTurn found tries = .returned target ↔ found = target ∧ (tries = 0 ∨ found.any Target.healthy = true) := by
  cases tries with
  | zero => simp [afterTurn]
  | succ tries => cases h : found.any Target.healthy <;> simp [afterTurn, h]

/-- The shared counter of a route and the calls on it. -/
structure Rotation where
  next : UInt64
  calls : Nat → TargetCall

namespace Rotation

def start (targets : List Target) (next : UInt64) : Rotation := ⟨next, fun _ => .scanning targets.length⟩

/-- One `fetch_add` of a call, with what the call does before its next. -/
def turn (targets : List Target) (s : Rotation) (id : Nat) : Rotation :=
  match s.calls id with
  | .scanning tries =>
    ⟨s.next + 1, Function.update s.calls id (TargetCall.afterTurn targets[s.next.toNat % targets.length]? tries)⟩
  | .returned _ => s

def Next (targets : List Target) (s : Rotation) (id : Nat) (t : Rotation) : Prop :=
  (∃ tries, s.calls id = .scanning tries) ∧ t = s.turn targets id

section
variable (targets : List Target) {s : Rotation} {id : Nat}

theorem next_turn {tries : Nat} (h : s.calls id = .scanning tries) : (s.turn targets id).next = s.next + 1 := by
  unfold turn
  rw [h]

theorem calls_turn_self {tries : Nat} (h : s.calls id = .scanning tries) :
    (s.turn targets id).calls id = TargetCall.afterTurn targets[s.next.toNat % targets.length]? tries := by
  unfold turn
  rw [h]
  exact Function.update_self ..

theorem calls_turn_ne {k : Nat} (hk : k ≠ id) : (s.turn targets id).calls k = s.calls k := by
  unfold turn
  split
  · exact Function.update_of_ne hk ..
  · rfl

end

/-! ## A call alone -/

/-- **Without other calls, a call's turns are the scan of its route.** -/
theorem run_alone (targets : List Target) (id : Nat) : ∀ (tries : Nat) (s : Rotation), s.calls id = .scanning tries →
    ∃ k t, Runs.Run (Next targets) s (List.replicate k id) t ∧
      t.calls id = .returned (Route.scanTargets targets tries s.next).1 ∧
      t.next = (Route.scanTargets targets tries s.next).2
  | 0, s, h => ⟨1, s.turn targets id, .cons ⟨⟨0, h⟩, rfl⟩ (.nil _), calls_turn_self targets h, next_turn targets h⟩
  | tries + 1, s, h => by
    have hcall := calls_turn_self targets h
    rw [TargetCall.afterTurn] at hcall
    rw [Route.scanTargets_succ]
    by_cases hhealthy : targets[s.next.toNat % targets.length]?.any Target.healthy = true
    · rw [if_pos hhealthy] at hcall ⊢
      exact ⟨1, s.turn targets id, .cons ⟨⟨tries + 1, h⟩, rfl⟩ (.nil _), hcall, next_turn targets h⟩
    · rw [if_neg hhealthy] at hcall ⊢
      obtain ⟨k, t, hrun, hreturned, hnext⟩ := run_alone targets id tries (s.turn targets id) hcall
      rw [next_turn targets h] at hreturned hnext
      exact ⟨k + 1, t, .cons ⟨⟨tries + 1, h⟩, rfl⟩ hrun, hreturned, hnext⟩

/-- **`nextTarget` is a run of one call.** -/
theorem run_nextTarget {r : Route} (h : r.targets ≠ []) :
    ∃ k t, Runs.Run (Next r.targets) (start r.targets r.next) (List.replicate k 0) t ∧
      t.calls 0 = .returned r.nextTarget.1 ∧ t.next = r.nextTarget.2.next := by
  have hlen : ¬ r.targets.length = 0 := fun h0 => h (List.length_eq_zero_iff.1 h0)
  unfold Route.nextTarget
  rw [if_neg hlen]
  exact run_alone r.targets 0 r.targets.length (start r.targets r.next) rfl

/-! ## Calls among others -/

def HealthyAt (targets : List Target) (k : Nat) : Prop :=
  targets[k % targets.length]?.any Target.healthy = true

/-- A turn of the call falls on a healthy target. -/
def HealthyTurn (targets : List Target) (start : Nat) (ids : List Nat) (id : Nat) : Prop :=
  ∃ p, ids[p]? = some id ∧ HealthyAt targets (start + p)

theorem healthyTurn_concat {targets : List Target} {start : Nat} {ids : List Nat} {e id : Nat} :
    HealthyTurn targets start (ids ++ [e]) id ↔
      HealthyTurn targets start ids id ∨ e = id ∧ HealthyAt targets (start + ids.length) := by
  constructor
  · rintro ⟨p, hp, hhealthy⟩
    rcases Nat.lt_trichotomy p ids.length with hlt | heq | hgt
    · rw [List.getElem?_append_left hlt] at hp
      exact Or.inl ⟨p, hp, hhealthy⟩
    · subst heq
      rw [List.getElem?_concat_length, Option.some.injEq] at hp
      exact Or.inr ⟨hp, hhealthy⟩
    · rw [List.getElem?_eq_none (by rw [List.length_append, List.length_singleton]; omega)] at hp
      cases hp
  · rintro (⟨p, hp, hhealthy⟩ | ⟨rfl, hhealthy⟩)
    · have hlt : p < ids.length := (List.getElem?_eq_some_iff.1 hp).1
      exact ⟨p, by rwa [List.getElem?_append_left hlt], hhealthy⟩
    · exact ⟨ids.length, List.getElem?_concat_length, hhealthy⟩

/-- **What the turns so far have made of the counter and the calls.** -/
structure Tracks (targets : List Target) (first : UInt64) (ids : List Nat) (s : Rotation) : Prop where
  next : s.next.toNat = first.toNat + ids.length
  scanning : ∀ {id tries}, s.calls id = .scanning tries →
    ids.count id + tries = targets.length ∧ ¬ HealthyTurn targets first.toNat ids id
  returned : ∀ {id found}, s.calls id = .returned found →
    ids.count id ≤ targets.length + 1 ∧
      (found.any Target.healthy = true ↔ HealthyTurn targets first.toNat ids id) ∧
      (found.any Target.healthy = false → ids.count id = targets.length + 1)

theorem count_concat_ne {ids : List Nat} {id e : Nat} (h : id ≠ e) : (ids ++ [e]).count id = ids.count id := by
  rw [List.count_append, List.count_singleton, if_neg (by simpa using h.symm), Nat.add_zero]

theorem tracks_turn {targets : List Target} {first : UInt64} {ids : List Nat} {s : Rotation} {e tries : Nat}
    (hs : Tracks targets first ids s) (he : s.calls e = .scanning tries)
    (hwrap : first.toNat + ids.length + 1 < 2 ^ 64) : Tracks targets first (ids ++ [e]) (s.turn targets e) := by
  obtain ⟨hcount, hnone⟩ := hs.scanning he
  have hcount' : (ids ++ [e]).count e = ids.count e + 1 := by
    rw [List.count_append, List.count_singleton_self]
  have hself : HealthyTurn targets first.toNat (ids ++ [e]) e ↔
      targets[s.next.toNat % targets.length]?.any Target.healthy = true := by
    rw [healthyTurn_concat, or_iff_right hnone, and_iff_right rfl, hs.next]
    rfl
  have hother : ∀ {id}, id ≠ e →
      (HealthyTurn targets first.toNat (ids ++ [e]) id ↔ HealthyTurn targets first.toNat ids id) := fun hid => by
    rw [healthyTurn_concat, or_iff_left (fun h => hid h.1.symm)]
  refine ⟨?_, fun {id left} hid => ?_, fun {id found} hid => ?_⟩
  · rw [next_turn targets he, UInt64.toNat_add, List.length_append, List.length_singleton, hs.next]
    have : (1 : UInt64).toNat = 1 := rfl
    omega
  · by_cases hne : id = e
    · subst hne
      rw [calls_turn_self targets he] at hid
      obtain ⟨rfl, hdown⟩ := TargetCall.afterTurn_eq_scanning_iff.1 hid
      rw [hself, hcount', hdown]
      exact ⟨by omega, by decide⟩
    · rw [calls_turn_ne targets hne] at hid
      rw [count_concat_ne hne, hother hne]
      exact hs.scanning hid
  · by_cases hne : id = e
    · subst hne
      rw [calls_turn_self targets he] at hid
      obtain ⟨rfl, hlast⟩ := TargetCall.afterTurn_eq_returned_iff.1 hid
      rw [hself, hcount']
      refine ⟨by omega, Iff.rfl, fun hdown => ?_⟩
      rw [hdown] at hlast
      have hzero : tries = 0 := hlast.resolve_right (by decide)
      omega
    · rw [calls_turn_ne targets hne] at hid
      rw [count_concat_ne hne, hother hne]
      exact hs.returned hid

theorem tracks_run {targets : List Target} {first : UInt64} {ids : List Nat} {s : Rotation}
    (hrun : Runs.Run (Next targets) (start targets first) ids s) (hwrap : first.toNat + ids.length < 2 ^ 64) :
    Tracks targets first ids s := by
  have hstart : first.toNat + ([] : List Nat).length < 2 ^ 64 → Tracks targets first [] (start targets first) := by
    intro _
    refine ⟨rfl, fun {id tries} h => ?_, fun {id found} h => by cases h⟩
    cases h
    exact ⟨by rw [List.count_nil, Nat.zero_add], fun ⟨p, hp, _⟩ => by simp at hp⟩
  refine hrun.invariant_history (P := fun ids s => first.toNat + ids.length < 2 ^ 64 → Tracks targets first ids s)
    hstart (fun es t e u ht hstep hwrap => ?_) hwrap
  obtain ⟨⟨tries, he⟩, rfl⟩ := hstep
  rw [List.length_append, List.length_singleton] at hwrap
  exact tracks_turn (ht (by omega)) he (by omega)

/-! ## Calls nobody interrupts -/

/-- The turns of the call stand next to each other in the order of all turns. -/
def Uninterrupted (ids : List Nat) (id : Nat) : Prop :=
  ∃ before k after, ids = before ++ List.replicate k id ++ after ∧ id ∉ before ∧ id ∉ after

theorem exists_add_mod_eq {a n j : Nat} (h : j < n) : ∃ i < n, (a + i) % n = j := by
  have hmod : a % n < n := Nat.mod_lt _ (by omega)
  by_cases hle : a % n ≤ j
  · refine ⟨j - a % n, by omega, ?_⟩
    rw [Nat.add_mod, Nat.mod_eq_of_lt (show j - a % n < n by omega), Nat.add_sub_cancel' hle, Nat.mod_eq_of_lt h]
  · refine ⟨n - a % n + j, by omega, ?_⟩
    have hsum : a % n + (n - a % n + j) = j + n := by omega
    rw [Nat.add_mod, Nat.mod_eq_of_lt (show n - a % n + j < n by omega), hsum, Nat.add_mod_right, Nat.mod_eq_of_lt h]

/-- **As many turns in a row as there are targets visit every target.** -/
theorem healthyTurn_of_uninterrupted {targets : List Target} (hsome : ∃ target ∈ targets, target.healthy = true)
    {first : Nat} {ids : List Nat} {id : Nat} (hrow : Uninterrupted ids id) (hcount : targets.length ≤ ids.count id) :
    HealthyTurn targets first ids id := by
  obtain ⟨before, k, after, rfl, hbefore, hafter⟩ := hrow
  obtain ⟨target, hmem, hup⟩ := hsome
  obtain ⟨j, hj, hget⟩ := List.mem_iff_getElem.1 hmem
  have hk : (before ++ List.replicate k id ++ after).count id = k := by
    rw [List.count_append, List.count_append, List.count_replicate_self, List.count_eq_zero_of_not_mem hbefore,
      List.count_eq_zero_of_not_mem hafter]
    omega
  rw [hk] at hcount
  obtain ⟨i, hi, hmod⟩ := exists_add_mod_eq (a := first + before.length) hj
  refine ⟨before.length + i, ?_, ?_⟩
  · rw [List.append_assoc, List.getElem?_append_right (by omega), Nat.add_sub_cancel_left,
      List.getElem?_append_left (by rw [List.length_replicate]; omega), List.getElem?_replicate, if_pos (by omega)]
  · unfold HealthyAt
    rw [← Nat.add_assoc, hmod, List.getElem?_eq_getElem hj, hget]
    exact hup

/-- **Every call returns a healthy target exactly when every call that has returned took a turn on one**, as a call
does whose turns nobody interrupts; and no call takes more than one turn for each target and another. -/
theorem calls_healthy_iff {targets : List Target} (hsome : ∃ target ∈ targets, target.healthy = true) {first : UInt64}
    {ids : List Nat} {s : Rotation} (hrun : Runs.Run (Next targets) (start targets first) ids s)
    (hwrap : first.toNat + ids.length < 2 ^ 64) :
    ((∀ id found, s.calls id = .returned found → ∃ target, found = some target ∧ target.healthy = true) ↔
      ∀ id found, s.calls id = .returned found → HealthyTurn targets first.toNat ids id) ∧
    (∀ id found, s.calls id = .returned found → Uninterrupted ids id → HealthyTurn targets first.toNat ids id) ∧
    ∀ id, ids.count id ≤ targets.length + 1 := by
  have hs := tracks_run hrun hwrap
  refine ⟨forall_congr' (fun id => forall_congr' (fun found => forall_congr' (fun hid => ?_))),
    fun id found hid hrow => ?_, fun id => ?_⟩
  · rw [← (hs.returned hid).2.1, Option.any_eq_true]
  · by_contra hturn
    obtain ⟨-, hhealthy, hall⟩ := hs.returned hid
    have hdown : found.any Target.healthy = false := Bool.eq_false_iff.2 (fun hup => hturn (hhealthy.1 hup))
    exact hturn (healthyTurn_of_uninterrupted hsome hrow (by rw [hall hdown]; omega))
  · cases hid : s.calls id with
    | scanning tries =>
      have := (hs.scanning hid).1
      omega
    | returned found => exact (hs.returned hid).1

/-- One target that is down before one that is up. -/
def halfUp : List Target :=
  [{ Target.new "10.0.0.1:80".toList false [] with healthy := false }, Target.new "10.0.0.2:80".toList false []]

def runTurns (ids : List Nat) : Rotation := ids.foldl (turn halfUp) (start halfUp 0)

theorem alone_call_healthy :
    Runs.Run (Next halfUp) (start halfUp 0) [7, 7] (runTurns [7, 7]) ∧
      ((∀ id found, (runTurns [7, 7]).calls id = .returned found →
          ∃ target, found = some target ∧ target.healthy = true) ↔
        ∀ id found, (runTurns [7, 7]).calls id = .returned found →
          HealthyTurn halfUp (UInt64.toNat 0) [7, 7] id) :=
  have hrun : Runs.Run (Next halfUp) (start halfUp 0) [7, 7] (runTurns [7, 7]) :=
    .cons ⟨⟨2, rfl⟩, rfl⟩ (.cons ⟨⟨1, rfl⟩, rfl⟩ (.nil _))
  ⟨hrun, (calls_healthy_iff ⟨Target.new "10.0.0.2:80".toList false [], by decide, rfl⟩ hrun (by decide)).1⟩

/-- **A call that two others interrupt returns the target that is down.** -/
theorem interrupted_call_unhealthy :
    Runs.Run (Next halfUp) (start halfUp 0) [0, 1, 0, 2, 0] (runTurns [0, 1, 0, 2, 0]) ∧
      (∃ target ∈ halfUp, target.healthy = true) ∧
      ∃ target, (runTurns [0, 1, 0, 2, 0]).calls 0 = .returned (some target) ∧ target.healthy = false :=
  ⟨.cons ⟨⟨2, rfl⟩, rfl⟩ (.cons ⟨⟨2, rfl⟩, rfl⟩ (.cons ⟨⟨1, rfl⟩, rfl⟩ (.cons ⟨⟨2, rfl⟩, rfl⟩
    (.cons ⟨⟨0, rfl⟩, rfl⟩ (.nil _))))),
    ⟨Target.new "10.0.0.2:80".toList false [], by decide, rfl⟩,
    { Target.new "10.0.0.1:80".toList false [] with healthy := false }, by decide, rfl⟩

end Rotation
end Zaphyl
