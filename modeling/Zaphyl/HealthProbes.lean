import Zaphyl.Rotation
import Zaphyl.TargetRace
/-!
# HealthProbes — the health prober beside the calls of `next_target`

The prober goes round the targets of all routes and stores in each target's flag whether its address could be reached.
Calls of `next_target` take turns of their route's counter and look at the flags, each step on its own, while the prober
goes on.  Once what can be reached is steady and the prober has been round, the flags say what can be reached
(`prober_settles`), and a call whose turns no other call takes finds a target that can be (`settled_call_reachable`).
-/
namespace Zaphyl

/-- Where a target stands: the index of its route, and its own among the route's targets. -/
structure Place where
  route : Nat
  target : Nat
deriving DecidableEq

namespace Router

def targetAt (router : Router) (p : Place) : Option Target :=
  router.routes[p.route]?.bind (fun route => route.targets[p.target]?)

/-- Every target's address paired with its place, at which a handle updates its health. -/
def healthProbes (router : Router) : List (Str × Place) :=
  router.routes.zipIdx.flatMap (fun r => r.1.targets.zipIdx.map (fun t => (t.1.address, ⟨r.2, t.2⟩)))

/-- A store to the flag of a target. -/
def setHealthy (router : Router) (p : Place) (up : Bool) : Router :=
  ⟨router.routes.modify p.route (fun route =>
    { route with targets := route.targets.modify p.target (fun target => { target with healthy := up }) })⟩

/-- A `fetch_add` on the counter of a route. -/
def advance (router : Router) (i : Nat) : Router :=
  ⟨router.routes.modify i (fun route => { route with next := route.next + 1 })⟩

end Router

/-- What a call of `next_target` does next: take a turn of the counter, with turns left to look for a healthy target, or
look at the flag of the target that its turn gave. -/
inductive CallPc
  | counting (tries : Nat)
  | looking (index tries : Nat)
  | returned (index : Option Nat)
deriving DecidableEq

def CallPc.isCounting : CallPc → Bool
  | .counting _ => true
  | _ => false

structure RouteCall where
  route : Nat
  pc : CallPc
deriving DecidableEq

/-- The call at its start. -/
def RouteCall.start (i : Nat) (route : Route) : RouteCall :=
  ⟨i, if route.targets.length = 0 then .returned none else .counting route.targets.length⟩

/-- `position` is where the prober is in its list, and `reachable` what it has found of the address there. -/
structure Balancer where
  router : Router
  probes : List (Str × Place)
  position : Nat
  reachable : Option Bool
  calls : List RouteCall

inductive BalancerEvent
  | call (host : Option Str) (path : Str)
  | turn (c : Nat)
  | probed (reachable : Bool)
  | stored
deriving DecidableEq

namespace Balancer

def start (router : Router) : Balancer := ⟨router, router.healthProbes, 0, none, []⟩

/-- One step of a call. -/
def turn (s : Balancer) (c : Nat) (call : RouteCall) : Option Balancer :=
  s.router.routes[call.route]?.bind (fun route =>
    match call.pc with
    | .counting 0 =>
      some { s with
        router := s.router.advance call.route
        calls := s.calls.set c ⟨call.route, .returned (some (route.next.toNat % route.targets.length))⟩ }
    | .counting (tries + 1) =>
      some { s with
        router := s.router.advance call.route
        calls := s.calls.set c ⟨call.route, .looking (route.next.toNat % route.targets.length) tries⟩ }
    | .looking index tries =>
      if route.targets[index]?.any Target.healthy then
        some { s with calls := s.calls.set c ⟨call.route, .returned (some index)⟩ }
      else some { s with calls := s.calls.set c ⟨call.route, .counting tries⟩ }
    | .returned _ => none)

def next (s : Balancer) : BalancerEvent → Option Balancer
  | .call host path =>
    (s.router.routes.findIdx? (fun route => route.matches host path)).bind (fun i =>
      s.router.routes[i]?.map (fun route => { s with calls := s.calls ++ [.start i route] }))
  | .turn c => s.calls[c]?.bind (fun call => s.turn c call)
  | .probed reachable =>
    if s.position < s.probes.length ∧ s.reachable = none then some { s with reachable := some reachable } else none
  | .stored =>
    s.probes[s.position]?.bind (fun probe => s.reachable.map (fun up =>
      { s with
        router := s.router.setHealthy probe.2 up
        reachable := none
        position := (s.position + 1) % s.probes.length }))

def Next (s : Balancer) (e : BalancerEvent) (t : Balancer) : Prop := s.next e = some t

/-- What can be reached is `up`: a probe that ends finds so. -/
def Steady (up : Str → Bool) (s : Balancer) : BalancerEvent → Prop
  | .probed reachable => ∀ probe ∈ s.probes[s.position]?, reachable = up probe.1
  | _ => True

/-- The flags say what can be reached. -/
def Settled (up : Str → Bool) (s : Balancer) : Prop :=
  ∀ p target, s.router.targetAt p = some target → target.healthy = up target.address

/-- No call but `c` takes a turn of the counter of route `i`. -/
def Undisturbed (c i : Nat) (s : Balancer) : BalancerEvent → Prop
  | .turn d => d = c ∨ ∀ call ∈ s.calls[d]?, call.route = i → call.pc.isCounting = false
  | _ => True

instance (up : Str → Bool) (s : Balancer) (e : BalancerEvent) : Decidable (s.Steady up e) :=
  match e with
  | .probed reachable => inferInstanceAs (Decidable (∀ probe ∈ s.probes[s.position]?, reachable = up probe.1))
  | .call _ _ => isTrue trivial
  | .turn _ => isTrue trivial
  | .stored => isTrue trivial

instance (c i : Nat) (s : Balancer) (e : BalancerEvent) : Decidable (s.Undisturbed c i e) :=
  match e with
  | .turn d =>
    inferInstanceAs (Decidable (d = c ∨ ∀ call ∈ s.calls[d]?, call.route = i → call.pc.isCounting = false))
  | .call _ _ => isTrue trivial
  | .probed _ => isTrue trivial
  | .stored => isTrue trivial

end Balancer

/-! ## The targets of a router -/

namespace Router

/-- The addresses of the targets, by route. -/
def addresses (router : Router) : List (List Str) :=
  router.routes.map (fun route => route.targets.map Target.address)

theorem targetAt_setHealthy (router : Router) (p q : Place) (up : Bool) :
    (router.setHealthy p up).targetAt q =
      if p = q then (router.targetAt q).map (fun target => { target with healthy := up }) else router.targetAt q := by
  obtain ⟨i, j⟩ := p
  obtain ⟨k, l⟩ := q
  unfold targetAt setHealthy
  simp only [List.getElem?_modify, Place.mk.injEq]
  by_cases hik : i = k
  · cases router.routes[k]? with
    | none => simp [hik]
    | some route =>
      by_cases hjl : j = l
      · simp [hik, hjl]
      · simp [hik, hjl]
  · simp [hik]

theorem targetAt_advance (router : Router) (i : Nat) (p : Place) :
    (router.advance i).targetAt p = router.targetAt p := by
  unfold targetAt advance
  simp only [List.getElem?_modify]
  cases router.routes[p.route]? with
  | none => rfl
  | some route =>
    by_cases hi : i = p.route
    · simp [hi]
    · simp [hi]

theorem addresses_setHealthy (router : Router) (p : Place) (up : Bool) :
    (router.setHealthy p up).addresses = router.addresses := by
  refine List.ext_getElem? (fun k => ?_)
  unfold addresses setHealthy
  simp only [List.getElem?_map, List.getElem?_modify]
  cases router.routes[k]? with
  | none => rfl
  | some route =>
    by_cases hk : p.route = k
    · have hsame : (route.targets.modify p.target (fun target => { target with healthy := up })).map Target.address =
          route.targets.map Target.address := by
        refine List.ext_getElem? (fun l => ?_)
        simp only [List.getElem?_map, List.getElem?_modify]
        cases route.targets[l]? with
        | none => rfl
        | some target =>
          by_cases hl : p.target = l
          · simp [hl]
          · simp [hl]
      simp [hk, hsame]
    · simp [hk]

theorem addresses_advance (router : Router) (i : Nat) : (router.advance i).addresses = router.addresses := by
  refine List.ext_getElem? (fun k => ?_)
  unfold addresses advance
  simp only [List.getElem?_map, List.getElem?_modify]
  cases router.routes[k]? with
  | none => rfl
  | some route =>
    by_cases hk : i = k
    · simp [hk]
    · simp [hk]

theorem address_of_targetAt {router : Router} {p : Place} {target : Target} (h : router.targetAt p = some target) :
    router.addresses[p.route]?.bind (fun targets => targets[p.target]?) = some target.address := by
  unfold targetAt at h
  obtain ⟨route, hroute, htarget⟩ := Option.bind_eq_some_iff.1 h
  unfold addresses
  rw [List.getElem?_map, hroute, Option.map_some, Option.bind_some, List.getElem?_map, htarget]
  rfl

/-- **The probes are the targets.** -/
theorem mem_healthProbes_iff (router : Router) (address : Str) (p : Place) :
    (address, p) ∈ router.healthProbes ↔
      router.addresses[p.route]?.bind (fun targets => targets[p.target]?) = some address := by
  obtain ⟨i, j⟩ := p
  unfold healthProbes addresses
  simp only [List.mem_flatMap, List.mem_map, Prod.exists, List.mem_zipIdx_iff_getElem?, Prod.mk.injEq, Place.mk.injEq,
    List.getElem?_map]
  constructor
  · rintro ⟨route, k, hroute, target, l, htarget, rfl, rfl, rfl⟩
    rw [hroute, Option.map_some, Option.bind_some, List.getElem?_map, htarget]
    rfl
  · intro h
    obtain ⟨targets, htargets, haddress⟩ := Option.bind_eq_some_iff.1 h
    obtain ⟨route, hroute, rfl⟩ := Option.map_eq_some_iff.1 htargets
    rw [List.getElem?_map] at haddress
    obtain ⟨target, htarget, rfl⟩ := Option.map_eq_some_iff.1 haddress
    exact ⟨route, i, hroute, target, j, htarget, rfl, rfl, rfl⟩

end Router

namespace Balancer

variable {s t : Balancer} {e : BalancerEvent} {up : Str → Bool} {router : Router}

/-! ## The steps -/

/-- What the prober depends on, and what it changes, is the same. -/
structure SameProbing (s t : Balancer) : Prop where
  probes : t.probes = s.probes
  position : t.position = s.position
  reachable : t.reachable = s.reachable
  targetAt : ∀ p, t.router.targetAt p = s.router.targetAt p
  addresses : t.router.addresses = s.router.addresses

/-- The steps of the calls leave the prober and the flags. -/
theorem sameProbing_turn {c : Nat} {call : RouteCall} (h : s.turn c call = some t) : SameProbing s t := by
  obtain ⟨route, -, hturn⟩ := Option.bind_eq_some_iff.1 h
  split at hturn
  · rw [← Option.some.inj hturn]
    exact ⟨rfl, rfl, rfl, s.router.targetAt_advance _, s.router.addresses_advance _⟩
  · rw [← Option.some.inj hturn]
    exact ⟨rfl, rfl, rfl, s.router.targetAt_advance _, s.router.addresses_advance _⟩
  · split at hturn
    · rw [← Option.some.inj hturn]
      exact ⟨rfl, rfl, rfl, fun _ => rfl, rfl⟩
    · rw [← Option.some.inj hturn]
      exact ⟨rfl, rfl, rfl, fun _ => rfl, rfl⟩
  · cases hturn

/-- **What a step does to what the prober sees**: nothing, a probe that ends, or a store at the prober's place. -/
theorem next_cases (h : s.Next e t) : SameProbing s t ∧ e ≠ .stored ∧ (∀ r, e ≠ .probed r) ∨
    (∃ r, e = .probed r ∧ t = { s with reachable := some r }) ∨
    ∃ probe r, e = .stored ∧ s.probes[s.position]? = some probe ∧ s.reachable = some r ∧
      t = { s with
        router := s.router.setHealthy probe.2 r
        reachable := none
        position := (s.position + 1) % s.probes.length } := by
  unfold Next at h
  cases e with
  | call host path =>
    obtain ⟨i, -, hrest⟩ := Option.bind_eq_some_iff.1 h
    obtain ⟨route, -, rfl⟩ := Option.map_eq_some_iff.1 hrest
    exact .inl ⟨⟨rfl, rfl, rfl, fun _ => rfl, rfl⟩, by simp, by simp⟩
  | turn c =>
    obtain ⟨call, -, hturn⟩ := Option.bind_eq_some_iff.1 h
    exact .inl ⟨sameProbing_turn hturn, by simp, by simp⟩
  | probed r =>
    simp only [next] at h
    split at h
    · exact .inr (.inl ⟨r, rfl, (Option.some.inj h).symm⟩)
    · cases h
  | stored =>
    obtain ⟨probe, hprobe, hrest⟩ := Option.bind_eq_some_iff.1 h
    obtain ⟨r, hr, rfl⟩ := Option.map_eq_some_iff.1 hrest
    exact .inr (.inr ⟨probe, r, rfl, hprobe, hr, rfl⟩)

/-- The prober goes round the targets of the router that it was given. -/
structure Wired (router : Router) (s : Balancer) : Prop where
  probes : s.probes = router.healthProbes
  addresses : s.router.addresses = router.addresses
  position : s.probes ≠ [] → s.position < s.probes.length

theorem wired_step (hs : s.Wired router) (hstep : s.Next e t) : t.Wired router := by
  rcases next_cases hstep with ⟨hsame, -, -⟩ | ⟨r, -, rfl⟩ | ⟨probe, r, -, -, -, rfl⟩
  · refine ⟨hsame.probes.trans hs.probes, hsame.addresses.trans hs.addresses, fun hne => ?_⟩
    rw [hsame.probes] at hne ⊢
    rw [hsame.position]
    exact hs.position hne
  · exact ⟨hs.probes, hs.addresses, hs.position⟩
  · exact ⟨hs.probes, (s.router.addresses_setHealthy _ _).trans hs.addresses,
      fun hne => Nat.mod_lt _ (List.length_pos_iff.2 hne)⟩

theorem wired_run {es : List BalancerEvent} (h : Runs.Run Next (start router) es s) : s.Wired router :=
  h.invariant (fun _ _ _ hs hstep => wired_step hs hstep) ⟨rfl, rfl, fun hne => List.length_pos_iff.2 hne⟩

/-- The target at a probe's place has the probe's address. -/
theorem Wired.address (h : s.Wired router) {k : Nat} {probe : Str × Place} (hprobe : s.probes[k]? = some probe)
    {target : Target} (htarget : s.router.targetAt probe.2 = some target) : target.address = probe.1 := by
  have hmem : (probe.1, probe.2) ∈ router.healthProbes := by
    rw [← h.probes]
    exact List.mem_of_getElem? hprobe
  have hplace := Router.address_of_targetAt htarget
  rw [h.addresses, (router.mem_healthProbes_iff _ _).1 hmem] at hplace
  exact (Option.some.inj hplace).symm

/-- Every target has its place in the prober's round. -/
theorem Wired.probed (h : s.Wired router) {p : Place} {target : Target} (htarget : s.router.targetAt p = some target) :
    ∃ k < s.probes.length, s.probes[k]? = some (target.address, p) := by
  have hmem : (target.address, p) ∈ s.probes := by
    rw [h.probes, Router.mem_healthProbes_iff, ← h.addresses]
    exact Router.address_of_targetAt htarget
  obtain ⟨k, hk, hget⟩ := List.mem_iff_getElem.1 hmem
  exact ⟨k, hk, by rw [List.getElem?_eq_getElem hk, hget]⟩

/-! ## The prober -/

/-- What the prober has found at its place is so. -/
def Fresh (up : Str → Bool) (s : Balancer) : Prop :=
  ∀ r, s.reachable = some r → ∀ probe, s.probes[s.position]? = some probe → r = up probe.1

/-- The flag at a place of the prober's round says what can be reached. -/
def SettledAt (up : Str → Bool) (s : Balancer) (k : Nat) : Prop :=
  ∀ probe, s.probes[k]? = some probe → ∀ target, s.router.targetAt probe.2 = some target →
    target.healthy = up target.address

theorem SameProbing.fresh (h : SameProbing s t) (hs : s.Fresh up) : t.Fresh up := by
  unfold Fresh
  rw [h.reachable, h.probes, h.position]
  exact hs

theorem SameProbing.settledAt (h : SameProbing s t) {k : Nat} (hs : s.SettledAt up k) : t.SettledAt up k := by
  unfold SettledAt
  rw [h.probes]
  intro probe hprobe target htarget
  exact hs probe hprobe target ((h.targetAt _).symm.trans htarget)

/-- A store of what is so settles the prober's place and unsettles none. -/
theorem settledAt_stored (hs : s.Wired router) (hfresh : s.Fresh up) {probe : Str × Place} {r : Bool}
    (hprobe : s.probes[s.position]? = some probe) (hr : s.reachable = some r) {k : Nat}
    (hk : k = s.position ∨ s.SettledAt up k) :
    ({ s with
      router := s.router.setHealthy probe.2 r
      reachable := none
      position := (s.position + 1) % s.probes.length } : Balancer).SettledAt up k := by
  have hvalue := hfresh r hr probe hprobe
  intro place hplace target htarget
  have hat : (s.router.setHealthy probe.2 r).targetAt place.2 = some target := htarget
  rw [Router.targetAt_setHealthy] at hat
  by_cases hsame : probe.2 = place.2
  · rw [if_pos hsame] at hat
    obtain ⟨before, hbefore, rfl⟩ := Option.map_eq_some_iff.1 hat
    show r = up before.address
    rw [hvalue, hs.address hprobe (hsame ▸ hbefore)]
  · rw [if_neg hsame] at hat
    rcases hk with rfl | hk
    · rw [hprobe] at hplace
      exact absurd (congrArg Prod.snd (Option.some.inj hplace)) hsame
    · exact hk place hplace target hat

/-- What the prober finds is so when what can be reached is steady. -/
theorem fresh_probed {r : Bool} (hsteady : s.Steady up (.probed r)) :
    ({ s with reachable := some r } : Balancer).Fresh up := by
  intro found hfound place hplace
  rw [← Option.some.inj hfound]
  exact hsteady place hplace

/-- Where the prober has come since `first`, and what it has settled: all of its stores but the first were of probes
that ended meanwhile. -/
structure Rounding (up : Str → Bool) (first : Nat) (es : List BalancerEvent) (s : Balancer) : Prop where
  position : s.probes ≠ [] → s.position = (first + es.count .stored) % s.probes.length
  fresh : 0 < es.count .stored → s.Fresh up
  settled : ∀ i, 0 < i → i < es.count .stored → s.SettledAt up ((first + i) % s.probes.length)

theorem rounding_step {first : Nat} {es : List BalancerEvent} (hs : s.Wired router) (h : s.Rounding up first es)
    (hsteady : s.Steady up e) (hstep : s.Next e t) : t.Rounding up first (es ++ [e]) := by
  have hcount : e ≠ .stored → (es ++ [e]).count .stored = es.count .stored := by
    intro hne
    rw [List.count_append, List.count_singleton]
    simp [hne]
  rcases next_cases hstep with ⟨hsame, hne, -⟩ | ⟨r, rfl, rfl⟩ | ⟨probe, r, rfl, hprobe, hr, rfl⟩
  · have hcount := hcount hne
    refine ⟨fun hprobes => ?_, fun hpos => hsame.fresh (h.fresh (hcount ▸ hpos)), fun i hi hlt => ?_⟩
    · rw [hsame.probes] at hprobes ⊢
      rw [hsame.position, hcount]
      exact h.position hprobes
    · rw [hsame.probes]
      exact hsame.settledAt (h.settled i hi (hcount ▸ hlt))
  · have hcount := hcount (by simp)
    refine ⟨fun hprobes => ?_, fun _ => fresh_probed hsteady, fun i hi hlt => ?_⟩
    · rw [hcount]
      exact h.position hprobes
    · exact h.settled i hi (hcount ▸ hlt)
  · have hcount : (es ++ [BalancerEvent.stored]).count .stored = es.count .stored + 1 := by
      rw [List.count_append, List.count_singleton_self]
    have hprobes : s.probes ≠ [] := List.ne_nil_of_mem (List.mem_of_getElem? hprobe)
    have hposition := h.position hprobes
    refine ⟨fun _ => ?_, fun _ _ hfound => (by cases hfound), fun i hi hlt => ?_⟩
    · show (s.position + 1) % s.probes.length = _
      rw [hposition, hcount, Nat.mod_add_mod, Nat.add_assoc]
    · rw [hcount] at hlt
      refine settledAt_stored hs (h.fresh (by omega)) hprobe hr ?_
      rcases Nat.lt_succ_iff_lt_or_eq.1 hlt with hlt | rfl
      · exact .inr (h.settled i hi hlt)
      · exact .inl hposition.symm

theorem rounding_run {es : List BalancerEvent} (hs : s.Wired router)
    (hrun : Runs.Run (Runs.Run.Where Next (Steady up)) s es t) :
    t.Wired router ∧ t.Rounding up s.position es := by
  refine hrun.invariant_history (P := fun es t => t.Wired router ∧ t.Rounding up s.position es) ⟨hs, ?_⟩
    (fun _ _ _ _ h hstep => ⟨wired_step h.1 hstep.1, rounding_step h.1 h.2 hstep.2 hstep.1⟩)
  refine ⟨fun hne => ?_, fun hpos => absurd hpos (Nat.lt_irrefl 0), fun i hi hlt => absurd hlt (Nat.not_lt_zero i)⟩
  exact (Nat.mod_eq_of_lt (hs.position hne)).symm

theorem settled_of_settledAt (hs : s.Wired router) (h : ∀ k < s.probes.length, s.SettledAt up k) : s.Settled up := by
  intro p target htarget
  obtain ⟨k, hk, hprobe⟩ := hs.probed htarget
  exact h k hk _ hprobe target htarget

theorem Rounding.settles {first : Nat} {es : List BalancerEvent} (h : s.Rounding up first es) (hs : s.Wired router)
    (hround : s.probes.length < es.count .stored) : s.Settled up ∧ s.Fresh up := by
  refine ⟨settled_of_settledAt hs (fun k hk => ?_), h.fresh (Nat.lt_of_le_of_lt (Nat.zero_le _) hround)⟩
  -- the place came up behind the first store
  obtain ⟨i, hi, hmod⟩ := Rotation.exists_add_mod_eq (a := first + 1) hk
  have hsettled := h.settled (i + 1) (Nat.succ_pos i) (by omega)
  rw [← Nat.add_assoc, Nat.add_right_comm, hmod] at hsettled
  exact hsettled

/-- **The flags say what can be reached** once it is steady and the prober has stored once more than there are targets,
whatever it and the calls did before. -/
theorem prober_settles {es₀ es₁ : List BalancerEvent} {s₀ s₁ : Balancer}
    (hrun : Runs.Run Next (start router) es₀ s₀) (hsteady : Runs.Run (Runs.Run.Where Next (Steady up)) s₀ es₁ s₁)
    (hround : router.healthProbes.length < es₁.count .stored) : s₁.Settled up := by
  have hwired := wired_run hrun
  obtain ⟨hwired₁, hrounding⟩ := rounding_run hwired hsteady
  exact (hrounding.settles hwired₁ (by rw [hwired₁.probes]; exact hround)).1

def downTarget : Target := Target.new "127.0.0.1:3000".toList false "127.0.0.1".toList

def upTarget : Target := Target.new "127.0.0.1:3001".toList false "127.0.0.1".toList

def twoRoute : Route := Route.new none none [downTarget, upTarget]

def twoTargets : Router := ⟨[twoRoute]⟩

def upOnly (address : Str) : Bool := address = upTarget.address

/-- The prober goes round, and on to the first target again. -/
def roundEvents : List BalancerEvent :=
  [.probed false, .stored, .probed true, .stored, .probed false, .stored]

/-- The call's turns, with a probe among them. -/
def turnEvents : List BalancerEvent := [.turn 0, .probed true, .turn 0, .turn 0, .stored, .turn 0]

/-- A step that is taken only where what can be reached is steady. -/
def steadyNext (s : Balancer) (e : BalancerEvent) : Option Balancer :=
  if decide (s.Steady upOnly e) then s.next e else none

def aloneNext (s : Balancer) (e : BalancerEvent) : Option Balancer :=
  if decide (s.Steady upOnly e ∧ s.Undisturbed 0 0 e) then s.next e else none

theorem twoTargets_runs : ∃ s₁ s₂ s₃ : Balancer, roundEvents.foldlM steadyNext (start twoTargets) = some s₁ ∧
    s₁.next (.call none ['/']) = some s₂ ∧ turnEvents.foldlM aloneNext s₂ = some s₃ ∧ s₁.calls.length = 0 ∧
    s₁.router.routes.findIdx? (fun r => r.matches none ['/']) = some 0 ∧
    s₁.router.routes[0]?.map Route.next = some 0 ∧
    s₁.router.routes[0]?.map (fun r => r.targets.map Target.address) = some [downTarget.address, upTarget.address] :=
  ⟨_, _, _, rfl, rfl, rfl, rfl, rfl, rfl, rfl⟩

theorem settled_two_targets : ∃ s₁, roundEvents.foldlM steadyNext (start twoTargets) = some s₁ ∧
    twoTargets.healthProbes.length < roundEvents.count .stored ∧ s₁.Settled upOnly := by
  obtain ⟨s₁, -, -, hround, -⟩ := twoTargets_runs
  have hcount : twoTargets.healthProbes.length < roundEvents.count .stored := by decide
  exact ⟨s₁, hround, hcount,
    prober_settles (.nil _) (Runs.run_where_of_foldlM (fun _ _ h => of_decide_eq_true h) hround) hcount⟩

/-- The flags stay so. -/
theorem settled_step (hs : s.Wired router) (hsettled : s.Settled up) (hfresh : s.Fresh up) (hsteady : s.Steady up e)
    (hstep : s.Next e t) : t.Settled up ∧ t.Fresh up := by
  have ht := wired_step hs hstep
  have hat : ∀ k, s.SettledAt up k := fun k probe _ target htarget => hsettled probe.2 target htarget
  rcases next_cases hstep with ⟨hsame, -, -⟩ | ⟨r, rfl, rfl⟩ | ⟨probe, r, -, hprobe, hr, rfl⟩
  · exact ⟨settled_of_settledAt ht (fun k _ => hsame.settledAt (hat k)), hsame.fresh hfresh⟩
  · exact ⟨hsettled, fresh_probed hsteady⟩
  · exact ⟨settled_of_settledAt ht (fun k _ => settledAt_stored hs hfresh hprobe hr (.inr (hat k))),
      fun _ hfound => (by cases hfound)⟩

/-! ## A call -/

/-- The counter of a route. -/
def counter (s : Balancer) (i : Nat) : Option UInt64 := s.router.routes[i]?.map Route.next

theorem counter_setHealthy (p : Place) (r : Bool) (i : Nat) :
    (s.router.setHealthy p r).routes[i]?.map Route.next = s.router.routes[i]?.map Route.next := by
  unfold Router.setHealthy
  rw [List.getElem?_modify]
  cases s.router.routes[i]? with
  | none => rfl
  | some route => by_cases hi : p.route = i <;> simp [hi]

theorem counter_advance_ne {j i : Nat} (h : j ≠ i) :
    (s.router.advance j).routes[i]?.map Route.next = s.router.routes[i]?.map Route.next := by
  unfold Router.advance
  rw [List.getElem?_modify_ne _ _ h]

theorem counter_advance_self {i : Nat} {n : UInt64} (h : s.counter i = some n) :
    (s.router.advance i).routes[i]?.map Route.next = some (n + 1) := by
  obtain ⟨route, hroute, rfl⟩ := Option.map_eq_some_iff.1 h
  unfold Router.advance
  rw [List.getElem?_modify_eq, hroute]
  rfl

/-- **The steps of the others leave a call and its counter.** -/
theorem others_leave {c i : Nat} {call : RouteCall} (hcall : s.calls[c]? = some call) (hne : e ≠ .turn c)
    (halone : s.Undisturbed c i e) (hstep : s.Next e t) : t.calls[c]? = some call ∧ t.counter i = s.counter i := by
  unfold Next at hstep
  cases e with
  | call host path =>
    obtain ⟨j, -, hrest⟩ := Option.bind_eq_some_iff.1 hstep
    obtain ⟨route, -, rfl⟩ := Option.map_eq_some_iff.1 hrest
    obtain ⟨hlt, -⟩ := List.getElem?_eq_some_iff.1 hcall
    exact ⟨(List.getElem?_append_left hlt).trans hcall, rfl⟩
  | probed r =>
    simp only [next] at hstep
    split at hstep
    · rw [← Option.some.inj hstep]
      exact ⟨hcall, rfl⟩
    · cases hstep
  | stored =>
    obtain ⟨probe, -, hrest⟩ := Option.bind_eq_some_iff.1 hstep
    obtain ⟨r, -, rfl⟩ := Option.map_eq_some_iff.1 hrest
    exact ⟨hcall, counter_setHealthy _ _ _⟩
  | turn d =>
    have hd : d ≠ c := fun h => hne (congrArg BalancerEvent.turn h)
    obtain ⟨other, hother, hturn⟩ := Option.bind_eq_some_iff.1 hstep
    obtain ⟨route, -, hturn⟩ := Option.bind_eq_some_iff.1 hturn
    have hkept : ∀ u : RouteCall, (s.calls.set d u)[c]? = some call := fun u =>
      (List.getElem?_set_ne hd).trans hcall
    have hroute : ∀ tries, other.pc = .counting tries → other.route ≠ i := by
      intro tries hpc hi
      have hscans := halone.resolve_left hd other hother hi
      rw [hpc] at hscans
      cases hscans
    split at hturn
    · rename_i hpc
      rw [← Option.some.inj hturn]
      exact ⟨hkept _, counter_advance_ne (hroute _ hpc)⟩
    · rename_i tries hpc
      rw [← Option.some.inj hturn]
      exact ⟨hkept _, counter_advance_ne (hroute _ hpc)⟩
    · split at hturn
      · rw [← Option.some.inj hturn]
        exact ⟨hkept _, rfl⟩
      · rw [← Option.some.inj hturn]
        exact ⟨hkept _, rfl⟩
    · cases hturn

/-- The address at a turn from `first` on cannot be reached. -/
def DownAt (up : Str → Bool) (addresses : List Str) (turn : Nat) : Prop :=
  addresses[turn % addresses.length]?.any up = false

/-- Where a call stands that has taken `taken` steps: it has looked at the turns from `first` on and found each down, or
it has returned a target that can be reached. -/
inductive Scanning (up : Str → Bool) (addresses : List Str) (first taken : Nat) (next : UInt64) : CallPc → Prop
  | counting {tries : Nat} (done : Nat) (sum : done + tries = addresses.length)
      (counter : next.toNat = first + done) (steps : taken = 2 * done)
      (down : ∀ d < done, DownAt up addresses (first + d)) :
      Scanning up addresses first taken next (.counting tries)
  | looking {tries : Nat} (done : Nat) (sum : done + (tries + 1) = addresses.length)
      (counter : next.toNat = first + (done + 1)) (steps : taken = 2 * done + 1)
      (down : ∀ d < done, DownAt up addresses (first + d)) :
      Scanning up addresses first taken next (.looking ((first + done) % addresses.length) tries)
  | found {k : Nat} (reached : addresses[k]?.any up = true) :
      Scanning up addresses first taken next (.returned (some k))

theorem exists_address {route : Route} (hup : ∃ target ∈ route.targets, up target.address = true) :
    ∃ a ∈ route.targets.map Target.address, up a = true := by
  obtain ⟨target, hmem, hreached⟩ := hup
  exact ⟨_, List.mem_map_of_mem hmem, hreached⟩

/-- A target that can be reached comes up within a round of turns. -/
theorem not_all_down {addresses : List Str} (hup : ∃ a ∈ addresses, up a = true) (first : Nat) :
    ¬ ∀ d < addresses.length, DownAt up addresses (first + d) := by
  obtain ⟨a, ha, hreached⟩ := hup
  obtain ⟨k, hk, hget⟩ := List.mem_iff_getElem.1 ha
  obtain ⟨d, hd, hmod⟩ := Rotation.exists_add_mod_eq (a := first) hk
  intro hall
  have hdown := hall d hd
  unfold DownAt at hdown
  rw [hmod, List.getElem?_eq_getElem hk, hget, Option.any_some, hreached] at hdown
  cases hdown

section

variable {addresses : List Str} {c i first taken : Nat} {next : UInt64} {pc : CallPc}

/-- The flag of a target says whether its address can be reached. -/
theorem healthy_eq (hsettled : s.Settled up) {route : Route} (hroute : s.router.routes[i]? = some route) (k : Nat) :
    route.targets[k]?.any Target.healthy = (route.targets.map Target.address)[k]?.any up := by
  rw [List.getElem?_map]
  cases htarget : route.targets[k]? with
  | none => rfl
  | some target =>
    have hat : s.router.targetAt ⟨i, k⟩ = some target := by
      unfold Router.targetAt
      rw [hroute]
      exact htarget
    rw [Option.any_some, Option.map_some, Option.any_some]
    exact hsettled _ _ hat

/-- **A step of the call goes on to the next turn or returns a target that can be reached.** -/
theorem scanning_turn (hsettled : s.Settled up) (haddresses : s.router.addresses[i]? = some addresses)
    (hup : ∃ a ∈ addresses, up a = true) (hwrap : first + addresses.length < 2 ^ 64)
    (hcall : s.calls[c]? = some ⟨i, pc⟩) (hcounter : s.counter i = some next)
    (h : Scanning up addresses first taken next pc) (hturn : s.turn c ⟨i, pc⟩ = some t) :
    ∃ pc' next', t.calls[c]? = some ⟨i, pc'⟩ ∧ t.counter i = some next' ∧
      Scanning up addresses first (taken + 1) next' pc' := by
  obtain ⟨hlt, -⟩ := List.getElem?_eq_some_iff.1 hcall
  obtain ⟨route, hroute, hturn⟩ := Option.bind_eq_some_iff.1 hturn
  have htargets : addresses = route.targets.map Target.address := by
    unfold Router.addresses at haddresses
    rw [List.getElem?_map, hroute] at haddresses
    exact (Option.some.inj haddresses).symm
  have hlength : route.targets.length = addresses.length := by
    rw [htargets, List.length_map]
  have hnext : route.next = next := by
    have hroute' : s.router.routes[i]? = some route := hroute
    unfold counter at hcounter
    rw [hroute'] at hcounter
    exact Option.some.inj hcounter
  cases h with
  | @counting tries done sum count steps down =>
    cases tries with
    | zero =>
      -- no call looks for every target in vain
      rw [Nat.add_zero] at sum
      exact absurd (sum ▸ down) (not_all_down hup first)
    | succ tries =>
      simp only at hturn
      rw [← Option.some.inj hturn, hnext, hlength, count]
      refine ⟨_, _, List.getElem?_set_self hlt, counter_advance_self hcounter, .looking done sum ?_ (by omega) down⟩
      rw [UInt64.toNat_add, count]
      exact Nat.mod_eq_of_lt (by show first + done + 1 < 2 ^ 64; omega)
  | @looking tries done sum count steps down =>
    simp only at hturn
    rw [healthy_eq hsettled hroute, ← htargets] at hturn
    split at hturn
    · rename_i hreached
      rw [← Option.some.inj hturn]
      exact ⟨_, _, List.getElem?_set_self hlt, hcounter, .found hreached⟩
    · rename_i hdown
      rw [← Option.some.inj hturn]
      refine ⟨_, _, List.getElem?_set_self hlt, hcounter, .counting (done + 1) (by omega) count (by omega) ?_⟩
      intro d hd
      rcases Nat.lt_succ_iff_lt_or_eq.1 hd with hd | rfl
      · exact down d hd
      · exact Bool.eq_false_iff.2 hdown
  | found reached =>
    simp only at hturn
    cases hturn

/-- A call that has not returned can go on. -/
theorem turn_isSome (hcounter : s.counter i = some next) (hpc : ∀ index, pc ≠ .returned index) :
    (s.turn c ⟨i, pc⟩).isSome = true := by
  obtain ⟨route, hroute, -⟩ := Option.map_eq_some_iff.1 hcounter
  unfold turn
  simp only
  rw [hroute, Option.bind_some]
  cases pc with
  | counting tries => cases tries <;> rfl
  | looking index tries =>
    simp only
    split <;> rfl
  | returned index => exact absurd rfl (hpc index)

theorem targetAt_of_address (haddresses : s.router.addresses[i]? = some addresses) {k : Nat}
    (hreached : addresses[k]?.any up = true) :
    ∃ target, s.router.targetAt ⟨i, k⟩ = some target ∧ up target.address = true := by
  unfold Router.addresses at haddresses
  rw [List.getElem?_map] at haddresses
  obtain ⟨route, hroute, rfl⟩ := Option.map_eq_some_iff.1 haddresses
  rw [List.getElem?_map] at hreached
  cases htarget : route.targets[k]? with
  | none =>
    rw [htarget] at hreached
    cases hreached
  | some target =>
    rw [htarget] at hreached
    refine ⟨target, ?_, hreached⟩
    unfold Router.targetAt
    rw [hroute]
    exact htarget

end

/-- How a call stands: it has returned a target that can be reached, or it can go on and has taken fewer than two steps
for each target. -/
def Reaches (up : Str → Bool) (c i : Nat) (targets taken : Nat) (s : Balancer) : Prop :=
  (∃ k target, s.calls[c]? = some ⟨i, .returned (some k)⟩ ∧ s.router.targetAt ⟨i, k⟩ = some target ∧
    up target.address = true) ∨
  (taken < 2 * targets ∧ (s.next (.turn c)).isSome = true)

theorem Scanning.reaches {addresses : List Str} {c i first taken : Nat} {next : UInt64} {pc : CallPc}
    (h : Scanning up addresses first taken next pc) (hup : ∃ a ∈ addresses, up a = true)
    (haddresses : s.router.addresses[i]? = some addresses) (hcall : s.calls[c]? = some ⟨i, pc⟩)
    (hcounter : s.counter i = some next) : s.Reaches up c i addresses.length taken := by
  have hon : (∀ index, pc ≠ .returned index) → (s.next (.turn c)).isSome = true := by
    intro hpc
    show (s.calls[c]?.bind (fun call => s.turn c call)).isSome = true
    rw [hcall, Option.bind_some]
    exact turn_isSome hcounter hpc
  cases h with
  | @counting tries done sum count steps down =>
    refine .inr ⟨?_, hon (fun _ hpc => by cases hpc)⟩
    have hleft : tries ≠ 0 := by
      rintro rfl
      rw [Nat.add_zero] at sum
      exact not_all_down hup first (sum ▸ down)
    omega
  | @looking tries done sum count steps down => exact .inr ⟨by omega, hon (fun _ hpc => by cases hpc)⟩
  | @found k reached =>
    obtain ⟨target, htarget, hreached⟩ := targetAt_of_address haddresses reached
    exact .inl ⟨k, target, hcall, htarget, hreached⟩

/-- The flags say what can be reached, and the call of the route stands in its scan. -/
structure Standing (up : Str → Bool) (router : Router) (route : Route) (c i taken : Nat) (s : Balancer) : Prop where
  wired : s.Wired router
  settled : s.Settled up
  fresh : s.Fresh up
  addresses : router.addresses[i]? = some (route.targets.map Target.address)
  scanning : ∃ pc next, s.calls[c]? = some ⟨i, pc⟩ ∧ s.counter i = some next ∧
    Scanning up (route.targets.map Target.address) route.next.toNat taken next pc

/-- The call begins with all its turns before it. -/
theorem standing_call (hwired : s.Wired router) (hsettled : s.Settled up) (hfresh : s.Fresh up) {host : Option Str}
    {path : Str} {i : Nat} {route : Route}
    (hindex : s.router.routes.findIdx? (fun r => r.matches host path) = some i)
    (hroute : s.router.routes[i]? = some route) (hne : route.targets ≠ []) (hcall : s.Next (.call host path) t) :
    t.Standing up router route s.calls.length i 0 := by
  obtain ⟨hsettled', hfresh'⟩ := settled_step (e := .call host path) hwired hsettled hfresh trivial hcall
  have haddresses : router.addresses[i]? = some (route.targets.map Target.address) := by
    rw [← hwired.addresses, Router.addresses, List.getElem?_map, hroute]
    rfl
  refine ⟨wired_step hwired hcall, hsettled', hfresh', haddresses, .counting route.targets.length, route.next, ?_⟩
  obtain ⟨j, hj, hrest⟩ := Option.bind_eq_some_iff.1 hcall
  obtain rfl := Option.some.inj (hj.symm.trans hindex)
  obtain ⟨r, hr, rfl⟩ := Option.map_eq_some_iff.1 hrest
  obtain rfl := Option.some.inj (hr.symm.trans hroute)
  refine ⟨?_, ?_, .counting 0 ?_ rfl rfl (fun d hd => absurd hd (Nat.not_lt_zero d))⟩
  · show (s.calls ++ [RouteCall.start j r])[s.calls.length]? = _
    rw [List.getElem?_concat_length, RouteCall.start, if_neg (fun h0 => hne (List.length_eq_zero_iff.1 h0))]
  · unfold counter
    rw [hroute]
    rfl
  · rw [Nat.zero_add, List.length_map]

/-- **A steady step in which no other call takes a turn keeps the call in its scan.** -/
theorem standing_step {route : Route} {c i taken : Nat} (h : s.Standing up router route c i taken)
    (hup : ∃ target ∈ route.targets, up target.address = true)
    (hwrap : route.next.toNat + route.targets.length < 2 ^ 64) (hstep : s.Next e t) (hsteady : s.Steady up e)
    (halone : s.Undisturbed c i e) : t.Standing up router route c i (taken + if e = .turn c then 1 else 0) := by
  obtain ⟨hwired, hsettled, hfresh, haddresses, pc, next, hpc, hnext, hscan⟩ := h
  obtain ⟨hsettled', hfresh'⟩ := settled_step hwired hsettled hfresh hsteady hstep
  refine ⟨wired_step hwired hstep, hsettled', hfresh', haddresses, ?_⟩
  by_cases hown : e = .turn c
  · subst hown
    obtain ⟨call, hat, hturn⟩ := Option.bind_eq_some_iff.1 hstep
    obtain rfl := Option.some.inj (hat.symm.trans hpc)
    rw [if_pos rfl]
    exact scanning_turn hsettled (by rw [hwired.addresses]; exact haddresses) (exists_address hup)
      (by rw [List.length_map]; exact hwrap) hpc hnext hscan hturn
  · obtain ⟨hpc', hnext'⟩ := others_leave hpc hown halone hstep
    rw [if_neg hown]
    exact ⟨pc, next, hpc', hnext'.trans hnext, hscan⟩

/-- **A call finds a target that can be reached**, when what can be reached is steady, the prober has stored once more
than there are targets, and no other call takes a turn of the route's counter meanwhile: it has returned such a target,
or it can go on and has taken fewer than two steps for each target of the route.  The prober and the calls of other
routes go on all the while. -/
theorem settled_call_reachable {es₀ es₁ es₂ : List BalancerEvent} {s₀ s₁ s₂ s₃ : Balancer}
    (hrun : Runs.Run Next (start router) es₀ s₀) (hsteady : Runs.Run (Runs.Run.Where Next (Steady up)) s₀ es₁ s₁)
    (hround : router.healthProbes.length < es₁.count .stored) {host : Option Str} {path : Str} {i : Nat} {route : Route}
    (hindex : s₁.router.routes.findIdx? (fun r => r.matches host path) = some i)
    (hroute : s₁.router.routes[i]? = some route) (hup : ∃ target ∈ route.targets, up target.address = true)
    (hwrap : route.next.toNat + route.targets.length < 2 ^ 64) (hcall : s₁.Next (.call host path) s₂)
    (halone : Runs.Run (Runs.Run.Where Next (fun s e => s.Steady up e ∧ s.Undisturbed s₁.calls.length i e)) s₂ es₂ s₃) :
    s₃.Reaches up s₁.calls.length i route.targets.length (es₂.count (.turn s₁.calls.length)) := by
  obtain ⟨hwired₁, hrounding⟩ := rounding_run (wired_run hrun) hsteady
  obtain ⟨hsettled, hfresh⟩ := hrounding.settles hwired₁ (by rw [hwired₁.probes]; exact hround)
  have hne : route.targets ≠ [] := by
    obtain ⟨target, hmem, -⟩ := hup
    exact List.ne_nil_of_mem hmem
  have hstanding : s₃.Standing up router route s₁.calls.length i (es₂.count (.turn s₁.calls.length)) := by
    refine halone.invariant_history (P := fun es t =>
      t.Standing up router route s₁.calls.length i (es.count (.turn s₁.calls.length)))
      (standing_call hwired₁ hsettled hfresh hindex hroute hne hcall) (fun es s e t h hstep => ?_)
    have hcount : (es ++ [e]).count (.turn s₁.calls.length) =
        es.count (.turn s₁.calls.length) + if e = .turn s₁.calls.length then 1 else 0 := by
      rw [List.count_append, List.count_singleton]
      simp
    rw [hcount]
    exact standing_step h hup hwrap hstep.1 hstep.2.1 hstep.2.2
  obtain ⟨hwired₃, -, -, haddresses, pc, next, hpc, hnext, hscan⟩ := hstanding
  have hlength : (route.targets.map Target.address).length = route.targets.length := List.length_map _
  rw [← hlength]
  exact hscan.reaches (exists_address hup) (by rw [hwired₃.addresses]; exact haddresses) hpc hnext

theorem call_finds_up : ∃ s₁ s₂ s₃ : Balancer, roundEvents.foldlM steadyNext (start twoTargets) = some s₁ ∧
    s₁.next (.call none ['/']) = some s₂ ∧ turnEvents.foldlM aloneNext s₂ = some s₃ ∧ s₃.Reaches upOnly 0 0 2 4 := by
  obtain ⟨s₁, s₂, s₃, hround, hcall, hturns, hcalls, hindex, hnext, haddresses⟩ := twoTargets_runs
  obtain ⟨route, hroute, htargets⟩ := Option.map_eq_some_iff.1 haddresses
  have hcounter : route.next = 0 := by
    rw [hroute] at hnext
    exact Option.some.inj hnext
  have hlength : route.targets.length = 2 := by
    have := congrArg List.length htargets
    rwa [List.length_map] at this
  have hup : ∃ target ∈ route.targets, upOnly target.address = true := by
    have hmem : upTarget.address ∈ route.targets.map Target.address := by
      rw [htargets]
      exact List.mem_cons_of_mem _ List.mem_cons_self
    obtain ⟨target, htarget, haddress⟩ := List.mem_map.1 hmem
    exact ⟨target, htarget, by rw [haddress]; decide⟩
  have hreaches := settled_call_reachable (.nil _)
    (Runs.run_where_of_foldlM (fun _ _ h => of_decide_eq_true h) hround) (by decide) hindex hroute hup
    (by rw [hcounter, hlength]; decide) hcall
    (by
      rw [hcalls]
      exact Runs.run_where_of_foldlM (fun _ _ h => of_decide_eq_true h) hturns)
  rw [hcalls, hlength] at hreaches
  exact ⟨s₁, s₂, s₃, hround, hcall, hturns, hreaches⟩

end Balancer

end Zaphyl
