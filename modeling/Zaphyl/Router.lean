import Zaphyl.Text
/-!
# Router — request routing and per-route round-robin

A route matches by an optional host and an optional path prefix; the first route that matches a request wins.  A
route's targets are tried in rotation from a counter, healthy ones first.
-/
namespace Zaphyl

open Text (eqIgnoreAsciiCase)

structure Target where
  address : Str
  tls : Bool
  sni : Str
  h2 : Bool
  healthy : Bool
deriving DecidableEq

namespace Target

def new (address : Str) (tls : Bool) (sni : Str) : Target := ⟨address, tls, sni, false, true⟩

def withH2 (t : Target) (h2 : Bool) : Target := { t with h2 := h2 }

end Target

structure Route where
  host : Option Str
  pathPrefix : Option Str
  targets : List Target
  stripPrefix : Bool
  requestHeaders : List (Str × Str)
  responseHeaders : List (Str × Str)
  staticDir : Option Str
  id : Nat
  next : UInt64
deriving DecidableEq

/-- `trim_end_matches('/')`. -/
def trimSlashes (s : Str) : Str := s.rdropWhile (· == '/')

/-- True if `path` equals `pre` or is a sub-path of it on a segment boundary. -/
def pathUnderPrefix (path pre : Str) : Bool :=
  if trimSlashes pre = [] then true
  else
    match path.dropPrefix? (trimSlashes pre) with
    | some rest => rest == [] || rest.head? == some '/'
    | none => false

namespace Route

def new (host pathPrefix : Option Str) (targets : List Target) : Route :=
  ⟨host, pathPrefix, targets, false, [], [], none, 0, 0⟩

def withId (r : Route) (id : Nat) : Route := { r with id := id }

def withStatic (r : Route) (dir : Str) : Route := { r with staticDir := some dir }

def withStripPrefix (r : Route) (strip : Bool) : Route := { r with stripPrefix := strip }

def withHeaders (r : Route) (requestHeaders responseHeaders : List (Str × Str)) : Route :=
  { r with requestHeaders := requestHeaders, responseHeaders := responseHeaders }

def rewritePath (r : Route) (path : Str) : Option Str :=
  if !r.stripPrefix then none
  else
    r.pathPrefix.map (fun pre =>
      let rest := (path.dropPrefix? (trimSlashes pre)).getD path
      if rest = [] then ['/'] else rest)

/-- Up to `tries` turns of the rotation that look for a healthy target, and one more that takes any. -/
def scanTargets (targets : List Target) : Nat → UInt64 → Option Target × UInt64
  | 0, next => (targets[next.toNat % targets.length]?, next + 1)
  | tries + 1, next =>
    match targets[next.toNat % targets.length]? with
    | some target => if target.healthy then (some target, next + 1) else scanTargets targets tries (next + 1)
    | none => scanTargets targets tries (next + 1)

/-- Pick the next upstream target for this route, round-robin. -/
def nextTarget (r : Route) : Option Target × Route :=
  if r.targets.length = 0 then (none, r)
  else
    let picked := scanTargets r.targets r.targets.length r.next
    (picked.1, { r with next := picked.2 })

def hostMatches (r : Route) (host : Option Str) : Bool :=
  match r.host with
  | none => true
  | some expected => host.any (fun h => eqIgnoreAsciiCase h expected)

def pathMatches (r : Route) (path : Str) : Bool :=
  match r.pathPrefix with
  | none => true
  | some pre => pathUnderPrefix path pre

def «matches» (r : Route) (host : Option Str) (path : Str) : Bool := r.hostMatches host && r.pathMatches path

end Route

structure Router where
  routes : List Route
deriving DecidableEq

def Router.matchRoute (router : Router) (host : Option Str) (path : Str) : Option Route :=
  router.routes.find? (fun route => route.matches host path)

/-- Advance the rotation of the first route that passes. -/
def rotateFirst (p : Route → Bool) : List Route → List Route
  | [] => []
  | r :: rs => if p r then r.nextTarget.2 :: rs else r :: rotateFirst p rs

/-- `match_route` and then `next_target`. -/
def Router.nextTarget (router : Router) (host : Option Str) (path : Str) : Option Target × Router :=
  ((router.matchRoute host path).bind (fun route => route.nextTarget.1),
    ⟨rotateFirst (fun route => route.matches host path) router.routes⟩)

/-! ## The rotation -/

namespace Route

/-- A turn of the scan returns a healthy target, or leaves the rest of the scan. -/
theorem scanTargets_succ (targets : List Target) (tries : Nat) (next : UInt64) :
    scanTargets targets (tries + 1) next =
      if targets[next.toNat % targets.length]?.any Target.healthy then
        (targets[next.toNat % targets.length]?, next + 1)
      else scanTargets targets tries (next + 1) := by
  rw [scanTargets]
  cases targets[next.toNat % targets.length]? with
  | none => rfl
  | some target => rfl

theorem scanTargets_isSome {targets : List Target} (h : targets ≠ []) :
    ∀ (tries : Nat) (next : UInt64), (scanTargets targets tries next).1.isSome = true
  | 0, next => by
    have hlt : next.toNat % targets.length < targets.length := Nat.mod_lt _ (List.length_pos_iff.2 h)
    simp [scanTargets, List.getElem?_eq_getElem hlt]
  | tries + 1, next => by
    rw [scanTargets_succ]
    split
    · rename_i hhealthy
      obtain ⟨target, hfound, -⟩ := (Option.any_eq_true ..).1 hhealthy
      rw [hfound]
      rfl
    · exact scanTargets_isSome h tries (next + 1)

/-- **A route has a next target exactly when it has targets.** -/
theorem nextTarget_isSome (r : Route) : r.nextTarget.1.isSome = true ↔ r.targets ≠ [] := by
  unfold nextTarget
  by_cases h : r.targets = []
  · simp [h]
  · have hlen : ¬ r.targets.length = 0 := by simpa using h
    rw [if_neg hlen]
    simp [scanTargets_isSome h, h]

/-- The route as it was configured: its targets healthy, its rotation not begun. -/
def configured (r : Route) : Route :=
  { r with targets := r.targets.map (fun t => { t with healthy := true }), next := 0 }

@[simp] theorem configured_nextTarget (r : Route) : r.nextTarget.2.configured = r.configured := by
  unfold nextTarget
  split <;> rfl

theorem targets_configured_ne_nil (r : Route) : r.configured.targets ≠ [] ↔ r.targets ≠ [] := by
  simp [configured]

end Route

namespace Router

def configured (router : Router) : Router := ⟨router.routes.map Route.configured⟩

theorem matchRoute_configured (router : Router) (host : Option Str) (path : Str) :
    router.configured.matchRoute host path = (router.matchRoute host path).map Route.configured := by
  unfold configured matchRoute
  rw [List.find?_map]
  rfl

/-- **Choosing a target changes a rotation only.** -/
@[simp] theorem configured_nextTarget (router : Router) (host : Option Str) (path : Str) :
    (router.nextTarget host path).2.configured = router.configured := by
  have hrotate : ∀ (p : Route → Bool) (rs : List Route),
      (rotateFirst p rs).map Route.configured = rs.map Route.configured := by
    intro p rs
    induction rs with
    | nil => rfl
    | cons r rs ih =>
      by_cases hp : p r = true
      · simp [rotateFirst, hp]
      · simp [rotateFirst, hp, ih]
  unfold nextTarget configured
  rw [hrotate]

end Router
end Zaphyl
