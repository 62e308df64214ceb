import Zaphyl.Checks
import Zaphyl.Text
/-!
# Config — the configuration and its validation

The sections `validate` reads and the loader changes.  `validate` answers the first broken rule; it accepts exactly the
configurations that meet every rule (`validate_eq_ok_iff`).
-/
namespace Zaphyl

open Text (trim)
open Checks (ensure inOrder each)

structure TlsConfig where
  cert : Str
  key : Str
deriving DecidableEq

structure AcmeConfig where
  domains : List Str
  email : Str
  renewBeforeDays : Nat
  checkIntervalSeconds : Nat
deriving DecidableEq

structure RateLimitConfig where
  requestsPerSecond : Nat
deriving DecidableEq

structure HealthCheckConfig where
  intervalSeconds : Nat
deriving DecidableEq

structure LimitsConfig where
  maxRequestBodyBytes : Option Nat
  upstreamConnectTimeoutSeconds : Option Nat
  upstreamReadTimeoutSeconds : Option Nat
deriving DecidableEq

structure CompressionConfig where
  level : Nat
deriving DecidableEq

structure CacheConfig where
  maxEntries : Nat
  maxBodyBytes : Nat
deriving DecidableEq

structure Http3Config where
  listen : Str
deriving DecidableEq

structure HttpRedirectConfig where
  listen : Str
deriving DecidableEq

/-- A single routing rule; the header tables are in their map's iteration order. -/
structure RouteConfig where
  host : Option Str
  path : Option Str
  upstream : List Str
  root : Option Str
  tls : Bool
  stripPrefix : Bool
  requestHeaders : List (Str × Str)
  responseHeaders : List (Str × Str)
  grpc : Bool
  plugins : List Str
deriving DecidableEq

structure Config where
  tls : Option TlsConfig
  acme : Option AcmeConfig
  rateLimit : Option RateLimitConfig
  healthCheck : Option HealthCheckConfig
  limits : Option LimitsConfig
  compression : Option CompressionConfig
  cache : Option CacheConfig
  http3 : Option Http3Config
  http : Option HttpRedirectConfig
  routes : List RouteConfig
deriving DecidableEq

inductive ConfigError
  | toml (message : Str)
  | invalid (message : Str)
deriving DecidableEq

def isHostPort (upstream : Str) : Bool :=
  match Text.rsplitOnce ':' (trim upstream) with
  | some (host, port) => host ≠ [] && (Text.parseUnsigned 65536 port).isSome
  | none => false

def routeError (index : Nat) (message : Str) : ConfigError :=
  .invalid ("route ".toList ++ Nat.toDigits 10 index ++ ": ".toList ++ message)

def validateUpstream (index : Nat) (upstream : Str) : Except ConfigError Unit :=
  ensure (!isHostPort upstream)
    (routeError index ("upstream must be `host:port`, got `".toList ++ upstream ++ ['`']))

def validateRoute (index : Nat) (route : RouteConfig) : Except ConfigError Unit :=
  let hasUpstream := !route.upstream.isEmpty
  let hasRoot := route.root.isSome
  inOrder
    [ensure (!hasUpstream && !hasRoot) (routeError index "requires an upstream or a root".toList),
      ensure (hasUpstream && hasRoot) (routeError index "cannot set both upstream and root".toList),
      each (fun _ => validateUpstream index) 0 route.upstream,
      ensure (route.path.any (fun path => path.head? != some '/'))
        (routeError index ("path must start with `/`, got `".toList ++ route.path.getD [] ++ ['`'])),
      ensure (route.stripPrefix && route.path.isNone) (routeError index "strip_prefix requires a path".toList)]

def validateAcme (acme : AcmeConfig) : Except ConfigError Unit :=
  inOrder
    [ensure (acme.domains.isEmpty || acme.domains.any (fun d => trim d == []))
        (.invalid "acme.domains must list at least one non-empty domain".toList),
      ensure (trim acme.email == []) (.invalid "acme.email must not be empty".toList),
      ensure (acme.renewBeforeDays == 0) (.invalid "acme.renew_before_days must be at least 1".toList),
      ensure (acme.checkIntervalSeconds == 0) (.invalid "acme.check_interval_seconds must be at least 1".toList)]

def validateLimits (limits : LimitsConfig) : Except ConfigError Unit :=
  inOrder
    [ensure (limits.maxRequestBodyBytes == some 0)
        (.invalid "limits.max_request_body_bytes must be at least 1".toList),
      ensure (limits.upstreamConnectTimeoutSeconds == some 0 || limits.upstreamReadTimeoutSeconds == some 0)
        (.invalid "limits upstream timeouts must be at least 1 second".toList)]

def Config.validate (c : Config) : Except ConfigError Unit :=
  inOrder
    [ensure c.routes.isEmpty (.invalid "at least one [[route]] is required".toList),
      ensure (c.tls.any (fun tls => trim tls.cert == [] || trim tls.key == []))
        (.invalid "tls.cert and tls.key must not be empty".toList),
      ensure (c.tls.isSome && c.acme.isSome) (.invalid "[tls] and [acme] are mutually exclusive".toList),
      (c.acme.map validateAcme).getD (.ok ()),
      ensure (c.rateLimit.any (fun r => r.requestsPerSecond == 0))
        (.invalid "rate_limit.requests_per_second must be at least 1".toList),
      ensure (c.healthCheck.any (fun h => h.intervalSeconds == 0))
        (.invalid "health_check.interval_seconds must be at least 1".toList),
      (c.limits.map validateLimits).getD (.ok ()),
      ensure (c.http3.isSome && c.tls.isNone && c.acme.isNone)
        (.invalid "[http3] requires a TLS certificate ([tls] or [acme])".toList),
      ensure (c.http.isSome && c.tls.isNone && c.acme.isNone)
        (.invalid "[http] redirect requires a TLS certificate ([tls] or [acme])".toList),
      ensure (c.compression.any (fun z => z.level == 0)) (.invalid "compression.level must be at least 1".toList),
      ensure (c.cache.any (fun k => k.maxEntries == 0 || k.maxBodyBytes == 0))
        (.invalid "cache.max_entries and cache.max_body_bytes must be at least 1".toList),
      each validateRoute 0 c.routes]

def Config.fromToml (parse : Str → Except Str Config) (input : Str) : Except ConfigError Config := do
  let config ← (parse input).mapError .toml
  config.validate
  return config

/-! ## The rules -/

structure RouteConfig.Valid (r : RouteConfig) : Prop where
  exactlyOne : r.upstream = [] ↔ r.root.isSome = true
  upstreams : ∀ u ∈ r.upstream, isHostPort u = true
  path : ∀ p, r.path = some p → p.head? = some '/'
  strip : r.stripPrefix = true → r.path ≠ none

structure AcmeConfig.Valid (a : AcmeConfig) : Prop where
  domains_ne : a.domains ≠ []
  domains : ∀ d ∈ a.domains, trim d ≠ []
  email : trim a.email ≠ []
  renewBeforeDays : 0 < a.renewBeforeDays
  checkIntervalSeconds : 0 < a.checkIntervalSeconds

/-- **The rules of a valid configuration.** -/
structure Config.Valid (c : Config) : Prop where
  routes_ne : c.routes ≠ []
  routes : ∀ r ∈ c.routes, r.Valid
  tls : ∀ t, c.tls = some t → trim t.cert ≠ [] ∧ trim t.key ≠ []
  exclusive : c.tls = none ∨ c.acme = none
  acme : ∀ a, c.acme = some a → a.Valid
  rateLimit : ∀ r, c.rateLimit = some r → 0 < r.requestsPerSecond
  healthCheck : ∀ h, c.healthCheck = some h → 0 < h.intervalSeconds
  limits : ∀ l, c.limits = some l → l.maxRequestBodyBytes ≠ some 0 ∧ l.upstreamConnectTimeoutSeconds ≠ some 0 ∧
    l.upstreamReadTimeoutSeconds ≠ some 0
  http3 : c.http3 ≠ none → c.tls ≠ none ∨ c.acme ≠ none
  http : c.http ≠ none → c.tls ≠ none ∨ c.acme ≠ none
  compression : ∀ z, c.compression = some z → 0 < z.level
  cache : ∀ k, c.cache = some k → 0 < k.maxEntries ∧ 0 < k.maxBodyBytes

section
variable {α β γ : Type}

theorem exactlyOne_iff (upstream : List α) (root : Option β) :
    (!!upstream.isEmpty && !root.isSome) = false ∧ (!upstream.isEmpty && root.isSome) = false ↔
      (upstream = [] ↔ root.isSome = true) := by
  cases upstream <;> cases root <;> simp

theorem exclusive_iff (tls : Option α) (acme : Option β) :
    (tls.isSome && acme.isSome) = false ↔ tls = none ∨ acme = none := by
  cases tls <;> cases acme <;> simp

theorem needsCert_iff (listener : Option α) (tls : Option β) (acme : Option γ) :
    (listener.isSome && tls.isNone && acme.isNone) = false ↔ (listener ≠ none → tls ≠ none ∨ acme ≠ none) := by
  cases listener <;> cases tls <;> cases acme <;> simp

end

theorem validateRoute_eq_ok_iff (index : Nat) (r : RouteConfig) : validateRoute index r = .ok () ↔ r.Valid := by
  have hups : each (fun _ => validateUpstream index) 0 r.upstream = .ok () ↔ ∀ u ∈ r.upstream, isHostPort u = true :=
    Checks.each_eq_ok (fun _ u => by simp [validateUpstream]) 0 r.upstream
  unfold validateRoute
  simp only [Checks.inOrder_cons_eq_ok, Checks.ensure_eq_ok, hups, Checks.inOrder_nil, and_true]
  constructor
  · rintro ⟨hsome, hboth, hu, hp, hs⟩
    refine ⟨(exactlyOne_iff _ _).1 ⟨hsome, hboth⟩, hu, ?_, ?_⟩
    · intro p hpath
      simpa [hpath] using hp
    · intro hstrip hnone
      simp [hstrip, hnone] at hs
  · intro h
    obtain ⟨hsome, hboth⟩ := (exactlyOne_iff _ _).2 h.exactlyOne
    refine ⟨hsome, hboth, h.upstreams, ?_, ?_⟩
    · cases hpath : r.path with
      | none => rfl
      | some p => simpa using h.path p hpath
    · cases hstrip : r.stripPrefix with
      | false => rfl
      | true => simpa [Option.isSome_iff_ne_none] using h.strip hstrip

theorem validateAcme_eq_ok_iff (a : AcmeConfig) : validateAcme a = .ok () ↔ a.Valid := by
  unfold validateAcme
  simp only [Checks.inOrder_cons_eq_ok, Checks.ensure_eq_ok, Checks.inOrder_nil, and_true]
  constructor
  · rintro ⟨hd, he, hr, hc⟩
    rw [Bool.or_eq_false_iff] at hd
    refine ⟨by simpa using hd.1, fun d hm => ?_, by simpa using he, ?_, ?_⟩
    · simpa using List.any_eq_false.1 hd.2 d hm
    · exact Nat.pos_of_ne_zero (by simpa using hr)
    · exact Nat.pos_of_ne_zero (by simpa using hc)
  · intro h
    refine ⟨?_, by simpa using h.email, ?_, ?_⟩
    · rw [Bool.or_eq_false_iff]
      exact ⟨by simpa using h.domains_ne, List.any_eq_false.2 (fun d hm => by simpa using h.domains d hm)⟩
    · simpa using h.renewBeforeDays.ne'
    · simpa using h.checkIntervalSeconds.ne'

theorem validateLimits_eq_ok_iff (l : LimitsConfig) : validateLimits l = .ok () ↔
    l.maxRequestBodyBytes ≠ some 0 ∧ l.upstreamConnectTimeoutSeconds ≠ some 0 ∧
      l.upstreamReadTimeoutSeconds ≠ some 0 := by
  unfold validateLimits
  simp [Bool.or_eq_false_iff]

theorem getD_map_eq_ok_iff {α : Type} {check : α → Except ConfigError Unit} {P : α → Prop}
    (h : ∀ a, check a = .ok () ↔ P a) (o : Option α) :
    (o.map check).getD (.ok ()) = .ok () ↔ ∀ a, o = some a → P a := by
  cases o with
  | none => simp
  | some a => simp [h]

theorem any_eq_false_iff {α : Type} (bad : α → Bool) (P : α → Prop) (h : ∀ a, bad a = false ↔ P a) (o : Option α) :
    o.any bad = false ↔ ∀ a, o = some a → P a := by
  cases o with
  | none => simp
  | some a => simp [h]

/-- **`validate` accepts exactly the valid configurations.** -/
theorem validate_eq_ok_iff (c : Config) : c.validate = .ok () ↔ c.Valid := by
  have htls := any_eq_false_iff (fun tls : TlsConfig => trim tls.cert == [] || trim tls.key == [])
    (fun t => trim t.cert ≠ [] ∧ trim t.key ≠ []) (fun t => by simp) c.tls
  have hrate := any_eq_false_iff (fun r : RateLimitConfig => r.requestsPerSecond == 0)
    (fun r => 0 < r.requestsPerSecond) (fun r => by simp [Nat.pos_iff_ne_zero]) c.rateLimit
  have hhealth := any_eq_false_iff (fun h : HealthCheckConfig => h.intervalSeconds == 0)
    (fun h => 0 < h.intervalSeconds) (fun h => by simp [Nat.pos_iff_ne_zero]) c.healthCheck
  have hcomp := any_eq_false_iff (fun z : CompressionConfig => z.level == 0)
    (fun z => 0 < z.level) (fun z => by simp [Nat.pos_iff_ne_zero]) c.compression
  have hcache := any_eq_false_iff (fun k : CacheConfig => k.maxEntries == 0 || k.maxBodyBytes == 0)
    (fun k => 0 < k.maxEntries ∧ 0 < k.maxBodyBytes) (fun k => by simp [Nat.pos_iff_ne_zero]) c.cache
  have hacme := getD_map_eq_ok_iff validateAcme_eq_ok_iff c.acme
  have hlimits := getD_map_eq_ok_iff validateLimits_eq_ok_iff c.limits
  have hroutes := Checks.each_eq_ok validateRoute_eq_ok_iff 0 c.routes
  unfold Config.validate
  simp only [Checks.inOrder_cons_eq_ok, Checks.ensure_eq_ok, Checks.inOrder_nil, and_true, exclusive_iff, needsCert_iff,
    htls, hrate, hhealth, hcomp, hcache, hacme, hlimits, hroutes]
  constructor
  · rintro ⟨hne, ht, hx, ha, hr, hh, hl, h3, hhttp, hz, hk, hrs⟩
    exact ⟨by simpa using hne, hrs, ht, hx, ha, hr, hh, hl, h3, hhttp, hz, hk⟩
  · intro h
    exact ⟨by simpa using h.routes_ne, h.tls, h.exclusive, h.acme, h.rateLimit, h.healthCheck, h.limits, h.http3,
      h.http, h.compression, h.cache, h.routes⟩

theorem fromToml_eq_ok {parse : Str → Except Str Config} {input : Str} {c : Config}
    (h : Config.fromToml parse input = .ok c) : parse input = .ok c ∧ c.Valid := by
  obtain ⟨c', hparse, h⟩ := Checks.bind_eq_ok.1 h
  obtain ⟨_, hvalid, h⟩ := Checks.bind_eq_ok.1 h
  cases h
  refine ⟨?_, (validate_eq_ok_iff _).1 hvalid⟩
  cases hp : parse input with
  | error e => rw [hp] at hparse; cases hparse
  | ok c'' => rw [hp] at hparse; cases hparse; rfl

end Zaphyl
