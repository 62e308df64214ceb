import Zaphyl.AppSites
/-!
# AdmissionParity — the gates of the two listeners

The HTTP/1 listener refuses a request by the access rules, the rate limit and the declared length before it looks at
anything else.  The HTTP/3 listener has no rate limit, and compares the declared length only on its way to an upstream,
behind the document root, the plugin chain and the cache.  Where both refuse is exactly `AdmittedAlike`.
-/
namespace Zaphyl
namespace Http3

/-- The plugin stage takes the request: its route has a chain, and it declares no body above the cap. -/
def PluginPath (s : Server) (v : Visit) (cap : Nat) : Prop :=
  ∃ plugins matched, s.plugins = some plugins ∧ route s v = some matched ∧ plugins.chain matched.id ≠ none ∧
    plugins.maxBody = cap ∧ ∀ len, declaredLength v.req = some len → len ≤ cap

def NoRoot (s : Server) (v : Visit) : Prop := ∀ matched, route s v = some matched → matched.staticDir = none

theorem noRoot_of_route {s : Server} {v : Visit} {matched : Route} (hroute : route s v = some matched)
    (hroot : matched.staticDir = none) : NoRoot s v := by
  intro m hm
  rw [← Option.some.inj (hroute.symm.trans hm)]
  exact hroot

def HasTarget (s : Server) (v : Visit) : Prop := ∃ matched, route s v = some matched ∧ matched.targets ≠ []

/-- The conditional request for an entry, when it has a tag, its route a target, and the parts of it are valid. -/
def revalidation (s : Server) (v : Visit) (l : CacheLookup) (hit : CachedResponse) : Option OriginRequest :=
  hit.etag.bind (fun etag => (s.nextTarget (s.proxy.uriHost v.req.uri) v.req.uri.path).1.bind (fun target =>
    s.conditional target l etag))

theorem revalidation_eq (s : Server) (v : Visit) (l : CacheLookup) (hit : CachedResponse) :
    s.revalidation .http3 v l hit = revalidation s v l hit := rfl

/-- The cache neither answers the request nor makes the listener ask an origin: there is none, the request is not
cacheable, it misses, or it finds a stale entry that cannot be revalidated. -/
def CacheUnused (s : Server) (v : Visit) : Prop :=
  ∀ cache l, s.cache = some cache → s.proxy.lookupOf .http3 v.req = some l →
    ∃ result cache', cache.lookup s.proxy.hash v.env l.key v.now = .ok (result, cache') ∧
      (result = .miss ∨ ∃ hit, result = .stale hit ∧ revalidation s v l hit = none)

/-! ## What each stage refuses -/

theorem serveStatic_eq_none_iff (s : Server) (v : Visit) :
    s.serveStatic (route s v) v.req.uri.path = none ↔ NoRoot s v := by
  unfold Server.serveStatic NoRoot
  cases route s v with
  | none => simp
  | some matched => simp

theorem hasTarget_iff (s : Server) (v : Visit) :
    HasTarget s v ↔ (s.nextTarget (s.proxy.uriHost v.req.uri) v.req.uri.path).1.isSome = true := by
  unfold HasTarget Server.nextTarget Router.nextTarget route
  cases s.proxy.router.matchRoute (s.proxy.uriHost v.req.uri) v.req.uri.path with
  | none => simp
  | some matched => simp [Route.nextTarget_isSome]

theorem hasTarget_congr {s t : Server} (h : t.settings = s.settings) (v : Visit) : HasTarget t v ↔ HasTarget s v := by
  have hconfigured : ∀ s : Server, HasTarget s v ↔ HasTarget s.settings v := by
    intro s
    unfold HasTarget route Server.settings
    simp only [Router.matchRoute_configured, Option.map_eq_some_iff]
    constructor
    · rintro ⟨matched, hm, ht⟩
      exact ⟨matched.configured, ⟨matched, hm, rfl⟩, matched.targets_configured_ne_nil.2 ht⟩
    · rintro ⟨_, ⟨matched, hm, rfl⟩, ht⟩
      exact ⟨matched, hm, matched.targets_configured_ne_nil.1 ht⟩
  rw [hconfigured t, h, ← hconfigured s]

theorem tooLarge_congr {s t : Server} (h : t.settings = s.settings) (req : Request) : t.tooLarge req = s.tooLarge req := by
  have hmax : t.settings.maxBodyBytes = s.settings.maxBodyBytes := by rw [h]
  have hsame : t.maxBodyBytes = s.maxBodyBytes := hmax
  unfold Server.tooLarge
  rw [hsame]

theorem tryPlugins_of_off {s : Server} {v : Visit} (h : ∀ cap, ¬ PluginPath s v cap) : tryPlugins s v = (none, s) := by
  unfold tryPlugins
  split
  · rename_i plugins matched hplugins hmatched
    cases hchain : plugins.chain matched.id with
    | none => rfl
    | some chain =>
      by_cases hdeclared : (declaredLength v.req).any (fun len => plugins.maxBody < len) = true
      · simp only [hdeclared, if_true]
      · refine absurd ⟨plugins, matched, hplugins, hmatched, by simp [hchain], rfl, fun len hlen => ?_⟩ (h plugins.maxBody)
        rw [hlen] at hdeclared
        simpa using hdeclared
  · rfl

/-- **On the plugin path a request is refused exactly when it has a target and its body is above the cap.** -/
theorem tryPlugins_of_on {s : Server} {v : Visit} {cap : Nat} (h : PluginPath s v cap) :
    ∃ answer, (tryPlugins s v).1 = some answer ∧
      ((∃ status, answer = .refused status) ↔ HasTarget s v ∧ cap < v.body.body.length) := by
  rw [hasTarget_iff, ← bufferBody_empty_eq_none_iff]
  obtain ⟨plugins, matched, hplugins, hmatched, hchain, rfl, hle⟩ := h
  obtain ⟨chain, hchain⟩ := Option.ne_none_iff_exists'.1 hchain
  have hdeclared : (declaredLength v.req).any (fun len => plugins.maxBody < len) = false := by
    rw [Option.any_eq_false]
    intro len hlen
    simpa using hle len hlen
  unfold tryPlugins
  rw [hplugins, hmatched]
  simp only [hchain, hdeclared, Bool.false_eq_true, if_false]
  cases (s.nextTarget (s.proxy.uriHost v.req.uri) v.req.uri.path).1 with
  | none => exact ⟨.noTarget, rfl, by simp⟩
  | some target =>
    cases bufferBody plugins.maxBody [] v.body with
    | none => exact ⟨.refused 413, rfl, by simp⟩
    | some body =>
      refine ⟨_, rfl, ?_, ?_⟩
      · rintro ⟨status, h⟩
        cases h
      · rintro ⟨-, h⟩
        cases h

/-- **The cache stage lets a request pass with nothing sent exactly when the cache is unused.** -/
theorem consultCache_unused_iff (s : Server) (v : Visit) :
    (s.consultCache .http3 v).answer = none ∧ (s.consultCache .http3 v).contacts = [] ↔ CacheUnused s v := by
  unfold CacheUnused
  by_cases hused : ∃ cache l, s.cache = some cache ∧ s.proxy.lookupOf .http3 v.req = some l
  · obtain ⟨cache, l, hcache, hl⟩ := hused
    simp only [hcache, hl, Option.some.injEq, exists_and_right]
    cases hlookup : cache.lookup s.proxy.hash v.env l.key v.now with
    | error panic => simp [Server.consultCache, hcache, hl, hlookup]
    | ok found =>
      obtain ⟨result, cache'⟩ := found
      cases result with
      | fresh hit => simp [Server.consultCache, hcache, hl, hlookup]
      | miss => simp [Server.consultCache, hcache, hl, hlookup]
      | stale hit =>
        obtain ⟨t, ht⟩ := Server.consultCache_of_stale hcache hl hlookup
        rw [ht, revalidation_eq]
        cases hreq : revalidation s v l hit with
        | none => simp [hlookup, hreq]
        | some request => simp [hlookup, hreq, Server.revalidated_contacts]
  · have hpassed : s.consultCache .http3 v = ⟨none, [], s, none⟩ := Server.consultCache_of_unused hused
    rw [hpassed]
    exact iff_of_true ⟨rfl, rfl⟩ (fun cache l hcache hl => absurd ⟨cache, l, hcache, hl⟩ hused)

/-- **The last stage refuses exactly a request with a target that is too large.** -/
theorem forward_spec (s : Server) (v : Visit) (contacts : List OriginRequest) (storeKey : Option Str) :
    (∃ status, (forward s v contacts storeKey).answer = .refused status) ∧ (forward s v contacts storeKey).contacts = [] ↔
      contacts = [] ∧ HasTarget s v ∧ s.tooLarge v.req = true := by
  have hlarge : (s.nextTarget (s.proxy.uriHost v.req.uri) v.req.uri.path).2.tooLarge v.req = s.tooLarge v.req := rfl
  rw [hasTarget_iff]
  unfold forward
  simp only [hlarge]
  split
  · rename_i matched target hmatched htarget
    rw [htarget]
    by_cases htoo : s.tooLarge v.req = true
    · simp [htoo]
    · rw [if_neg htoo]
      cases upstreamRequest (s.nextTarget (s.proxy.uriHost v.req.uri) v.req.uri.path).2 v matched target with
      | none => simp [htoo]
      | some request => simp [htoo]
  · rename_i hnone
    refine iff_of_false ?_ ?_
    · rintro ⟨⟨status, h⟩, -⟩
      cases h
    · rintro ⟨-, hsome, -⟩
      obtain ⟨target, htarget⟩ := Option.isSome_iff_exists.1 hsome
      obtain ⟨matched, hmatched, -⟩ := (hasTarget_iff s v).2 hsome
      exact hnone matched target hmatched htarget

/-! ## What the listener refuses -/

/-- The refusals behind the document root: a body above the plugins' cap, and a declared length above the limit of a
request that is on its way to its target without the plugins and the cache. -/
def RefusesBody (s : Server) (v : Visit) : Prop :=
  (∃ cap, PluginPath s v cap ∧ HasTarget s v ∧ cap < v.body.body.length) ∨
    (∀ cap, ¬ PluginPath s v cap) ∧ CacheUnused s v ∧ HasTarget s v ∧ s.tooLarge v.req = true

theorem pluginPath_unique {s : Server} {v : Visit} {cap cap' : Nat} (h : PluginPath s v cap) (h' : PluginPath s v cap') :
    cap = cap' := by
  obtain ⟨plugins, -, hp, -, -, rfl, -⟩ := h
  obtain ⟨plugins', -, hp', -, -, rfl, -⟩ := h'
  rw [hp, Option.some.injEq] at hp'
  rw [hp']

section

variable {s : Server} {v : Visit} (hdenied : ¬ s.Denies v.ip) (hearly : ¬ tooEarly v.handshakeDone v.req.method = true)
  (hroot : NoRoot s v)

include hdenied hearly hroot

theorem proxyRequest_of_plugins {answer : Answer} (h : (tryPlugins s v).1 = some answer) :
    proxyRequest s v = ⟨answer, [], (tryPlugins s v).2⟩ := by
  rw [s.denies_iff] at hdenied
  rw [proxyRequest, if_neg hdenied, if_neg hearly, (serveStatic_eq_none_iff s v).2 hroot]
  simp only [h]

theorem proxyRequest_of_passed (h : tryPlugins s v = (none, s)) :
    proxyRequest s v =
      match (s.consultCache .http3 v).answer with
      | some answer => ⟨answer, (s.consultCache .http3 v).contacts, (s.consultCache .http3 v).server⟩
      | none => forward (s.consultCache .http3 v).server v (s.consultCache .http3 v).contacts
          (s.consultCache .http3 v).storeKey := by
  rw [s.denies_iff] at hdenied
  rw [proxyRequest, if_neg hdenied, if_neg hearly, (serveStatic_eq_none_iff s v).2 hroot]
  cases hanswer : (s.consultCache .http3 v).answer with
  | some answer => simp only [h, hanswer]
  | none => simp only [h, hanswer]

/-- On the plugin path a request is refused for its body. -/
theorem refused_of_on {cap : Nat} (h : PluginPath s v cap) :
    (proxyRequest s v).Refused ↔ HasTarget s v ∧ cap < v.body.body.length := by
  obtain ⟨answer, hanswer, hrefused⟩ := tryPlugins_of_on h
  rw [proxyRequest_of_plugins hdenied hearly hroot hanswer, ← hrefused]
  exact and_iff_left rfl

/-- Off the plugin path it is refused for its declared length, unless the cache is used. -/
theorem refused_of_off (h : ∀ cap, ¬ PluginPath s v cap) :
    (proxyRequest s v).Refused ↔ CacheUnused s v ∧ HasTarget s v ∧ s.tooLarge v.req = true := by
  have hsame := s.settings_consultCache .http3 v
  rw [proxyRequest_of_passed hdenied hearly hroot (tryPlugins_of_off h), ← consultCache_unused_iff,
    ← hasTarget_congr hsame, ← tooLarge_congr hsame]
  cases hanswer : (s.consultCache .http3 v).answer with
  | some answer =>
    refine iff_of_false ?_ ?_
    · rintro ⟨⟨status, hrefused⟩, -⟩
      exact s.consultCache_ne_refused .http3 v status (hanswer.trans (congrArg some hrefused))
    · rintro ⟨⟨hnone, -⟩, -⟩
      cases hnone
  | none =>
    rw [eq_self_iff_true, true_and]
    exact forward_spec ..

end

/-- **What the HTTP/3 listener refuses before anything answers the request.** -/
theorem refused_iff (s : Server) (v : Visit) :
    (proxyRequest s v).Refused ↔
      s.Denies v.ip ∨ tooEarly v.handshakeDone v.req.method = true ∨ NoRoot s v ∧ RefusesBody s v := by
  by_cases hdenied : s.Denies v.ip
  · rw [proxyRequest_of_denied hdenied]
    exact iff_of_true ⟨⟨403, rfl⟩, rfl⟩ (Or.inl hdenied)
  by_cases hearly : tooEarly v.handshakeDone v.req.method = true
  · rw [proxyRequest_of_early hdenied hearly]
    exact iff_of_true ⟨⟨425, rfl⟩, rfl⟩ (Or.inr (Or.inl hearly))
  rw [or_iff_right hdenied, or_iff_right hearly]
  by_cases hroot : NoRoot s v
  · rw [and_iff_right hroot]
    unfold RefusesBody
    by_cases hon : ∃ cap, PluginPath s v cap
    · obtain ⟨cap, hcap⟩ := hon
      rw [refused_of_on hdenied hearly hroot hcap]
      constructor
      · exact fun h => Or.inl ⟨cap, hcap, h⟩
      · rintro (⟨cap', hcap', h⟩ | ⟨hoff, -⟩)
        · rwa [pluginPath_unique hcap hcap']
        · exact absurd hcap (hoff cap)
    · have hoff : ∀ cap, ¬ PluginPath s v cap := fun cap hcap => hon ⟨cap, hcap⟩
      rw [refused_of_off hdenied hearly hroot hoff]
      constructor
      · exact fun h => Or.inr ⟨hoff, h⟩
      · rintro (⟨cap, hcap, -⟩ | ⟨-, h⟩)
        · exact absurd hcap (hoff cap)
        · exact h
  · rw [← serveStatic_eq_none_iff] at hroot
    obtain ⟨contents, hstatic⟩ := Option.ne_none_iff_exists'.1 hroot
    rw [proxyRequest_of_static hdenied hearly hstatic, ← serveStatic_eq_none_iff]
    refine iff_of_false ?_ (fun h => hroot h.1)
    rintro ⟨⟨status, h⟩, -⟩
    cases h

end Http3

/-! ## The same gates -/

/-- The two listeners refuse the request alike: HTTP/1 lets it pass, or HTTP/3 refuses it by the access rules, for
being early and unsafe, or for its body. -/
def AdmittedAlike (s : Server) (v : Visit) : Prop :=
  (¬ ZaphylProxy.OverLimit s v ∧ s.tooLarge v.req = false) ∨ s.Denies v.ip ∨
    Http3.tooEarly v.handshakeDone v.req.method = true ∨ Http3.NoRoot s v ∧ Http3.RefusesBody s v

/-- **What HTTP/1 refuses at its gates, HTTP/3 refuses exactly when they refuse alike**, whatever was visited before: a
request over the rate limit passes on HTTP/3, and one that is too large is served from a root, a plugin or the cache. -/
theorem admission_parity_iff (s : Server) (history : List (Listener × Visit)) (v : Visit) :
    ((∃ status, (ZaphylProxy.admission (s.after history) (some v.ip) v.nowMs v.req).1 = some status) →
      (Http3.proxyRequest (s.after history) v).Refused) ↔ AdmittedAlike (s.after history) v := by
  generalize s.after history = s
  have hadmitted : (¬ ∃ status, (ZaphylProxy.admission s (some v.ip) v.nowMs v.req).1 = some status) ↔
      ¬ s.Denies v.ip ∧ ¬ ZaphylProxy.OverLimit s v ∧ s.tooLarge v.req = false := by
    rw [← ZaphylProxy.admission_eq_none_iff, Option.eq_none_iff_forall_ne_some, not_exists]
  rw [Http3.refused_iff, imp_iff_not_or, hadmitted]
  unfold AdmittedAlike
  constructor
  · rintro (⟨-, hpass⟩ | hrefused)
    · exact Or.inl hpass
    · exact Or.inr hrefused
  · rintro (hpass | hrefused)
    · by_cases hdenied : s.Denies v.ip
      · exact Or.inr (Or.inl hdenied)
      · exact Or.inl ⟨hdenied, hpass⟩
    · exact Or.inr hrefused

/-- One request a second, and no more. -/
def limitedServer : Server :=
  { runningServer oneUpstream.router with rateLimiter := some (RateLimiter.new 1000 1) }

/-- **The second request of a client within a second is refused on HTTP/1 and forwarded on HTTP/3.** -/
theorem over_limit_page_forwarded :
    let s := limitedServer.after [(.http1, visitOf (getPage "a.test".toList))]
    let v := visitOf (getPage "a.test".toList)
    (ZaphylProxy.admission s (some v.ip) v.nowMs v.req).1 = some 429 ∧ ¬ (Http3.proxyRequest s v).Refused ∧
      ∃ request, (Http3.proxyRequest s v).answer = .forwarded request := by
  refine ⟨rfl, ?_, _, rfl⟩
  rintro ⟨⟨status, h⟩, -⟩
  cases h

end Zaphyl
