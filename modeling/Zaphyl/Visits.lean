import Zaphyl.Pipelines
/-!
# Visits — what a visit changes, and how far it gets

A visit changes the windows of the limiter, the cache and the rotations, and no history of visits changes a setting
(`settings_after`).  The gates come first: which requests pass them, and that a refused request or one with a document
root makes neither listener send anything.
-/
namespace Zaphyl

/-! ## What a visit changes -/

namespace Server

/-- The server without what a visit changes: the windows of the limiter, the cache, the rotations. -/
def settings (s : Server) : Server :=
  { s with
    rateLimiter := s.rateLimiter.map (fun limiter => RateLimiter.new limiter.windowMs limiter.max)
    proxy := { s.proxy with router := s.proxy.router.configured }
    cache := s.cache.map (fun cache => ResponseCache.new cache.maxEntries) }

variable (s : Server)

theorem upstreamRoute_settings (listener : Listener) (req : Request) :
    s.settings.proxy.upstreamRoute listener req = (s.proxy.upstreamRoute listener req).map Route.configured := by
  cases listener with
  | http1 => exact Router.matchRoute_configured ..
  | http3 => exact Router.matchRoute_configured ..

/-- A route of a listener's request is the configured one in its settings. -/
theorem upstreamRoute_of_settings {s t : Server} (hsame : t.settings = s.settings) {listener : Listener} {req : Request}
    {route : Route} (hroute : t.proxy.upstreamRoute listener req = some route) :
    s.settings.proxy.upstreamRoute listener req = some route.configured := by
  rw [← hsame, upstreamRoute_settings, hroute, Option.map_some]

theorem settings_limit (key : Str) (nowMs : Nat) : (s.limit key nowMs).2.settings = s.settings := by
  unfold limit
  cases hlimiter : s.rateLimiter with
  | none => rfl
  | some limiter => simp [settings, hlimiter, RateLimiter.windowMs_check, RateLimiter.max_check]

/-- The rate limit changes the windows of its clients and nothing else. -/
theorem limit_server (key : Str) (nowMs : Nat) : ∃ limiter, (s.limit key nowMs).2 = { s with rateLimiter := limiter } := by
  unfold limit
  cases s.rateLimiter with
  | none => exact ⟨s.rateLimiter, rfl⟩
  | some limiter => exact ⟨_, rfl⟩

theorem settings_nextTarget (host : Option Str) (path : Str) : (s.nextTarget host path).2.settings = s.settings := by
  simp [nextTarget, settings]

theorem settings_put (env : Env) (p : Store) : (s.put env p).settings = s.settings := by
  have hentries : ∀ cache : ResponseCache,
      (cache.put s.proxy.hash env p.key p.expiry p.response).maxEntries = cache.maxEntries := fun _ => rfl
  simp [put, settings, Function.comp_def, hentries]

theorem settings_cache {cache cache' : ResponseCache} (hcache : s.cache = some cache) (env : Env) (key : Str)
    (now : SystemTime) {result : Lookup} (h : cache.lookup s.proxy.hash env key now = .ok (result, cache')) :
    settings { s with cache := some cache' } = s.settings := by
  have hentries : cache'.maxEntries = cache.maxEntries := by
    rcases ResponseCache.lookup_cases s.proxy.hash env cache key now with ⟨e, r, -, hl⟩ | ⟨e, r, -, hl⟩ | ⟨-, hl⟩ |
      ⟨panic, -, hl⟩
    · rw [hl] at h
      cases h
      rfl
    · rw [hl] at h
      cases h
      rfl
    · rw [hl] at h
      cases h
      rfl
    · rw [hl] at h
      cases h
  simp [settings, hcache, hentries]

theorem settings_storeThen (env : Env) (key : Str) (base : SystemTime) (ttl : Duration) (response : CachedResponse)
    (answer : Answer) : (s.storeThen env key base ttl response answer).2.settings = s.settings := by
  unfold storeThen
  cases base.add ttl with
  | ok expiry => exact s.settings_put env _
  | error panic => rfl

theorem settings_revalidated (listener : Listener) (v : Visit) (l : CacheLookup) (hit : CachedResponse)
    (request : OriginRequest) : (s.revalidated listener v l hit request).server.settings = s.settings := by
  unfold revalidated
  simp only
  split
  · exact s.settings_storeThen ..
  · rename_i fresh _
    cases storedTtl fresh with
    | none => rfl
    | some ttl => exact s.settings_storeThen ..
  · rfl

theorem settings_consultCache (listener : Listener) (v : Visit) :
    (s.consultCache listener v).server.settings = s.settings := by
  unfold consultCache
  split
  · rename_i cache l hcache hl
    split
    · rfl
    · rename_i result cache' hlookup
      have hsame := s.settings_cache hcache v.env l.key v.now hlookup
      cases result with
      | fresh hit => exact hsame
      | miss => exact hsame
      | stale hit =>
        simp only
        split
        · rw [settings_revalidated, settings_nextTarget, hsame]
        · rw [settings_nextTarget, hsame]
  · rfl

theorem settings_storeFetched (listener : Listener) (v : Visit) (route : Route) (key : Option Str)
    (request : OriginRequest) : (s.storeFetched listener v route key request).settings = s.settings := by
  unfold storeFetched
  split
  · split
    · exact s.settings_put ..
    · rfl
  · rfl

end Server

namespace ZaphylProxy

/-- The gates leave the server as it is, or count the request. -/
theorem admission_server (s : Server) (ip : Option IpAddr) (nowMs : Nat) (req : Request) :
    (admission s ip nowMs req).2 = s ∨ ∃ key, (admission s ip nowMs req).2 = (s.limit key nowMs).2 := by
  unfold admission
  split
  · exact Or.inl rfl
  · refine Or.inr ⟨(ip.map IpAddr.text).getD [], ?_⟩
    simp only
    split
    · rfl
    · split
      · rfl
      · rfl

theorem admission_limited (s : Server) (ip : Option IpAddr) (nowMs : Nat) (req : Request) :
    ∃ limiter, (admission s ip nowMs req).2 = { s with rateLimiter := limiter } := by
  rcases admission_server s ip nowMs req with h | ⟨key, h⟩
  · exact ⟨s.rateLimiter, h⟩
  · rw [h]
    exact s.limit_server key nowMs

theorem settings_admission (s : Server) (ip : Option IpAddr) (nowMs : Nat) (req : Request) :
    (admission s ip nowMs req).2.settings = s.settings := by
  rcases admission_server s ip nowMs req with h | ⟨key, h⟩
  · rw [h]
  · rw [h, s.settings_limit]

/-- The plugin stage takes at most one target. -/
theorem tryRunPlugins_server (s : Server) (v : Visit) :
    (tryRunPlugins s v).2 = s ∨ (tryRunPlugins s v).2 = (s.nextTarget (headerHost v.req) v.req.uri.path).2 := by
  unfold tryRunPlugins
  split
  · split
    · exact Or.inl rfl
    · right
      simp only
      split
      · rfl
      · split
        · rfl
        · split
          · rfl
          · split
            · rfl
            · rfl
  · exact Or.inl rfl

theorem settings_tryRunPlugins (s : Server) (v : Visit) : (tryRunPlugins s v).2.settings = s.settings := by
  rcases tryRunPlugins_server s v with h | h
  · rw [h]
  · rw [h, s.settings_nextTarget]

theorem settings_requestFilter (s : Server) (v : Visit) : (requestFilter s v).server.settings = s.settings := by
  have hadmitted := settings_admission s (some v.ip) v.nowMs v.req
  unfold requestFilter
  simp only
  split
  · exact hadmitted
  · split
    · exact hadmitted
    · split
      · rw [settings_tryRunPlugins, hadmitted]
      · rw [Server.settings_consultCache, settings_tryRunPlugins, hadmitted]

theorem settings_handle (s : Server) (v : Visit) : (handle s v).server.settings = s.settings := by
  have hfiltered := settings_requestFilter s v
  unfold handle
  simp only
  split
  · exact hfiltered
  · split
    · rw [Server.settings_storeFetched, Server.settings_nextTarget, hfiltered]
    · rw [Server.settings_nextTarget, hfiltered]

end ZaphylProxy

namespace Http3

/-- The plugin stage takes at most one target. -/
theorem tryPlugins_server (s : Server) (v : Visit) :
    (tryPlugins s v).2 = s ∨ (tryPlugins s v).2 = (s.nextTarget (s.proxy.uriHost v.req.uri) v.req.uri.path).2 := by
  unfold tryPlugins
  split
  · split
    · exact Or.inl rfl
    · split
      · exact Or.inl rfl
      · right
        simp only
        split
        · rfl
        · split
          · rfl
          · rfl
  · exact Or.inl rfl

theorem settings_tryPlugins (s : Server) (v : Visit) : (tryPlugins s v).2.settings = s.settings := by
  rcases tryPlugins_server s v with h | h
  · rw [h]
  · rw [h, s.settings_nextTarget]

theorem settings_forward (s : Server) (v : Visit) (contacts : List OriginRequest) (storeKey : Option Str) :
    (forward s v contacts storeKey).server.settings = s.settings := by
  unfold forward
  simp only
  split
  · split
    · exact s.settings_nextTarget ..
    · split
      · exact s.settings_nextTarget ..
      · rw [Server.settings_storeFetched, Server.settings_nextTarget]
  · exact s.settings_nextTarget ..

/-- **One stage of HTTP/3 answers**: a gate, the document root, the plugins, the cache or the upstream. -/
theorem proxyRequest_cases (s : Server) (v : Visit) :
    (∃ status, proxyRequest s v = ⟨.refused status, [], s⟩) ∨
    (∃ contents, proxyRequest s v = ⟨.file contents, [], s⟩) ∨
    (∃ answer, (tryPlugins s v).1 = some answer ∧ proxyRequest s v = ⟨answer, [], (tryPlugins s v).2⟩) ∨
    let consulted := (tryPlugins s v).2.consultCache .http3 v
    (∃ answer, consulted.answer = some answer ∧ proxyRequest s v = ⟨answer, consulted.contacts, consulted.server⟩) ∨
      consulted.answer = none ∧
        proxyRequest s v = forward consulted.server v consulted.contacts consulted.storeKey := by
  unfold proxyRequest
  split
  · exact Or.inl ⟨403, rfl⟩
  · split
    · exact Or.inl ⟨425, rfl⟩
    · split
      · exact Or.inr (Or.inl ⟨_, rfl⟩)
      · refine Or.inr (Or.inr ?_)
        cases hran : (tryPlugins s v).1 with
        | some answer =>
          simp only [hran]
          exact Or.inl ⟨answer, rfl, rfl⟩
        | none =>
          simp only [hran]
          refine Or.inr ?_
          cases hcached : ((tryPlugins s v).2.consultCache .http3 v).answer with
          | some answer => exact Or.inl ⟨answer, rfl, rfl⟩
          | none => exact Or.inr ⟨rfl, rfl⟩

theorem settings_proxyRequest (s : Server) (v : Visit) : (proxyRequest s v).server.settings = s.settings := by
  rcases proxyRequest_cases s v with ⟨_, h⟩ | ⟨_, h⟩ | ⟨_, -, h⟩ | ⟨_, -, h⟩ | ⟨-, h⟩
  · rw [h]
  · rw [h]
  · rw [h, settings_tryPlugins]
  · rw [h, Server.settings_consultCache, settings_tryPlugins]
  · rw [h, settings_forward, Server.settings_consultCache, settings_tryPlugins]

end Http3

namespace Server

theorem settings_handle (s : Server) (listener : Listener) (v : Visit) :
    (s.handle listener v).server.settings = s.settings := by
  cases listener with
  | http1 => exact ZaphylProxy.settings_handle s v
  | http3 => exact Http3.settings_proxyRequest s v

/-- **No history of visits changes a setting**: the rules, limits, routes, plugins and documents are those of the start. -/
theorem settings_after (s : Server) (history : List (Listener × Visit)) : (s.after history).settings = s.settings := by
  unfold after
  induction history generalizing s with
  | nil => rfl
  | cons visit history ih => rw [List.foldl_cons, ih, settings_handle]

end Server

/-! ## The stages in order -/

/-- An answer of the cache: a stored response, or the panic of a sum that is no time. -/
def Answer.FromCache (answer : Answer) : Prop :=
  (∃ hit ifNoneMatch, answer = .cached hit ifNoneMatch) ∨ ∃ panic, answer = .panicked panic

theorem Server.storeThen_fromCache (s : Server) (env : Env) (key : Str) (base : SystemTime) (ttl : Duration)
    (response : CachedResponse) {answer : Answer} (h : answer.FromCache) :
    (s.storeThen env key base ttl response answer).1.FromCache := by
  unfold storeThen
  cases base.add ttl with
  | ok expiry => exact h
  | error panic => exact Or.inr ⟨panic, rfl⟩

theorem Server.revalidated_fromCache (s : Server) (listener : Listener) (v : Visit) (l : CacheLookup)
    (hit : CachedResponse) (request : OriginRequest) {answer : Answer}
    (h : (s.revalidated listener v l hit request).answer = some answer) : answer.FromCache := by
  unfold revalidated at h
  simp only at h
  split at h
  · rw [← Option.some.inj h]
    exact s.storeThen_fromCache _ _ _ _ _ (Or.inl ⟨_, _, rfl⟩)
  · rename_i fresh _
    rw [← Option.some.inj h]
    cases storedTtl fresh with
    | none => exact Or.inl ⟨_, _, rfl⟩
    | some ttl => exact s.storeThen_fromCache _ _ _ _ _ (Or.inl ⟨_, _, rfl⟩)
  · cases h

/-- **The cache stage answers from the cache or not at all.** -/
theorem Server.consultCache_fromCache (s : Server) (listener : Listener) (v : Visit) {answer : Answer}
    (h : (s.consultCache listener v).answer = some answer) : answer.FromCache := by
  unfold consultCache at h
  split at h
  · split at h
    · rename_i panic _
      exact Or.inr ⟨panic, (Option.some.inj h).symm⟩
    · rename_i result cache' hlookup
      cases result with
      | fresh hit => exact Or.inl ⟨_, _, (Option.some.inj h).symm⟩
      | miss => cases h
      | stale hit =>
        simp only at h
        split at h
        · exact revalidated_fromCache _ _ _ _ _ _ h
        · cases h
  · cases h

/-- The conditional request for an entry, when it has a tag, the place by which its target is chosen a target, and its
parts are valid. -/
def Server.revalidation (s : Server) (listener : Listener) (v : Visit) (l : CacheLookup) (hit : CachedResponse) :
    Option OriginRequest :=
  let place := s.revalidationPlace listener v.req l
  hit.etag.bind (fun etag => (s.nextTarget place.1 place.2).1.bind (fun target => s.conditional target l etag))

theorem Server.revalidated_contacts (s : Server) (listener : Listener) (v : Visit) (l : CacheLookup)
    (hit : CachedResponse) (request : OriginRequest) : (s.revalidated listener v l hit request).contacts = [request] := by
  unfold revalidated
  simp only
  split
  · rfl
  · rfl
  · rfl

theorem Server.consultCache_of_unused {s : Server} {listener : Listener} {v : Visit}
    (h : ¬ ∃ cache l, s.cache = some cache ∧ s.proxy.lookupOf listener v.req = some l) :
    s.consultCache listener v = ⟨none, [], s, none⟩ := by
  unfold consultCache
  split
  · rename_i cache l hcache hl
    exact absurd ⟨cache, l, hcache, hl⟩ h
  · rfl

/-- What the cache stage does with a stale entry. -/
theorem Server.consultCache_of_stale {s : Server} {listener : Listener} {v : Visit} {cache cache' : ResponseCache}
    {l : CacheLookup} {hit : CachedResponse} (hcache : s.cache = some cache)
    (hl : s.proxy.lookupOf listener v.req = some l)
    (hlookup : cache.lookup s.proxy.hash v.env l.key v.now = .ok (.stale hit, cache')) :
    ∃ t : Server, s.consultCache listener v =
      match s.revalidation listener v l hit with
      | some request => t.revalidated listener v l hit request
      | none => ⟨none, [], t, some l.key⟩ := by
  let place := s.revalidationPlace listener v.req l
  refine ⟨(nextTarget { s with cache := some cache' } place.1 place.2).2, ?_⟩
  unfold consultCache
  rw [hcache, hl]
  simp only [hlookup]
  rfl

/-- **The cache stage refuses nothing.** -/
theorem Server.consultCache_ne_refused (s : Server) (listener : Listener) (v : Visit) (status : Nat) :
    (s.consultCache listener v).answer ≠ some (.refused status) := by
  intro h
  rcases s.consultCache_fromCache listener v h with ⟨hit, ifNoneMatch, h⟩ | ⟨panic, h⟩
  · cases h
  · cases h

/-- The access rules deny the client; without rules they deny nobody. -/
def Server.Denies (s : Server) (ip : IpAddr) : Prop := s.access.allows ip = false

theorem Server.denies_iff (s : Server) (ip : IpAddr) :
    s.Denies ip ↔ (!s.access.isEmpty && !s.access.allows ip) = true := by
  unfold Denies
  cases hempty : s.access.isEmpty with
  | true => simp [AccessControl.allows_of_isEmpty hempty]
  | false => simp

namespace ZaphylProxy

/-- The client's window of the rate limit is full. -/
def OverLimit (s : Server) (v : Visit) : Prop :=
  ∃ limiter, s.rateLimiter = some limiter ∧ limiter.max ≤ (limiter.window v.ip.text v.nowMs).count

theorem overLimit_iff (s : Server) (v : Visit) : OverLimit s v ↔ (s.limit v.ip.text v.nowMs).1 = false := by
  unfold OverLimit Server.limit
  cases s.rateLimiter with
  | none => simp
  | some limiter => simp [RateLimiter.check_eq_false_iff]

theorem tooLarge_limit (s : Server) (key : Str) (nowMs : Nat) (req : Request) :
    (s.limit key nowMs).2.tooLarge req = s.tooLarge req := by
  obtain ⟨limiter, h⟩ := s.limit_server key nowMs
  rw [h]
  rfl

/-- **A request is admitted exactly when it is allowed, within the limit and not too large.** -/
theorem admission_eq_none_iff (s : Server) (v : Visit) :
    (admission s (some v.ip) v.nowMs v.req).1 = none ↔
      ¬ s.Denies v.ip ∧ ¬ OverLimit s v ∧ s.tooLarge v.req = false := by
  rw [s.denies_iff, overLimit_iff]
  unfold admission
  simp only [Option.any_some, Option.map_some, Option.getD_some, tooLarge_limit]
  by_cases hdenied : (!s.access.isEmpty && !s.access.allows v.ip) = true
  · rw [if_pos hdenied]
    simp [hdenied]
  · rw [if_neg hdenied]
    by_cases hlimit : (s.limit v.ip.text v.nowMs).1 = true
    · by_cases hlarge : s.tooLarge v.req = true
      · simp [hlimit, hlarge]
      · simpa [hlimit, hlarge] using hdenied
    · simp [hlimit]

theorem tryServeStatic_admission (s : Server) (ip : Option IpAddr) (nowMs : Nat) (req req' : Request) :
    tryServeStatic (admission s ip nowMs req).2 req' = tryServeStatic s req' := by
  obtain ⟨limiter, h⟩ := admission_limited s ip nowMs req
  rw [h]
  rfl

/-- **A refused request is answered with its status and nothing is sent.** -/
theorem handle_of_refused {s : Server} {v : Visit} {status : Nat}
    (h : (admission s (some v.ip) v.nowMs v.req).1 = some status) :
    (handle s v).answer = .refused status ∧ (handle s v).contacts = [] := by
  simp [handle, requestFilter, h]

/-- **A request of a route with a document root is answered from it.** -/
theorem handle_of_static {s : Server} {v : Visit} {contents : Option Bytes}
    (h : (admission s (some v.ip) v.nowMs v.req).1 = none) (hstatic : tryServeStatic s v.req = some contents) :
    (handle s v).answer = .file contents ∧ (handle s v).contacts = [] := by
  simp [handle, requestFilter, h, tryServeStatic_admission, hstatic]

/-- **Behind the gates and the document root the plugin stage answers, or the cache is consulted.** -/
theorem requestFilter_behind_root {s : Server} {v : Visit} (h : (admission s (some v.ip) v.nowMs v.req).1 = none)
    (hstatic : tryServeStatic s v.req = none) :
    requestFilter s v =
      let ran := tryRunPlugins (admission s (some v.ip) v.nowMs v.req).2 v
      match ran.1 with
      | some answer => ⟨some answer, [], ran.2, none⟩
      | none => ran.2.consultCache .http1 v := by
  rw [← tryServeStatic_admission s (some v.ip) v.nowMs v.req v.req] at hstatic
  cases hran : (tryRunPlugins (admission s (some v.ip) v.nowMs v.req).2 v).1 with
  | some answer => simp only [requestFilter, h, hstatic, hran]
  | none => simp only [requestFilter, h, hstatic, hran]

end ZaphylProxy

namespace Http3

theorem proxyRequest_of_denied {s : Server} {v : Visit} (h : s.Denies v.ip) :
    proxyRequest s v = ⟨.refused 403, [], s⟩ := by
  rw [s.denies_iff] at h
  rw [proxyRequest, if_pos h]

theorem proxyRequest_of_early {s : Server} {v : Visit} (h : ¬ s.Denies v.ip)
    (hearly : tooEarly v.handshakeDone v.req.method = true) : proxyRequest s v = ⟨.refused 425, [], s⟩ := by
  rw [s.denies_iff] at h
  rw [proxyRequest, if_neg h, if_pos hearly]

theorem proxyRequest_of_static {s : Server} {v : Visit} {contents : Option Bytes} (h : ¬ s.Denies v.ip)
    (hearly : ¬ tooEarly v.handshakeDone v.req.method = true)
    (hstatic : s.serveStatic (route s v) v.req.uri.path = some contents) :
    proxyRequest s v = ⟨.file contents, [], s⟩ := by
  rw [s.denies_iff] at h
  rw [proxyRequest, if_neg h, if_neg hearly, hstatic]

end Http3
end Zaphyl
