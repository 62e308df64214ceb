import Zaphyl.AppSites
/-!
# VisitRuns — visits as runs of the proxy

Handling a visit looks its request up, asks origins and stores their answers at once.  Each of these is an event of the
proxy whose tasks wait between them, so what a history of visits makes of the cache, a run of the proxy makes of it, and
what holds of every run holds of the cache that visits leave (`after_reaches`).
-/
namespace Zaphyl
namespace ProxyConfig

variable {cfg : ProxyConfig}

/-- Events take the proxy from one cache and tasks to others, whatever it answered and stored before. -/
def Reaches (cfg : ProxyConfig) (c : ResponseCache) (tasks : List ProxyTask) (c' : ResponseCache)
    (tasks' : List ProxyTask) : Prop :=
  ∀ origin stored, ∃ events p, Runs.Run cfg.Next ⟨c, tasks, origin, stored⟩ events p ∧ p.cache = c' ∧ p.tasks = tasks'

theorem Reaches.refl (c : ResponseCache) (tasks : List ProxyTask) : cfg.Reaches c tasks c tasks :=
  fun _ _ => ⟨[], _, .nil _, rfl, rfl⟩

theorem Reaches.trans {c c' c'' : ResponseCache} {tasks tasks' tasks'' : List ProxyTask}
    (h : cfg.Reaches c tasks c' tasks') (h' : cfg.Reaches c' tasks' c'' tasks'') : cfg.Reaches c tasks c'' tasks'' := by
  intro origin stored
  obtain ⟨events, ⟨cache, mid, origin', stored'⟩, hrun, rfl, rfl⟩ := h origin stored
  obtain ⟨events', p, hrun', hcache, htasks⟩ := h' origin' stored'
  exact ⟨events ++ events', p, hrun.append hrun', hcache, htasks⟩

theorem Reaches.step {c c' : ResponseCache} {tasks tasks' : List ProxyTask} (e : ProxyEvent)
    (h : ∀ origin stored, (cfg.step ⟨c, tasks, origin, stored⟩ e).cache = c' ∧
      (cfg.step ⟨c, tasks, origin, stored⟩ e).tasks = tasks') : cfg.Reaches c tasks c' tasks' :=
  fun origin stored => ⟨[e], _, .cons rfl (.nil _), h origin stored⟩

theorem reaches_request {c c' : ResponseCache} {listener : Listener} {req : Request} {now : SystemTime} {env : Env}
    {l : CacheLookup} {result : Lookup} (hl : cfg.lookupOf listener req = some l)
    (hlookup : c.lookup cfg.hash env l.key now = .ok (result, c')) :
    cfg.Reaches c [] c' (cfg.tasksOf listener req now l result) :=
  .step (.request listener req now env) (fun origin stored => by simp [step, hl, hlookup])

/-- The cache that a put leaves, if there is one. -/
def putInto (cfg : ProxyConfig) (c : ResponseCache) (env : Env) (p : Option Store) : ResponseCache :=
  p.elim c (fun p => c.put cfg.hash env p.key p.expiry p.response)

theorem reaches_answer (cfg : ProxyConfig) (c : ResponseCache) (task : ProxyTask) (head : ResponseHead)
    (chunks : List Bytes) (now : SystemTime) (env : Env) :
    cfg.Reaches c [task] (cfg.putInto c env (cfg.outcome head chunks now task).1) (cfg.outcome head chunks now task).2 := by
  refine .step (.answer 0 head chunks now env) (fun origin stored => ?_)
  simp only [step, List.getElem?_cons_zero, List.eraseIdx_zero, List.tail_cons, List.nil_append]
  cases (cfg.outcome head chunks now task).1 with
  | none => exact ⟨rfl, rfl⟩
  | some p => exact ⟨rfl, rfl⟩

theorem reaches_failed (c : ResponseCache) (listener : Listener) (req : Request) (key : Str) (hit : CachedResponse)
    (started : SystemTime) :
    cfg.Reaches c [.revalidating listener req key hit started] c (cfg.fetchTask listener req key) :=
  .step (.fail 0) (fun origin stored => by simp [step])

/-- A fetch may come to nothing. -/
theorem reaches_unfetched (cfg : ProxyConfig) (c : ResponseCache) (listener : Listener) (req : Request) (key : Str) :
    cfg.Reaches c (cfg.fetchTask listener req key) c [] := by
  unfold fetchTask
  cases cfg.upstreamRoute listener req with
  | none => exact .refl c []
  | some route =>
    by_cases h : route.nextTarget.1.isSome = true
    · simp only [h, if_true]
      exact .step (.fail 0) (fun origin stored => by simp [step])
    · simp only [h]
      exact .refl c []

theorem reaches_unwaited (cfg : ProxyConfig) (c : ResponseCache) (listener : Listener) (req : Request)
    (key : Option Str) : cfg.Reaches c (key.elim [] (cfg.fetchTask listener req)) c [] := by
  cases key with
  | none => exact .refl c []
  | some key => exact cfg.reaches_unfetched c listener req key

end ProxyConfig

/-! ## Targets and routes as configured -/

theorem Route.isSome_nextTarget_configured (r : Route) : r.configured.nextTarget.1.isSome = r.nextTarget.1.isSome := by
  rw [Bool.eq_iff_iff, Route.nextTarget_isSome, Route.nextTarget_isSome, Route.targets_configured_ne_nil]

namespace Server

variable (s : Server)

/-- A stale entry has a target exactly when its revalidation route does. -/
theorem isSome_revalidationTarget (listener : Listener) (req : Request) (l : CacheLookup) :
    (s.settings.proxy.revalidationRoute listener req l).any (fun route => route.nextTarget.1.isSome) =
      (s.nextTarget (s.revalidationPlace listener req l).1 (s.revalidationPlace listener req l).2).1.isSome := by
  have hroute : s.settings.proxy.revalidationRoute listener req l = (s.proxy.router.matchRoute
      (s.revalidationPlace listener req l).1 (s.revalidationPlace listener req l).2).map Route.configured := by
    cases listener with
    | http1 => exact Router.matchRoute_configured ..
    | http3 => exact Router.matchRoute_configured ..
  rw [hroute]
  show _ = ((s.proxy.router.matchRoute _ _).bind (fun route => route.nextTarget.1)).isSome
  cases s.proxy.router.matchRoute (s.revalidationPlace listener req l).1 (s.revalidationPlace listener req l).2 with
  | none => rfl
  | some route => simp [Route.isSome_nextTarget_configured]

/-! ## The cache stage -/

/-- The cache a server has comes from `c` by events of the configured proxy that leave `tasks`. -/
def CacheReached (t : Server) (c : ResponseCache) (tasks tasks' : List ProxyTask) : Prop :=
  ∃ c', t.cache = some c' ∧ s.settings.proxy.Reaches c tasks c' tasks'

/-- What is left to wait for after a stage: nothing behind an answer, and else the fetch under the key to store. -/
def waits (listener : Listener) (req : Request) (filtered : Filtered) : List ProxyTask :=
  match filtered.answer with
  | some _ => []
  | none => filtered.storeKey.elim [] (s.settings.proxy.fetchTask listener req)

variable {s}

theorem waits_congr {t : Server} (h : t.settings = s.settings) (listener : Listener) (req : Request)
    (filtered : Filtered) : t.waits listener req filtered = s.waits listener req filtered := by
  unfold waits
  rw [h]

theorem CacheReached.of_settings {t u : Server} (hs : t.settings = s.settings) {c : ResponseCache}
    {tasks tasks' : List ProxyTask} (h : t.CacheReached u c tasks tasks') : s.CacheReached u c tasks tasks' := by
  unfold CacheReached at h ⊢
  rwa [hs] at h

theorem CacheReached.after {t : Server} {c c' : ResponseCache} {tasks tasks' tasks'' : List ProxyTask}
    (h : s.CacheReached t c' tasks' tasks'') (h' : s.settings.proxy.Reaches c tasks c' tasks') :
    s.CacheReached t c tasks tasks'' := by
  obtain ⟨c'', hc'', hreach⟩ := h
  exact ⟨c'', hc'', h'.trans hreach⟩

theorem cacheReached_self {t : Server} {c : ResponseCache} (h : t.cache = some c) (tasks : List ProxyTask) :
    s.CacheReached t c tasks tasks := ⟨c, h, .refl c tasks⟩

/-- A put that waits for its time is the put of the outcome. -/
theorem cache_storeThen {c : ResponseCache} (hcache : s.cache = some c) (env : Env) (key : Str) (base : SystemTime)
    (ttl : Duration) (response : CachedResponse) (answer : Answer) :
    (s.storeThen env key base ttl response answer).2.cache =
      some (s.settings.proxy.putInto c env (ProxyConfig.storeUntil key base ttl response)) := by
  unfold storeThen ProxyConfig.storeUntil
  cases base.add ttl with
  | error panic => exact hcache
  | ok expiry =>
    simp only [put, hcache, Option.map_some]
    rfl

/-- **The origin's answer to a conditional request is an event of the proxy**, or its failure is. -/
theorem revalidated_reaches {t : Server} (hsame : t.settings = s.settings) {c : ResponseCache} (hcache : t.cache = some c)
    (listener : Listener) (v : Visit) (l : CacheLookup) (hit : CachedResponse) (request : OriginRequest) :
    s.CacheReached (t.revalidated listener v l hit request).server c
      [.revalidating listener v.req l.key hit v.now] (s.waits listener v.req (t.revalidated listener v l hit request)) := by
  unfold CacheReached
  rw [← waits_congr hsame, ← hsame]
  unfold revalidated
  cases horigin : v.origin request with
  | none => exact ⟨c, hcache, ProxyConfig.reaches_failed c listener v.req l.key hit v.now⟩
  | some a =>
    have hanswer := ProxyConfig.reaches_answer t.settings.proxy c
      (.revalidating listener v.req l.key hit v.now) a.1 a.2 v.later v.env
    have hmax : t.settings.proxy.maxBody = t.proxy.maxBody := rfl
    simp only [ProxyConfig.outcome, hmax] at hanswer
    simp only [Option.map_some, Option.getD_some]
    cases hresult : revalidate t.proxy.maxBody a.1 a.2 with
    | notModified =>
      rw [hresult] at hanswer
      exact ⟨_, t.cache_storeThen hcache .., hanswer⟩
    | modified fresh =>
      rw [hresult] at hanswer
      cases httl : storedTtl fresh with
      | none =>
        simp only [httl, Option.bind_none] at hanswer ⊢
        exact ⟨c, hcache, hanswer⟩
      | some ttl =>
        simp only [httl, Option.bind_some] at hanswer ⊢
        exact ⟨_, t.cache_storeThen hcache .., hanswer⟩
    | failed =>
      rw [hresult] at hanswer
      exact ⟨c, hcache, hanswer⟩

/-- **The cache stage is a run of the proxy** that leaves nothing to wait for behind an answer, and else the fetch of
the key that was remembered. -/
theorem consultCache_reaches {c : ResponseCache} (hcache : s.cache = some c) (listener : Listener) (v : Visit) :
    s.CacheReached (s.consultCache listener v).server c [] (s.waits listener v.req (s.consultCache listener v)) := by
  unfold consultCache
  cases hl : s.proxy.lookupOf listener v.req with
  | none =>
    rw [hcache]
    exact cacheReached_self hcache []
  | some l =>
    rw [hcache]
    simp only
    cases hlookup : c.lookup s.proxy.hash v.env l.key v.now with
    | error panic => exact cacheReached_self hcache []
    | ok found =>
      obtain ⟨result, c'⟩ := found
      have hreq : s.settings.proxy.Reaches c [] c' (s.settings.proxy.tasksOf listener v.req v.now l result) :=
        ProxyConfig.reaches_request hl hlookup
      cases result with
      | fresh hit => exact ⟨c', rfl, hreq⟩
      | miss => exact ⟨c', rfl, hreq⟩
      | stale hit =>
        have htarget := s.isSome_revalidationTarget listener v.req l
        simp only [ProxyConfig.tasksOf, htarget] at hreq
        simp only
        split
        · rename_i request hconditional
          obtain ⟨etag, hetag, hbind⟩ := Option.bind_eq_some_iff.1 hconditional
          obtain ⟨target, hfound, -⟩ := Option.bind_eq_some_iff.1 hbind
          have hpicked : (s.nextTarget (s.revalidationPlace listener v.req l).1
              (s.revalidationPlace listener v.req l).2).1 = some target := hfound
          simp only [hetag, hpicked, Option.isSome_some, Bool.and_self, if_true] at hreq
          have hsame := s.settings_cache hcache v.env l.key v.now hlookup
          exact .after (revalidated_reaches ((settings_nextTarget _ _ _).trans hsame) rfl listener v l hit request) hreq
        · refine .after ⟨c', rfl, ?_⟩ hreq
          split
          · exact ProxyConfig.reaches_failed c' listener v.req l.key hit v.now
          · exact .refl _ _

/-! ## The upstream's response -/

/-- Whether or not its response is stored, a forwarded request ends the fetch it was waited for under. -/
theorem storeFetched_reaches {t : Server} (hsame : t.settings = s.settings) {c : ResponseCache} (hcache : t.cache = some c)
    (listener : Listener) (v : Visit) {route : Route}
    (hroute : s.settings.proxy.upstreamRoute listener v.req = some route.configured)
    (htarget : route.nextTarget.1.isSome = true) (key : Option Str) (request : OriginRequest) :
    s.CacheReached (t.storeFetched listener v route key request) c
      (key.elim [] (s.settings.proxy.fetchTask listener v.req)) [] := by
  rw [← hsame] at hroute
  unfold CacheReached
  rw [← hsame]
  unfold storeFetched
  cases key with
  | none => exact ⟨c, hcache, .refl c []⟩
  | some key =>
    cases horigin : v.origin request with
    | none => exact ⟨c, hcache, ProxyConfig.reaches_unfetched _ c listener v.req key⟩
    | some a =>
      have htask : t.settings.proxy.fetchTask listener v.req key = [.fetching listener v.req key route.configured] := by
        unfold ProxyConfig.fetchTask
        rw [hroute]
        simp [Route.isSome_nextTarget_configured, htarget]
      have hanswer := ProxyConfig.reaches_answer t.settings.proxy c (.fetching listener v.req key route.configured)
        a.1 a.2 v.later v.env
      -- the head that is relayed depends on the route's response headers alone
      have hstored : (t.settings.proxy.outcome a.1 a.2 v.later (.fetching listener v.req key route.configured)).1 =
          (t.proxy.outcome a.1 a.2 v.later (.fetching listener v.req key route)).1 := by
        cases listener with
        | http1 => rfl
        | http3 => rfl
      rw [hstored] at hanswer
      simp only [Option.elim_some, htask]
      cases hput : (t.proxy.outcome a.1 a.2 v.later (.fetching listener v.req key route)).1 with
      | none =>
        rw [hput] at hanswer
        exact ⟨c, hcache, hanswer⟩
      | some p =>
        rw [hput] at hanswer
        refine ⟨_, ?_, hanswer⟩
        simp only [put, hcache, Option.map_some]
        rfl

end Server

theorem ZaphylProxy.cache_admission (s : Server) (ip : Option IpAddr) (nowMs : Nat) (req : Request) :
    (admission s ip nowMs req).2.cache = s.cache := by
  obtain ⟨limiter, h⟩ := admission_limited s ip nowMs req
  rw [h]

theorem ZaphylProxy.cache_tryRunPlugins (s : Server) (v : Visit) : (tryRunPlugins s v).2.cache = s.cache := by
  rcases tryRunPlugins_server s v with h | h
  · rw [h]
  · rw [h]
    rfl

theorem Http3.cache_tryPlugins (s : Server) (v : Visit) : (tryPlugins s v).2.cache = s.cache := by
  rcases tryPlugins_server s v with h | h
  · rw [h]
  · rw [h]
    rfl

namespace Server

variable {s : Server}

theorem requestFilter_reaches {c : ResponseCache} (hcache : s.cache = some c) (v : Visit) :
    s.CacheReached (ZaphylProxy.requestFilter s v).server c []
      (s.waits .http1 v.req (ZaphylProxy.requestFilter s v)) := by
  have hadmitted : (ZaphylProxy.admission s (some v.ip) v.nowMs v.req).2.cache = some c :=
    (ZaphylProxy.cache_admission ..).trans hcache
  unfold ZaphylProxy.requestFilter
  simp only
  split
  · exact cacheReached_self hadmitted []
  · split
    · exact cacheReached_self hadmitted []
    · have hran := (ZaphylProxy.cache_tryRunPlugins _ v).trans hadmitted
      split
      · exact cacheReached_self hran []
      · have hsame := (ZaphylProxy.settings_tryRunPlugins _ v).trans (ZaphylProxy.settings_admission s (some v.ip) v.nowMs v.req)
        rw [← waits_congr hsame]
        exact (consultCache_reaches hran .http1 v).of_settings hsame

theorem isSome_nextTarget_of_upstreamRoute {t : Server} {host : Option Str} {path : Str} {route : Route} {target : Target}
    (hroute : t.proxy.router.matchRoute host path = some route) (h : (t.nextTarget host path).1 = some target) :
    route.nextTarget.1.isSome = true := by
  have hpicked : (t.nextTarget host path).1 = route.nextTarget.1 := by
    simp [nextTarget, Router.nextTarget, hroute]
  rw [← hpicked, h]
  rfl

theorem handle_http1_reaches {c : ResponseCache} (hcache : s.cache = some c) (v : Visit) :
    s.CacheReached (ZaphylProxy.handle s v).server c [] [] := by
  obtain ⟨c', hc', hreach⟩ := requestFilter_reaches hcache v
  have hsame := ZaphylProxy.settings_requestFilter s v
  unfold ZaphylProxy.handle
  simp only
  split
  · rename_i answer hanswer
    simp only [waits, hanswer] at hreach
    exact ⟨c', hc', hreach⟩
  · rename_i hanswer
    simp only [waits, hanswer] at hreach
    split
    · rename_i route target hroute htarget
      refine .after (storeFetched_reaches ((settings_nextTarget ..).trans hsame) hc' .http1 v ?_ ?_ _ _) hreach
      · exact upstreamRoute_of_settings hsame hroute
      · exact isSome_nextTarget_of_upstreamRoute hroute htarget
    · exact .after ⟨c', hc', ProxyConfig.reaches_unwaited _ c' .http1 v.req _⟩ hreach

theorem forward_reaches {t : Server} (hsame : t.settings = s.settings) {c : ResponseCache} (hcache : t.cache = some c)
    (v : Visit) (contacts : List OriginRequest) (key : Option Str) :
    s.CacheReached (Http3.forward t v contacts key).server c (key.elim [] (s.settings.proxy.fetchTask .http3 v.req)) [] := by
  have hpassed : ∀ u : Server, u.cache = some c →
      s.CacheReached u c (key.elim [] (s.settings.proxy.fetchTask .http3 v.req)) [] :=
    fun u hu => ⟨c, hu, ProxyConfig.reaches_unwaited _ c .http3 v.req key⟩
  unfold Http3.forward
  simp only
  split
  · rename_i matched target hmatched htarget
    split
    · exact hpassed _ hcache
    · split
      · exact hpassed _ hcache
      · refine storeFetched_reaches ((settings_nextTarget ..).trans hsame) hcache .http3 v ?_ ?_ key _
        · exact upstreamRoute_of_settings hsame hmatched
        · exact isSome_nextTarget_of_upstreamRoute hmatched htarget
  · exact hpassed _ hcache

theorem handle_http3_reaches {c : ResponseCache} (hcache : s.cache = some c) (v : Visit) :
    s.CacheReached (Http3.proxyRequest s v).server c [] [] := by
  have hran := (Http3.cache_tryPlugins s v).trans hcache
  have hsame := Http3.settings_tryPlugins s v
  obtain ⟨c', hc', hreach⟩ := (consultCache_reaches hran .http3 v).of_settings hsame
  rw [waits_congr hsame] at hreach
  rcases Http3.proxyRequest_cases s v with ⟨_, h⟩ | ⟨_, h⟩ | ⟨_, -, h⟩ | ⟨answer, hanswer, h⟩ | ⟨hanswer, h⟩
  · rw [h]
    exact cacheReached_self hcache []
  · rw [h]
    exact cacheReached_self hcache []
  · rw [h]
    exact cacheReached_self hran []
  · rw [h]
    simp only [waits, hanswer] at hreach
    exact ⟨c', hc', hreach⟩
  · rw [h]
    simp only [waits, hanswer] at hreach
    exact .after (forward_reaches ((settings_consultCache ..).trans hsame) hc' v _ _) hreach

/-- **Handling a visit is a run of the proxy** from its cache to the cache it leaves. -/
theorem handle_reaches {c : ResponseCache} (hcache : s.cache = some c) (listener : Listener) (v : Visit) :
    s.CacheReached (s.handle listener v).server c [] [] := by
  cases listener with
  | http1 => exact handle_http1_reaches hcache v
  | http3 => exact handle_http3_reaches hcache v

/-- **What a history of visits makes of the cache, a run of the proxy makes of it.** -/
theorem after_reaches {c : ResponseCache} (hcache : s.cache = some c) (history : List (Listener × Visit)) :
    s.CacheReached (s.after history) c [] [] := by
  unfold after
  induction history generalizing s c with
  | nil => exact cacheReached_self hcache []
  | cons visit history ih =>
    obtain ⟨c', hc', hreach⟩ := handle_reaches hcache visit.1 visit.2
    exact .after ((ih hc').of_settings (settings_handle s visit.1 visit.2)) hreach

/-- A server of one upstream with an empty cache. -/
def cachingServer : Server := { runningServer oneUpstream.router with cache := some (ResponseCache.new 8) }

/-- A visit whose origin answers with a page for a minute. -/
def cacheableVisit : Visit :=
  { visitOf (getPage "a.test".toList) with
    origin := fun _ => some (okHead [("cache-control", "max-age=60")], [[104, 105]]) }

theorem page_kept_reached :
    (∃ hit, ((cachingServer.after [(.http1, cacheableVisit)]).handle .http3 cacheableVisit).answer = .cached hit none) ∧
      cachingServer.CacheReached (cachingServer.after [(.http1, cacheableVisit)]) (ResponseCache.new 8) [] [] :=
  ⟨⟨_, rfl⟩, after_reaches rfl _⟩

end Server
end Zaphyl
