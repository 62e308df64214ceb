import Zaphyl.ServedAge
/-!
# ServedResource — whose response a request is served from the cache

A task asks the origin for the request it was left by, under that request's key, on either listener.  So a response that
a lookup finds was sent for a GET without credentials that may be cached, and, where no host has a slash in it, for the
same host, path and query, and codings (`served_for_same_resource`).
-/
namespace Zaphyl

namespace ProxyTask

def listener : ProxyTask → Listener
  | .revalidating listener _ _ _ _ => listener
  | .fetching listener _ _ _ => listener

def req : ProxyTask → Request
  | .revalidating _ req _ _ _ => req
  | .fetching _ req _ _ => req

/-- The task has the key that its own request is looked up under. -/
def Keyed (cfg : ProxyConfig) (task : ProxyTask) : Prop :=
  ∃ l, cfg.lookupOf task.listener task.req = some l ∧ l.key = task.key

end ProxyTask

variable {cfg : ProxyConfig}

/-! ## The keys of tasks -/

theorem fetchTask_keyed {listener : Listener} {req : Request} {key : Str}
    (h : ∃ l, cfg.lookupOf listener req = some l ∧ l.key = key) :
    ∀ task ∈ cfg.fetchTask listener req key, task.Keyed cfg := by
  intro task ht
  unfold ProxyConfig.fetchTask at ht
  split at ht
  · split at ht
    · rw [List.mem_singleton] at ht
      subst ht
      exact h
    · cases ht
  · cases ht

theorem tasksOf_keyed {listener : Listener} {req : Request} {now : SystemTime} {l : CacheLookup} {result : Lookup}
    (hl : cfg.lookupOf listener req = some l) :
    ∀ task ∈ cfg.tasksOf listener req now l result, task.Keyed cfg := by
  intro task ht
  unfold ProxyConfig.tasksOf at ht
  split at ht
  · cases ht
  · exact fetchTask_keyed ⟨l, hl, rfl⟩ task ht
  · split at ht
    · rw [List.mem_singleton] at ht
      subst ht
      exact ⟨l, hl, rfl⟩
    · exact fetchTask_keyed ⟨l, hl, rfl⟩ task ht

theorem outcome_keyed {head : ResponseHead} {chunks : List Bytes} {now : SystemTime} {task : ProxyTask}
    (h : task.Keyed cfg) : ∀ t ∈ (cfg.outcome head chunks now task).2, t.Keyed cfg := by
  intro t ht
  cases task with
  | revalidating listener req key hit started =>
    simp only [ProxyConfig.outcome] at ht
    split at ht
    · cases ht
    · cases ht
    · exact fetchTask_keyed h t ht
  | fetching listener req key route => cases ht

/-- **A step leaves tasks under their own keys only.** -/
theorem step_keyed {s : ProxyState} (hs : ∀ t ∈ s.tasks, t.Keyed cfg) (e : ProxyEvent) :
    ∀ t ∈ (cfg.step s e).tasks, t.Keyed cfg := by
  cases e with
  | request listener req now env =>
    simp only [ProxyConfig.step]
    split
    · exact hs
    · rename_i l hl
      split
      · exact hs
      · intro t ht
        rcases List.mem_append.1 ht with ht | ht
        · exact hs t ht
        · exact tasksOf_keyed hl t ht
  | answer i head chunks now env =>
    simp only [ProxyConfig.step]
    cases htask : s.tasks[i]? with
    | none => exact hs
    | some task =>
      have htasks : ∀ t ∈ s.tasks.eraseIdx i ++ (cfg.outcome head chunks now task).2, t.Keyed cfg := by
        intro t ht
        rcases List.mem_append.1 ht with ht | ht
        · exact hs t (List.mem_of_mem_eraseIdx ht)
        · exact outcome_keyed (hs task (List.mem_of_getElem? htask)) t ht
      simp only
      cases (cfg.outcome head chunks now task).1 with
      | none => exact htasks
      | some p => exact htasks
  | fail i =>
    simp only [ProxyConfig.step]
    split
    · rename_i listener req key hit started htask
      intro t ht
      rcases List.mem_append.1 ht with ht | ht
      · exact hs t (List.mem_of_mem_eraseIdx ht)
      · exact fetchTask_keyed (hs _ (List.mem_of_getElem? htask)) t ht
    · exact fun t ht => hs t (List.mem_of_mem_eraseIdx ht)
    · exact hs
  | restart maxEntries =>
    simp only [ProxyConfig.step]
    cases s.cache.disk with
    | none => exact fun t ht => (by cases ht)
    | some disk => exact fun t ht => (by cases ht)

/-- **In a run every exchange is under its own request's key.** -/
theorem exchanges_keyed : ∀ (events : List ProxyEvent) {s : ProxyState}, (∀ t ∈ s.tasks, t.Keyed cfg) →
    ∀ x ∈ cfg.exchanges s events, x.task.Keyed cfg
  | [], _, _, _, hx => by cases hx
  | e :: es, s, hs, x, hx => by
    rw [ProxyConfig.exchanges] at hx
    rcases List.mem_append.1 hx with hx | hx
    · rw [Option.mem_toList] at hx
      cases e with
      | answer i head chunks now env =>
        obtain ⟨task, htask, rfl⟩ := Option.map_eq_some_iff.1 hx
        exact hs task (List.mem_of_getElem? htask)
      | request listener req now env => cases hx
      | fail i => cases hx
      | restart maxEntries => cases hx
    · exact exchanges_keyed es (step_keyed hs e) x hx

/-! ## What is looked up -/

/-- **Only a GET without credentials is looked up**, that does not decline it. -/
theorem anonymous_of_cacheLookup {host : Str} {req : Request} {l : CacheLookup} (h : cacheLookup host req = some l) :
    req.method = "GET".toList ∧ req.headers.containsKey HeaderName.authorization = false ∧
      hasDirective (req.headers.getStr HeaderName.cacheControl) "no-store".toList = false := by
  refine ⟨method_of_cacheLookup h, ?_⟩
  unfold cacheLookup requestCacheable at h
  simp only at h
  split at h
  · rename_i hcacheable
    simp only [Bool.and_eq_true, Bool.not_eq_true'] at hcacheable
    exact ⟨hcacheable.1.1.2, hcacheable.1.2⟩
  · cases h

theorem cacheLookup_of_lookupOf {listener : Listener} {req : Request} {l : CacheLookup}
    (h : cfg.lookupOf listener req = some l) : ∃ host, cacheLookup host req = some l := by
  cases listener with
  | http1 => exact ⟨_, h⟩
  | http3 => exact ⟨_, h⟩

/-- Requests that name a resource: a host without a slash, and a target that begins with one. -/
def CacheLookup.NamesResource (l : CacheLookup) : Prop := '/' ∉ l.host ∧ l.pathAndQuery.head? = some '/'

/-- **Lookups of one key that name resources name the same one.** -/
theorem same_resource_of_key {a b : Request} {host host' : Str} {l m : CacheLookup} (ha : cacheLookup host a = some l)
    (hb : cacheLookup host' b = some m) (hkey : l.key = m.key) (hl : l.NamesResource) (hm : m.NamesResource) :
    l.host = m.host ∧ l.pathAndQuery = m.pathAndQuery ∧
      SameCodings (a.headers.getStr HeaderName.acceptEncoding) (b.headers.getStr HeaderName.acceptEncoding) := by
  obtain ⟨hlh, hlp, hlk⟩ := cacheLookup_eq_some ha
  obtain ⟨hmh, hmp, hmk⟩ := cacheLookup_eq_some hb
  rw [hlk, hmk, ← hlp, ← hmp, ← hlh, ← hmh] at hkey
  obtain ⟨hcat, hsame⟩ := (cacheKey_eq_iff (unitSep_not_mem_getStr _ _) (unitSep_not_mem_getStr _ _)).1 hkey
  rcases (append_eq_append_iff_shifted hl.2 hm.2).1 hcat with ⟨hhost, hpath⟩ | ⟨t, hhost, -⟩ | ⟨t, hhost, -⟩
  · exact ⟨hhost, hpath, hsame⟩
  · exact absurd (by rw [hhost]; simp) hm.1
  · exact absurd (by rw [hhost]; simp) hl.1

/-! ## Whole runs -/

/-- What a lookup finds was put and sent. -/
theorem backing_of_lookup {c c' : ResponseCache} {log : List Exchange}
    (h : c.Holds (Backing cfg log) (BackedFile cfg log)) {hash : Str → UInt64} {env : Env} {key : Str}
    {now : SystemTime} {result : Lookup} {r : CachedResponse}
    (hlookup : c.lookup hash env key now = .ok (result, c')) (hr : result = .fresh r ∨ result = .stale r) :
    ∃ x ∈ log, x.Sends cfg key r := by
  obtain ⟨-, hresult⟩ := h.lookup (fun hread => backing_of_readDisk h hread) hlookup
  obtain ⟨copy, -, hsent⟩ := hresult r hr
  exact hsent

/-- **A response from the cache was sent for the same resource.**  In every run from an empty cache, what a request's
lookup finds, fresh or stale, the origin sent with a 200 for a GET without credentials of the same key, on whichever
listener; where both name a resource it is the same host, path and query, with the same codings. -/
theorem served_for_same_resource (cfg : ProxyConfig) (c₀ : ResponseCache)
    (h₀ : ∃ maxEntries, c₀ = ResponseCache.new maxEntries ∨ c₀ = ResponseCache.withDisk maxEntries ∅)
    {events : List ProxyEvent} {s : ProxyState}
    (hrun : Runs.Run (Runs.Run.Where cfg.Next (ProxyState.Fitting cfg)) (ProxyState.start c₀) events s)
    {listener : Listener} {req : Request} {l : CacheLookup} (hl : cfg.lookupOf listener req = some l) {env : Env}
    {now : SystemTime} {result : Lookup} {r : CachedResponse} {c : ResponseCache}
    (hfound : s.cache.lookup cfg.hash env l.key now = .ok (result, c)) (hr : result = .fresh r ∨ result = .stale r) :
    ∃ x ∈ cfg.exchanges (ProxyState.start c₀) events, x.Sends cfg l.key r ∧
      x.task.req.method = "GET".toList ∧ x.task.req.headers.containsKey HeaderName.authorization = false ∧
      ∃ l', cfg.lookupOf x.task.listener x.task.req = some l' ∧ (l.NamesResource → l'.NamesResource →
        l'.host = l.host ∧ l'.pathAndQuery = l.pathAndQuery ∧
          SameCodings (x.task.req.headers.getStr HeaderName.acceptEncoding)
            (req.headers.getStr HeaderName.acceptEncoding)) := by
  have hs := backed_run hrun [] (backed_start h₀)
  rw [List.nil_append] at hs
  obtain ⟨x, hx, hsends⟩ := backing_of_lookup hs.cache hfound hr
  obtain ⟨l', hl', hkey⟩ := exchanges_keyed events (fun t ht => (by cases ht)) x hx
  obtain ⟨host', hlookup'⟩ := cacheLookup_of_lookupOf hl'
  obtain ⟨host, hlookup⟩ := cacheLookup_of_lookupOf hl
  obtain ⟨hmethod, hanonymous, -⟩ := anonymous_of_cacheLookup hlookup'
  have hsame : l'.key = l.key := hkey.trans hsends.1.1
  exact ⟨x, hx, hsends, hmethod, hanonymous, l', hl', fun hnames hnames' =>
    same_resource_of_key hlookup' hlookup hsame hnames' hnames⟩

/-- **What was fetched for HTTP/1 is served on HTTP/3.** -/
theorem served_across_listeners : ∃ l c, oneUpstream.lookupOf .http3 (getOverH2 siteA) = some l ∧
    (runProxy missEvents).cache.lookup oneUpstream.hash Env.kept l.key firstSecond =
      .ok (.fresh unmodifiedEntry, c) ∧
    ∃ x ∈ oneUpstream.exchanges (ProxyState.start (ResponseCache.new 8)) missEvents,
      x.Sends oneUpstream l.key unmodifiedEntry ∧ x.task.req.headers.containsKey HeaderName.authorization = false := by
  obtain ⟨l, hl⟩ := Option.isSome_iff_exists.1
    (show (oneUpstream.lookupOf .http3 (getOverH2 siteA)).isSome = true by decide)
  have hlookup : ∃ c, (runProxy missEvents).cache.lookup oneUpstream.hash Env.kept l.key firstSecond =
      .ok (.fresh unmodifiedEntry, c) := by
    have hfound : (oneUpstream.lookupOf .http3 (getOverH2 siteA)).map (fun l =>
        ((runProxy missEvents).cache.lookup oneUpstream.hash Env.kept l.key firstSecond).toOption.map Prod.fst) =
          some (some (.fresh unmodifiedEntry)) := by decide
    rw [hl, Option.map_some, Option.some.injEq] at hfound
    exact found_of_toOption hfound
  have hrun : Runs.Run (Runs.Run.Where oneUpstream.Next (ProxyState.Fitting oneUpstream))
      (ProxyState.start (ResponseCache.new 8)) missEvents (runProxy missEvents) :=
    .cons ⟨rfl, fun _ _ hx => by cases hx⟩ (.cons ⟨rfl, fun _ _ _ _ hd => absurd rfl hd⟩ (.nil _))
  obtain ⟨c, hc⟩ := hlookup
  obtain ⟨x, hx, hsends, -, hanonymous, -⟩ :=
    served_for_same_resource oneUpstream (ResponseCache.new 8) ⟨8, Or.inl rfl⟩ hrun hl hc (Or.inl rfl)
  exact ⟨l, c, hl, hc, x, hx, hsends, hanonymous⟩

end Zaphyl
