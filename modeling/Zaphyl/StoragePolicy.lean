import Zaphyl.RelayedHead
/-!
# StoragePolicy — what the shared cache may hold

Every entry that is stored should come from an origin response that may be cached.  On a miss it does, with compression
and with route headers that leave the lifetime alone; a 200 to a revalidation is stored by its stored headers, which do
not say whether the response set a cookie (`revalidation_stores_a_cookie`).  In runs where that makes no difference the
policy holds of everything stored (`stored_under_policy`).
-/
namespace Zaphyl

open Text (eqIgnoreAsciiCase)

/-! ## The policy -/

/-- An entry made of an origin response, on one of the store paths. -/
inductive StoredFrom (cfg : ProxyConfig) (head : ResponseHead) : CachedResponse → Prop
  | fetched (listener : Listener) (req : Request) (route : Route) (body : Bytes) :
      StoredFrom cfg head ⟨(cfg.fetchedHead listener req route head).status,
        storedHeaders (cfg.fetchedHead listener req route head).headers, body⟩
  | revalidated (body : Bytes) : StoredFrom cfg head ⟨200, storedHeaders head.headers, body⟩

/-- **The storage policy of an entry**: it comes from an origin response of status 200 without `Set-Cookie` and with a
lifetime, and holds no `Set-Cookie` itself. -/
def UnderPolicy (cfg : ProxyConfig) (origin : List ResponseHead) (r : CachedResponse) : Prop :=
  ∃ head ∈ origin, StoredFrom cfg head r ∧ head.status = 200 ∧
    head.headers.containsKey HeaderName.setCookie = false ∧ upstreamTtl head ≠ none ∧
    ∀ h ∈ r.headers, eqIgnoreAsciiCase h.1 "set-cookie".toList = false

theorem UnderPolicy.mono {cfg : ProxyConfig} {origin : List ResponseHead} {r : CachedResponse}
    (h : UnderPolicy cfg origin r) (more : List ResponseHead) : UnderPolicy cfg (origin ++ more) r := by
  obtain ⟨head, hmem, hrest⟩ := h
  exact ⟨head, List.mem_append_left _ hmem, hrest⟩

/-! ## Caches that hold only such entries -/

/-- A file that an entry with `P` was encoded into. -/
def FileHas (P : CachedResponse → Prop) (_ : FileName) (file : File) : Prop :=
  ∃ key expiry r, P r ∧ Codec.Fits key r ∧ file.bytes = Codec.encode key expiry r

/-- Memory and every file hold entries with `P`. -/
abbrev HoldsOnly (P : CachedResponse → Prop) (c : ResponseCache) : Prop := c.Holds (fun _ _ r => P r) (FileHas P)

section
variable {P Q : CachedResponse → Prop} {hash : Str → UInt64} {c : ResponseCache}

theorem FileHas.mono (hPQ : ∀ r, P r → Q r) {name : FileName} {file : File} (h : FileHas P name file) :
    FileHas Q name file := by
  obtain ⟨key, expiry, r, hP, hrest⟩ := h
  exact ⟨key, expiry, r, hPQ r hP, hrest⟩

theorem HoldsOnly.mono (h : HoldsOnly P c) (hPQ : ∀ r, P r → Q r) : HoldsOnly Q c :=
  ResponseCache.Holds.mono h (hPQ _) (FileHas.mono hPQ)

theorem HoldsOnly.put (h : HoldsOnly P c) (env : Env) {key : Str} {expiry : SystemTime} {r : CachedResponse} (hr : P r)
    (hfits : c.disk ≠ none → Codec.Fits key r) : HoldsOnly P (c.put hash env key expiry r) :=
  ResponseCache.Holds.put h (fun _ hP => hP) (fun _ hP => hP) hr (fun hd => ⟨key, expiry, r, hr, hfits hd, rfl⟩)

/-- A lookup answers, and keeps, entries with `P`. -/
theorem HoldsOnly.lookup (h : HoldsOnly P c) {env : Env} {key : Str} {now : SystemTime} {result : Lookup}
    {c' : ResponseCache} (hl : c.lookup hash env key now = .ok (result, c')) :
    HoldsOnly P c' ∧ ∀ r, result = .fresh r ∨ result = .stale r → P r := by
  have hread : ∀ {expiry response}, c.readDisk hash key = .ok (some (expiry, response)) → P response :=
    ResponseCache.Holds.readDisk h (fun hf => hf)
  obtain ⟨hkept, hresult⟩ := ResponseCache.Holds.lookup h hread hl
  refine ⟨hkept, fun r hr => ?_⟩
  obtain ⟨-, hP⟩ := hresult r hr
  exact hP

end

/-! ## Steps that keep the policy -/

def ProxyTask.HitHas (P : CachedResponse → Prop) : ProxyTask → Prop
  | .revalidating _ _ _ hit _ => P hit
  | .fetching _ _ _ _ => True

/-- **What is stored, held and waited for is under the policy.** -/
structure ProxyState.Clean (cfg : ProxyConfig) (s : ProxyState) : Prop where
  stored : ∀ r ∈ s.stored, UnderPolicy cfg s.origin r
  cache : HoldsOnly (UnderPolicy cfg s.origin) s.cache
  tasks : ∀ task ∈ s.tasks, task.HitHas (UnderPolicy cfg s.origin)

/-- The answer to a task shows all that decides its storing.  A 200 to a revalidation that its stored headers give a
lifetime sets no cookie and has a readable `Cache-Control`; a response that an HTTP/3 route gives `Cache-Control` or
`Vary` of its own has no lifetime by them alone. -/
def Shows (cfg : ProxyConfig) (head : ResponseHead) (chunks : List Bytes) : ProxyTask → Prop
  | .revalidating _ _ _ _ _ => ∀ fresh, revalidate cfg.maxBody head chunks = .modified fresh → storedTtl fresh ≠ none →
      head.headers.containsKey HeaderName.setCookie = false ∧ head.headers.getStr HeaderName.cacheControl ≠ none
  | .fetching .http1 _ _ _ => True
  | .fetching .http3 _ _ route =>
    route.setsLifetime → upstreamTtl (relayHead route head) ≠ none → upstreamTtl head ≠ none

/-- A step whose answer shows what decides its storing, and whose entry fits a file where there is a disk tier. -/
def ProxyState.Plain (cfg : ProxyConfig) (s : ProxyState) : ProxyEvent → Prop
  | .answer i head chunks now _ => ∀ task, s.tasks[i]? = some task → Shows cfg head chunks task ∧
      ∀ p, (cfg.outcome head chunks now task).1 = some p → s.cache.disk ≠ none → Codec.Fits p.key p.response
  | .request _ _ _ _ => True
  | .fail _ => True
  | .restart _ => True

variable {cfg : ProxyConfig}

theorem storeUntil_eq_some {key : Str} {base : SystemTime} {ttl : Duration} {r : CachedResponse} {p : Store}
    (h : ProxyConfig.storeUntil key base ttl r = some p) : p.key = key ∧ p.response = r := by
  unfold ProxyConfig.storeUntil at h
  split at h
  · cases h
    exact ⟨rfl, rfl⟩
  · cases h

/-- An answer stores under its task's key. -/
theorem key_of_outcome {head : ResponseHead} {chunks : List Bytes} {now : SystemTime} {task : ProxyTask} {p : Store}
    (h : (cfg.outcome head chunks now task).1 = some p) : p.key = task.key := by
  cases task with
  | revalidating listener req key hit started =>
    simp only [ProxyConfig.outcome] at h
    split at h
    · exact (storeUntil_eq_some h).1
    · obtain ⟨ttl, -, h⟩ := Option.bind_eq_some_iff.1 h
      exact (storeUntil_eq_some h).1
    · cases h
  | fetching listener req key route =>
    obtain ⟨ttl, -, h⟩ := Option.bind_eq_some_iff.1 h
    obtain ⟨body, -, h⟩ := Option.bind_eq_some_iff.1 h
    exact (storeUntil_eq_some h).1

theorem fetchTask_hitHas {P : CachedResponse → Prop} {listener : Listener} {req : Request} {key : Str} :
    ∀ task ∈ cfg.fetchTask listener req key, task.HitHas P := by
  intro task h
  unfold ProxyConfig.fetchTask at h
  split at h
  · split at h
    · rw [List.mem_singleton] at h
      subst h
      trivial
    · cases h
  · cases h

theorem outcome_tasks_hitHas {P : CachedResponse → Prop} {head : ResponseHead} {chunks : List Bytes} {now : SystemTime}
    (task : ProxyTask) : ∀ t ∈ (cfg.outcome head chunks now task).2, t.HitHas P := by
  intro t ht
  cases task with
  | revalidating listener req key hit started =>
    simp only [ProxyConfig.outcome] at ht
    split at ht
    · cases ht
    · cases ht
    · exact fetchTask_hitHas t ht
  | fetching listener req key route => cases ht

theorem revalidate_eq_modified {maxBody : Nat} {head : ResponseHead} {chunks : List Bytes} {fresh : CachedResponse}
    (h : revalidate maxBody head chunks = .modified fresh) :
    head.status = 200 ∧ fresh = ⟨200, storedHeaders head.headers, chunks.flatten⟩ := by
  unfold revalidate at h
  split at h
  · cases h
  · split at h
    · rename_i hstatus
      split at h
      · cases h
      · cases h
        exact ⟨hstatus, rfl⟩
    · cases h

theorem fetchedHead_keeps {listener : Listener} {req : Request} {key : Str} {route : Route} {head : ResponseHead}
    {chunks : List Bytes} (hshows : Shows cfg head chunks (.fetching listener req key route))
    (h : upstreamTtl (cfg.fetchedHead listener req route head) ≠ none) : upstreamTtl head ≠ none := by
  cases listener with
  | http1 =>
    have hsame : upstreamTtl (cfg.fetchedHead .http1 req route head) = upstreamTtl head :=
      upstreamTtl_compress cfg.compressor req head
    rwa [hsame] at h
  | http3 =>
    by_cases hroute : route.setsLifetime
    · exact hshows hroute h
    · exact upstreamTtl_of_relayHead hroute h

theorem of_upstreamTtl_ne_none {head : ResponseHead} (h : upstreamTtl head ≠ none) :
    head.status = 200 ∧ head.headers.containsKey HeaderName.setCookie = false := by
  obtain ⟨hstatus, hcookie, -⟩ := (responseTtl_ne_none_iff ..).1 h
  exact ⟨hstatus, hcookie⟩

/-- **What a plain answer stores is under the policy.** -/
theorem outcome_underPolicy {origin : List ResponseHead} {head : ResponseHead} {chunks : List Bytes} {now : SystemTime}
    {task : ProxyTask} {p : Store} (hhit : task.HitHas (UnderPolicy cfg origin)) (hshows : Shows cfg head chunks task)
    (hp : (cfg.outcome head chunks now task).1 = some p) : UnderPolicy cfg (origin ++ [head]) p.response := by
  have hmem : head ∈ origin ++ [head] := by simp
  cases task with
  | revalidating listener req key hit started =>
    simp only [ProxyConfig.outcome] at hp
    split at hp
    · -- 304: the hit is stored again
      rw [(storeUntil_eq_some hp).2]
      exact UnderPolicy.mono hhit [head]
    · rename_i fresh hmodified
      obtain ⟨ttl, httl, hp⟩ := Option.bind_eq_some_iff.1 hp
      have hlife : storedTtl fresh ≠ none := by simp [httl]
      obtain ⟨hcookie, hcc⟩ := hshows fresh hmodified hlife
      obtain ⟨hstatus, rfl⟩ := revalidate_eq_modified hmodified
      rw [(storeUntil_eq_some hp).2]
      exact ⟨head, hmem, .revalidated _, hstatus, hcookie, upstreamTtl_of_storedTtl hstatus hcookie hcc hlife,
        no_setCookie_storedHeaders hcookie⟩
    · cases hp
  | fetching listener req key route =>
    obtain ⟨ttl, httl, hp⟩ := Option.bind_eq_some_iff.1 hp
    obtain ⟨body, -, hp⟩ := Option.bind_eq_some_iff.1 hp
    have hfetched : upstreamTtl (cfg.fetchedHead listener req route head) ≠ none := by simp [httl]
    have hlife := fetchedHead_keeps hshows hfetched
    obtain ⟨hstatus, hcookie⟩ := of_upstreamTtl_ne_none hlife
    rw [(storeUntil_eq_some hp).2]
    exact ⟨head, hmem, .fetched listener req route body, hstatus, hcookie, hlife,
      no_setCookie_storedHeaders (of_upstreamTtl_ne_none hfetched).2⟩

theorem clean_start {c₀ : ResponseCache}
    (h₀ : ∃ maxEntries, c₀ = ResponseCache.new maxEntries ∨ c₀ = ResponseCache.withDisk maxEntries ∅) :
    (ProxyState.start c₀).Clean cfg := by
  refine ⟨fun r hr => absurd hr (by simp [ProxyState.start]), ?_, fun t ht => absurd ht (by simp [ProxyState.start])⟩
  obtain ⟨maxEntries, rfl | rfl⟩ := h₀
  · exact ResponseCache.holds_new maxEntries
  · exact ResponseCache.holds_withDisk_empty maxEntries

theorem clean_request {s : ProxyState} (hs : s.Clean cfg) (listener : Listener) (req : Request) (now : SystemTime)
    (env : Env) : (cfg.step s (.request listener req now env)).Clean cfg := by
  simp only [ProxyConfig.step]
  split
  · exact hs
  · rename_i l hl
    split
    · exact hs
    · rename_i result cache hlookup
      obtain ⟨hcache, hresult⟩ := hs.cache.lookup hlookup
      refine ⟨hs.stored, hcache, fun task ht => ?_⟩
      rcases List.mem_append.1 ht with ht | ht
      · exact hs.tasks task ht
      · unfold ProxyConfig.tasksOf at ht
        split at ht
        · cases ht
        · exact fetchTask_hitHas task ht
        · split at ht
          · rw [List.mem_singleton] at ht
            subst ht
            exact hresult _ (Or.inr rfl)
          · exact fetchTask_hitHas task ht

theorem ProxyTask.HitHas.mono {P Q : CachedResponse → Prop} {task : ProxyTask} (h : task.HitHas P)
    (hPQ : ∀ r, P r → Q r) : task.HitHas Q := by
  cases task with
  | revalidating listener req key hit started => exact hPQ hit h
  | fetching listener req key route => trivial

theorem clean_answer {s : ProxyState} (hs : s.Clean cfg) {i : Nat} {head : ResponseHead} {chunks : List Bytes}
    {now : SystemTime} {env : Env} (hplain : s.Plain cfg (.answer i head chunks now env)) :
    (cfg.step s (.answer i head chunks now env)).Clean cfg := by
  simp only [ProxyConfig.step]
  cases htask : s.tasks[i]? with
  | none => exact hs
  | some task =>
    have hin : task ∈ s.tasks := List.mem_of_getElem? htask
    obtain ⟨hshows, hfits⟩ := hplain task htask
    have hmono : ∀ r, UnderPolicy cfg s.origin r → UnderPolicy cfg (s.origin ++ [head]) r := fun r hr => hr.mono [head]
    have htasks : ∀ t ∈ s.tasks.eraseIdx i ++ (cfg.outcome head chunks now task).2,
        t.HitHas (UnderPolicy cfg (s.origin ++ [head])) := by
      intro t ht
      rcases List.mem_append.1 ht with ht | ht
      · exact (hs.tasks t (List.mem_of_mem_eraseIdx ht)).mono hmono
      · exact outcome_tasks_hitHas task t ht
    have hstored : ∀ r ∈ s.stored, UnderPolicy cfg (s.origin ++ [head]) r := fun r hr => hmono r (hs.stored r hr)
    simp only
    cases hp : (cfg.outcome head chunks now task).1 with
    | none => exact ⟨hstored, hs.cache.mono hmono, htasks⟩
    | some p =>
      have hpolicy := outcome_underPolicy (hs.tasks task hin) hshows hp
      refine ⟨fun r hr => ?_, (hs.cache.mono hmono).put env hpolicy (hfits p hp), htasks⟩
      rcases List.mem_append.1 hr with hr | hr
      · exact hstored r hr
      · rw [List.mem_singleton] at hr
        rw [hr]
        exact hpolicy

theorem clean_fail {s : ProxyState} (hs : s.Clean cfg) (i : Nat) : (cfg.step s (.fail i)).Clean cfg := by
  simp only [ProxyConfig.step]
  split
  · refine ⟨hs.stored, hs.cache, fun t ht => ?_⟩
    rcases List.mem_append.1 ht with ht | ht
    · exact hs.tasks t (List.mem_of_mem_eraseIdx ht)
    · exact fetchTask_hitHas t ht
  · exact ⟨hs.stored, hs.cache, fun t ht => hs.tasks t (List.mem_of_mem_eraseIdx ht)⟩
  · exact hs

theorem clean_restart {s : ProxyState} (hs : s.Clean cfg) (maxEntries : Nat) :
    (cfg.step s (.restart maxEntries)).Clean cfg := by
  simp only [ProxyConfig.step]
  cases hd : s.cache.disk with
  | none => exact ⟨hs.stored, ResponseCache.holds_new maxEntries, fun t ht => by cases ht⟩
  | some disk => exact ⟨hs.stored, ResponseCache.holds_withDisk maxEntries (hs.cache.files hd), fun t ht => by cases ht⟩

/-- **A plain step keeps the policy.** -/
theorem clean_step {s : ProxyState} {e : ProxyEvent} (hs : s.Clean cfg) (hplain : s.Plain cfg e) :
    (cfg.step s e).Clean cfg := by
  cases e with
  | request listener req now env => exact clean_request hs listener req now env
  | answer i head chunks now env => exact clean_answer hs hplain
  | fail i => exact clean_fail hs i
  | restart maxEntries => exact clean_restart hs maxEntries

/-- **Everything stored is under the policy.**  In every run of plain steps from an empty cache, in memory only or over
an empty directory, each entry passed to `put` comes from an origin response of status 200 without `Set-Cookie` and with
a lifetime, and holds no `Set-Cookie`. -/
theorem stored_under_policy (cfg : ProxyConfig) (c₀ : ResponseCache)
    (h₀ : ∃ maxEntries, c₀ = ResponseCache.new maxEntries ∨ c₀ = ResponseCache.withDisk maxEntries ∅)
    {events : List ProxyEvent} {s : ProxyState}
    (hrun : Runs.Run (Runs.Run.Where cfg.Next (ProxyState.Plain cfg)) (ProxyState.start c₀) events s) :
    ∀ r ∈ s.stored, UnderPolicy cfg s.origin r := by
  have hs : s.Clean cfg :=
    hrun.invariant_where (fun _ _ t hc hplain ht => by rw [ht]; exact clean_step hc hplain) (clean_start h₀)
  exact hs.stored

/-! ## A revalidation that sets a cookie -/

def noCompression : Compressor :=
  ⟨fun _ head => head, fun _ _ => rfl, fun _ _ => rfl, fun _ _ => rfl, fun _ _ => Or.inl rfl⟩

def oneUpstream : ProxyConfig :=
  ⟨fun _ => 0, ⟨[Route.new none none [Target.new "127.0.0.1:3000".toList false "127.0.0.1".toList]]⟩, bracketedHost,
    noCompression, 1024⟩

def okHead (lines : List (String × String)) : ResponseHead :=
  ⟨200, ⟨lines.filterMap (fun l => (HeaderName.parse l.1.toList).bind (fun name =>
    (HeaderValue.ofStr l.2.toList).map (fun value => (name, value))))⟩⟩

def taggedHead : ResponseHead := okHead [("cache-control", "max-age=1"), ("etag", "v1")]

def cookieHead : ResponseHead := okHead [("cache-control", "max-age=60"), ("set-cookie", "session=1")]

def second (n : Nat) (h : (n : Int) < 9223372036854775808 := by decide) : SystemTime :=
  ⟨n * 1000000000, by unfold endOfTime nanosPerSec; omega, by unfold endOfTime nanosPerSec; omega⟩

def firstSecond : SystemTime := second 1

def thirdSecond : SystemTime := second 3

def missEvents : List ProxyEvent :=
  [.request .http1 (getWithHost "a.test".toList ['/']) (second 1) Env.kept, .answer 0 taggedHead [] (second 1) Env.kept]

/-- A miss is stored for a second; later its entry is revalidated by a 200 that sets a cookie. -/
def cookieEvents : List ProxyEvent :=
  missEvents ++ [.request .http1 (getWithHost "a.test".toList ['/']) (second 3) Env.kept,
    .answer 0 cookieHead [] (second 3) Env.kept]

def runProxy (events : List ProxyEvent) : ProxyState :=
  events.foldl oneUpstream.step (ProxyState.start (ResponseCache.new 8))

theorem missEvents_plain : Runs.Run (Runs.Run.Where oneUpstream.Next (ProxyState.Plain oneUpstream))
    (ProxyState.start (ResponseCache.new 8)) missEvents (runProxy missEvents) := by
  refine .cons ⟨rfl, trivial⟩ (.cons ⟨rfl, fun task ht => ⟨?_, fun p hp hd => absurd rfl hd⟩⟩ (.nil _))
  cases ht
  trivial

theorem missEvents_under_policy :
    (runProxy missEvents).stored =
        [⟨200, [("cache-control".toList, "max-age=1".toList), ("etag".toList, "v1".toList)], []⟩] ∧
      ∀ r ∈ (runProxy missEvents).stored, UnderPolicy oneUpstream (runProxy missEvents).origin r :=
  ⟨by decide, stored_under_policy oneUpstream (ResponseCache.new 8) ⟨8, Or.inl rfl⟩ missEvents_plain⟩

/-- **A revalidation stores the cookie of a 200.** -/
theorem revalidation_stores_a_cookie :
    Runs.Run oneUpstream.Next (ProxyState.start (ResponseCache.new 8)) cookieEvents (runProxy cookieEvents) ∧
      ∃ r ∈ (runProxy cookieEvents).stored, ("set-cookie".toList, "session=1".toList) ∈ r.headers ∧
        ¬ UnderPolicy oneUpstream (runProxy cookieEvents).origin r := by
  refine ⟨.cons rfl (.cons rfl (.cons rfl (.cons rfl (.nil _)))),
    ⟨200, [("cache-control".toList, "max-age=60".toList), ("set-cookie".toList, "session=1".toList)], []⟩, by decide,
    by decide, ?_⟩
  rintro ⟨head, -, -, -, -, -, hno⟩
  exact absurd (hno ("set-cookie".toList, "session=1".toList) (by decide)) (by decide)

end Zaphyl
