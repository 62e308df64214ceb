import Zaphyl.Authority
import Zaphyl.CacheStore
import Zaphyl.Runs
/-!
# Proxy — the cache path of the two listeners

A cacheable request is looked up, and a stale or missing entry leaves a task that waits for the origin: a revalidation
of the stale entry, or a fetch whose response may be stored.  Tasks of both listeners share one cache and are answered
in any order.  Ghost state records what the origin answered and what was stored.
-/
namespace Zaphyl

open Text (before asciiLower eqIgnoreAsciiCase)

/-! ## What is stored of a response -/

def isUncacheableHeader (name : Str) : Bool :=
  ["connection".toList, "keep-alive".toList, "proxy-connection".toList, "transfer-encoding".toList, "upgrade".toList,
    "content-length".toList].contains (asciiLower name)

/-- The visible lines of the other headers, as owned text pairs. -/
def storedHeaders (m : HeaderMap) : List (Str × Str) :=
  HeaderMap.visiblePairs ⟨m.lines.filter (fun l => !isUncacheableHeader l.1.text)⟩

def upstreamTtl (head : ResponseHead) : Option Duration :=
  responseTtl head.status (head.headers.getStr HeaderName.cacheControl) (head.headers.containsKey HeaderName.setCookie)
    (head.headers.getStr HeaderName.vary)

def CachedResponse.header (r : CachedResponse) (name : Str) : Option Str :=
  (r.headers.find? (fun h => eqIgnoreAsciiCase h.1 name)).map Prod.snd

def storedTtl (r : CachedResponse) : Option Duration :=
  responseTtl 200 (r.header "cache-control".toList) false (r.header "vary".toList)

/-- The body in chunks, bounded by `max`; `none` when it is too large to cache. -/
def accumulate (max : Nat) : Bytes → List Bytes → Option Bytes
  | body, [] => some body
  | body, chunk :: chunks => if body.length + chunk.length > max then none else accumulate max (body ++ chunk) chunks

inductive Revalidated
  | notModified
  | modified (response : CachedResponse)
  | failed

def revalidate (maxBody : Nat) (head : ResponseHead) (chunks : List Bytes) : Revalidated :=
  if head.status = 304 then .notModified
  else if head.status = 200 then
    if chunks.flatten.length > maxBody then .failed
    else .modified ⟨200, storedHeaders head.headers, chunks.flatten⟩
  else .failed

/-- The head the HTTP/3 listener relays: without hop-by-hop headers, with the route's own. -/
def relayHead (route : Route) (head : ResponseHead) : ResponseHead :=
  let relayed :=
    [HeaderName.connection, HeaderName.transferEncoding, HeaderName.upgrade].foldl HeaderMap.remove head.headers
  { head with
    headers := route.responseHeaders.foldl (fun m h =>
      match HeaderName.parse h.1, HeaderValue.ofStr h.2 with
      | some name, some value => m.insert name value
      | _, _ => m) relayed }

/-- Pingora's response compression, which runs on an HTTP/1 or HTTP/2 response before its filters see it: it keeps the
status, `Cache-Control` and `Set-Cookie`, and adds a `Vary` of `Accept-Encoding`, in whatever case, behind any other
`Vary` line. -/
structure Compressor where
  apply : Request → ResponseHead → ResponseHead
  status : ∀ req head, (apply req head).status = head.status
  cacheControl : ∀ req head,
    (apply req head).headers.get HeaderName.cacheControl = head.headers.get HeaderName.cacheControl
  setCookie : ∀ req head,
    (apply req head).headers.containsKey HeaderName.setCookie = head.headers.containsKey HeaderName.setCookie
  vary : ∀ req head, (apply req head).headers.get HeaderName.vary = head.headers.get HeaderName.vary ∨
    head.headers.get HeaderName.vary = none ∧
      ∃ added, (apply req head).headers.getStr HeaderName.vary = some added ∧
        eqIgnoreAsciiCase added "accept-encoding".toList = true

/-! ## The proxy -/

/-- The two pipelines; HTTP/2 takes that of HTTP/1. -/
inductive Listener
  | http1
  | http3
deriving DecidableEq

structure ProxyConfig where
  hash : Str → UInt64
  router : Router
  uriHost : Uri → Option Str
  compressor : Compressor
  maxBody : Nat

inductive ProxyTask
  | revalidating (listener : Listener) (req : Request) (key : Str) (hit : CachedResponse) (started : SystemTime)
  | fetching (listener : Listener) (req : Request) (key : Str) (route : Route)

def ProxyTask.key : ProxyTask → Str
  | .revalidating _ _ key _ _ => key
  | .fetching _ _ key _ => key

structure ProxyState where
  cache : ResponseCache
  tasks : List ProxyTask
  origin : List ResponseHead
  stored : List CachedResponse

inductive ProxyEvent
  | request (listener : Listener) (req : Request) (now : SystemTime) (env : Env)
  | answer (i : Nat) (head : ResponseHead) (chunks : List Bytes) (now : SystemTime) (env : Env)
  | fail (i : Nat)
  | restart (maxEntries : Nat)

structure Store where
  key : Str
  expiry : SystemTime
  response : CachedResponse

namespace ProxyConfig

variable (cfg : ProxyConfig)

def lookupOf (listener : Listener) (req : Request) : Option CacheLookup :=
  match listener with
  | .http1 => ZaphylProxy.cacheLookup req
  | .http3 => Http3.cacheLookup cfg.uriHost req

def upstreamRoute (listener : Listener) (req : Request) : Option Route :=
  match listener with
  | .http1 => cfg.router.matchRoute (ZaphylProxy.headerHost req) req.uri.path
  | .http3 => cfg.router.matchRoute (cfg.uriHost req.uri) req.uri.path

/-- The route a stale entry is revalidated by. -/
def revalidationRoute (listener : Listener) (req : Request) (l : CacheLookup) : Option Route :=
  match listener with
  | .http1 => cfg.router.matchRoute (some l.host) (before '?' l.pathAndQuery)
  | .http3 => cfg.upstreamRoute listener req

/-- A fetch that may store under `key`, when the request's route has a target. -/
def fetchTask (listener : Listener) (req : Request) (key : Str) : List ProxyTask :=
  match cfg.upstreamRoute listener req with
  | some route => if route.nextTarget.1.isSome then [.fetching listener req key route] else []
  | none => []

def tasksOf (listener : Listener) (req : Request) (now : SystemTime) (l : CacheLookup) (result : Lookup) :
    List ProxyTask :=
  match result with
  | .fresh _ => []
  | .miss => cfg.fetchTask listener req l.key
  | .stale hit =>
    if hit.etag.isSome && (cfg.revalidationRoute listener req l).any (fun route => route.nextTarget.1.isSome) then
      [.revalidating listener req l.key hit now]
    else cfg.fetchTask listener req l.key

/-- A put until `base + ttl`; the panic of an addition that overflows ends the request. -/
def storeUntil (key : Str) (base : SystemTime) (ttl : Duration) (response : CachedResponse) : Option Store :=
  match base.add ttl with
  | .ok expiry => some ⟨key, expiry, response⟩
  | .error _ => none

def fetchedHead (listener : Listener) (req : Request) (route : Route) (head : ResponseHead) : ResponseHead :=
  match listener with
  | .http1 => cfg.compressor.apply req head
  | .http3 => relayHead route head

/-- What the origin's answer makes a task store, and the task it leaves. -/
def outcome (head : ResponseHead) (chunks : List Bytes) (now : SystemTime) : ProxyTask → Option Store × List ProxyTask
  | .revalidating listener req key hit started =>
    -- HTTP/3 counts the lifetime from the request's start
    let base := match listener with
      | .http1 => now
      | .http3 => started
    match revalidate cfg.maxBody head chunks with
    | .notModified => (storeUntil key base ((storedTtl hit).getD 60) hit, [])
    | .modified fresh => ((storedTtl fresh).bind (fun ttl => storeUntil key base ttl fresh), [])
    | .failed => (none, cfg.fetchTask listener req key)
  | .fetching listener req key route =>
    let fetched := cfg.fetchedHead listener req route head
    ((upstreamTtl fetched).bind (fun ttl => (accumulate cfg.maxBody [] chunks).bind (fun body =>
      storeUntil key now ttl ⟨fetched.status, storedHeaders fetched.headers, body⟩)), [])

def put (s : ProxyState) (env : Env) (p : Store) : ProxyState :=
  { s with
    cache := s.cache.put cfg.hash env p.key p.expiry p.response
    stored := s.stored ++ [p.response] }

def step (s : ProxyState) : ProxyEvent → ProxyState
  | .request listener req now env =>
    match cfg.lookupOf listener req with
    | none => s
    | some l =>
      match s.cache.lookup cfg.hash env l.key now with
      | .error _ => s
      | .ok (result, cache) => { s with cache := cache, tasks := s.tasks ++ cfg.tasksOf listener req now l result }
  | .answer i head chunks now env =>
    match s.tasks[i]? with
    | none => s
    | some task =>
      let done := cfg.outcome head chunks now task
      let s := { s with origin := s.origin ++ [head], tasks := s.tasks.eraseIdx i ++ done.2 }
      match done.1 with
      | some p => cfg.put s env p
      | none => s
  | .fail i =>
    match s.tasks[i]? with
    | some (.revalidating listener req key _ _) =>
      { s with tasks := s.tasks.eraseIdx i ++ cfg.fetchTask listener req key }
    | some (.fetching _ _ _ _) => { s with tasks := s.tasks.eraseIdx i }
    | none => s
  | .restart maxEntries =>
    match s.cache.disk with
    | some disk => { s with cache := ResponseCache.withDisk maxEntries disk.dir, tasks := [] }
    | none => { s with cache := ResponseCache.new maxEntries, tasks := [] }

def Next (s : ProxyState) (e : ProxyEvent) (t : ProxyState) : Prop := t = cfg.step s e

end ProxyConfig

def ProxyState.start (cache : ResponseCache) : ProxyState := ⟨cache, [], [], []⟩

/-! ## Lifetimes of what is stored -/

theorem asciiLower_text (n : HeaderName) : asciiLower n.text = n.text := by
  have hchar : ∀ c ∈ n.text, c.toLower = c := by
    intro c hc
    have hname := List.all_eq_true.1 n.wf.2 c hc
    have hupper : ¬ (65 ≤ c.toNat ∧ c.toNat ≤ 90) := by
      rintro ⟨hlow, hhigh⟩
      unfold isNameChar at hname
      rw [Bool.or_eq_true, Bool.or_eq_true] at hname
      rcases hname with (hl | hd) | hm
      · have hlower : 97 ≤ c.toNat := of_decide_eq_true ((Bool.and_eq_true _ _).mp hl).1
        omega
      · rw [Char.isDigit, Bool.and_eq_true, decide_eq_true_eq, decide_eq_true_eq] at hd
        have : c.toNat ≤ 57 := hd.2
        omega
      · have hmarks : "!#$%&'*+-.^_`|~".toList.all (fun d => d.toNat < 65 || 90 < d.toNat) = true := by decide
        have hmark := List.all_eq_true.1 hmarks c (by simpa using hm)
        rw [Bool.or_eq_true, decide_eq_true_eq, decide_eq_true_eq] at hmark
        omega
    rw [← Char.toNat_inj, Text.toNat_toLower, if_neg hupper]
  unfold asciiLower
  rw [List.map_congr_left hchar, List.map_id']

theorem eqIgnoreAsciiCase_text_iff (n k : HeaderName) : eqIgnoreAsciiCase n.text k.text = true ↔ n = k := by
  rw [Text.eqIgnoreAsciiCase_iff, asciiLower_text, asciiLower_text]
  exact HeaderName.text_inj

theorem mem_storedHeaders {m : HeaderMap} {p : Str × Str} (h : p ∈ storedHeaders m) :
    ∃ l ∈ m.lines, p.1 = l.1.text := by
  unfold storedHeaders HeaderMap.visiblePairs at h
  obtain ⟨l, hl, hp⟩ := List.mem_filterMap.1 h
  obtain ⟨s, -, rfl⟩ := Option.map_eq_some_iff.1 hp
  exact ⟨l, (List.mem_filter.1 hl).1, rfl⟩

/-- **A response without `Set-Cookie` is stored without it.** -/
theorem no_setCookie_storedHeaders {m : HeaderMap} (h : m.containsKey HeaderName.setCookie = false) :
    ∀ p ∈ storedHeaders m, eqIgnoreAsciiCase p.1 "set-cookie".toList = false := by
  intro p hp
  obtain ⟨l, hl, hname⟩ := mem_storedHeaders hp
  rw [hname]
  by_contra hset
  rw [Bool.not_eq_false] at hset
  have hn : l.1 = HeaderName.setCookie := (eqIgnoreAsciiCase_text_iff _ _).1 hset
  have hno := List.any_eq_false.1 h l hl
  simp [hn] at hno

theorem storedHeaders_cons (l : HeaderName × HeaderValue) (ls : List (HeaderName × HeaderValue)) :
    storedHeaders ⟨l :: ls⟩ =
      (if isUncacheableHeader l.1.text then [] else (l.2.toStr.map (fun s => (l.1.text, s))).toList) ++
        storedHeaders ⟨ls⟩ := by
  unfold storedHeaders HeaderMap.visiblePairs
  simp only [List.filter_cons]
  cases isUncacheableHeader l.1.text with
  | true => rfl
  | false =>
    simp only [Bool.not_false, if_true, List.filterMap_cons, Bool.false_eq_true, if_false]
    cases l.2.toStr <;> rfl

/-- **A header whose first line is visible is stored with that value first.** -/
theorem header_storedHeaders {n : HeaderName} (hn : isUncacheableHeader n.text = false) {m : HeaderMap} {s : Str}
    (h : m.getStr n = some s) (status : UInt16) (body : Bytes) :
    (CachedResponse.mk status (storedHeaders m) body).header n.text = some s := by
  obtain ⟨lines⟩ := m
  unfold CachedResponse.header
  unfold HeaderMap.getStr HeaderMap.get at h
  simp only at h ⊢
  induction lines with
  | nil => cases h
  | cons l lines ih =>
    rw [storedHeaders_cons]
    by_cases hl : l.1 = n
    · rw [List.find?_cons_of_pos (by simpa using hl), Option.map_some, Option.bind_some] at h
      have hsame : eqIgnoreAsciiCase l.1.text n.text = true := (eqIgnoreAsciiCase_text_iff _ _).2 hl
      rw [h, hl, hn]
      simp only [Bool.false_eq_true, if_false, Option.map_some, Option.toList_some, List.singleton_append]
      rw [List.find?_cons_of_pos (by rw [← hl]; exact hl ▸ hsame)]
      rfl
    · rw [List.find?_cons_of_neg (by simpa using hl)] at h
      have hne : eqIgnoreAsciiCase l.1.text n.text ≠ true := fun he => hl ((eqIgnoreAsciiCase_text_iff _ _).1 he)
      -- the line is dropped, or kept under another name
      have hskip : (if isUncacheableHeader l.1.text then [] else (l.2.toStr.map (fun s => (l.1.text, s))).toList).find?
          (fun h => eqIgnoreAsciiCase h.1 n.text) = none := by
        split
        · rfl
        · cases l.2.toStr with
          | none => rfl
          | some v => exact List.find?_cons_of_neg hne
      rw [List.find?_append, hskip, Option.none_or]
      exact ih h

/-- **Compression changes no lifetime.** -/
theorem upstreamTtl_compress (c : Compressor) (req : Request) (head : ResponseHead) :
    upstreamTtl (c.apply req head) = upstreamTtl head := by
  unfold upstreamTtl
  rw [c.status, c.setCookie, HeaderMap.getStr_congr (c.cacheControl req head)]
  apply responseTtl_congr_vary
  rcases c.vary req head with hv | ⟨hnone, added, hadded, hname⟩
  · rw [HeaderMap.getStr_congr hv]
  · rw [hadded, HeaderMap.getStr, hnone]
    exact varyCacheable_acceptEncoding hname

/-- A visible `Cache-Control` and no cookie carry a stored lifetime back to the response. -/
theorem upstreamTtl_of_storedTtl {head : ResponseHead} {body : Bytes} (hstatus : head.status = 200)
    (hcookie : head.headers.containsKey HeaderName.setCookie = false)
    (hcc : head.headers.getStr HeaderName.cacheControl ≠ none)
    (h : storedTtl ⟨200, storedHeaders head.headers, body⟩ ≠ none) : upstreamTtl head ≠ none := by
  unfold storedTtl at h
  unfold upstreamTtl
  obtain ⟨-, -, hvary, hlife⟩ := (responseTtl_ne_none_iff ..).1 h
  obtain ⟨cc, hcc⟩ := Option.ne_none_iff_exists'.1 hcc
  have hsame : (CachedResponse.mk 200 (storedHeaders head.headers) body).header "cache-control".toList = some cc :=
    header_storedHeaders (n := HeaderName.cacheControl) (by decide) hcc 200 body
  refine (responseTtl_ne_none_iff ..).2 ⟨hstatus, hcookie, ?_, ?_⟩
  · cases hv : head.headers.getStr HeaderName.vary with
    | none => rfl
    | some v =>
      have hvsame : (CachedResponse.mk 200 (storedHeaders head.headers) body).header "vary".toList = some v :=
        header_storedHeaders (n := HeaderName.vary) (by decide) hv 200 body
      rwa [hvsame] at hvary
  · rwa [hsame, ← hcc] at hlife

end Zaphyl
