import Zaphyl.Access
import Zaphyl.EarlyData
import Zaphyl.Proxy
import Zaphyl.RateLimiter
import Zaphyl.RequestBody
/-!
# Pipelines — the way of a request through either listener

Both listeners take a request through gates, the document root of its route, the plugin chain, the cache and the
upstream, in this order but with gates of their own at places of their own.  A visit is a request with all that the
outside adds to it; handling it gives the answer, the requests the listener itself sends to origins, and the server it
leaves.
-/
namespace Zaphyl

open Text (before)

/-- A request a listener sends to an origin. -/
structure OriginRequest where
  target : Target
  method : Str
  uri : Str
  headers : HeaderMap
deriving DecidableEq

structure PluginRequest where
  method : Str
  path : Str
  headers : List (Str × Str)
  body : Bytes
  clientIp : Str
deriving DecidableEq

/-- The plugin chains by route, as the paths of their plugins. -/
structure Plugins where
  chains : List (List Str)
  maxBody : Nat

def Plugins.chain (p : Plugins) (routeId : Nat) : Option (List Str) := p.chains[routeId]?.filter (fun chain => chain ≠ [])

/-- What a listener makes of a request: a refusal at a gate, a file of the document root or its 404, a plugin chain's
answer, a cached response for the client's validator, an upstream's answer or its error, no route or target, an error
of the request's own, a panic. -/
inductive Answer
  | refused (status : Nat)
  | file (contents : Option Bytes)
  | plugins (chain : List Str) (request : PluginRequest) (host : Str) (target : Target)
  | cached (hit : CachedResponse) (ifNoneMatch : Option Str)
  | forwarded (request : OriginRequest)
  | noTarget
  | failed
  | panicked (panic : Panic)
deriving DecidableEq

/-- A request with what the outside adds to it: the client's address and body, the clocks when it is looked up and when
an origin has answered, and the origins' answers, if they give one. -/
structure Visit where
  ip : IpAddr
  req : Request
  body : ClientStream
  handshakeDone : Bool
  nowMs : Nat
  now : SystemTime
  later : SystemTime
  env : Env
  origin : OriginRequest → Option (ResponseHead × List Bytes)

/-- What both listeners share.  `files` reads a file below a document root, and `validUri` is whether a text is a URI. -/
structure Server where
  access : AccessControl
  rateLimiter : Option RateLimiter
  maxBodyBytes : Option Nat
  proxy : ProxyConfig
  cache : Option ResponseCache
  plugins : Option Plugins
  tlsEnabled : Bool
  files : Str → Str → Option Bytes
  validUri : Str → Bool

/-- What a stage comes to: an answer, or none and the key to store under; and what it sent. -/
structure Filtered where
  answer : Option Answer
  contacts : List OriginRequest
  server : Server
  storeKey : Option Str

structure Handled where
  answer : Answer
  contacts : List OriginRequest
  server : Server

def declaredLength (req : Request) : Option Nat :=
  (req.headers.getStr HeaderName.contentLength).bind (Text.parseUnsigned 18446744073709551616)

def withQuery (path : Str) (query : Option Str) : Str :=
  match query with
  | some query => path ++ '?' :: query
  | none => path

def originUri (target : Target) (pathAndQuery : Str) : Str :=
  (if target.tls then "https://".toList else "http://".toList) ++ target.address ++ pathAndQuery

theorem withoutScheme_originUri (target : Target) (pathAndQuery : Str) :
    withoutScheme (originUri target pathAndQuery) = target.address ++ pathAndQuery := by
  unfold originUri
  rw [List.append_assoc]
  cases target.tls with
  | true => rfl
  | false => rfl

/-- `Builder::header`: an invalid name or value fails the request. -/
def addHeader (m : HeaderMap) (h : Str × Str) : Option HeaderMap :=
  match HeaderName.parse h.1, HeaderValue.ofStr h.2 with
  | some name, some value => some (m.append name value)
  | _, _ => none

/-- `insert_header`: an invalid name or value is left out. -/
def insertHeader (m : HeaderMap) (h : Str × Str) : HeaderMap :=
  match HeaderName.parse h.1, HeaderValue.ofStr h.2 with
  | some name, some value => m.insert name value
  | _, _ => m

namespace Server

variable (s : Server)

/-! ## Shared stages -/

def tooLarge (req : Request) : Bool := s.maxBodyBytes.any (fun max => (declaredLength req).any (fun len => max < len))

def limit (key : Str) (nowMs : Nat) : Bool × Server :=
  match s.rateLimiter with
  | some limiter => ((limiter.check key nowMs).1, { s with rateLimiter := some (limiter.check key nowMs).2 })
  | none => (true, s)

def serveStatic (route : Option Route) (path : Str) : Option (Option Bytes) :=
  route.bind (fun route => route.staticDir.map (fun root => s.files root ((route.rewritePath path).getD path)))

def nextTarget (host : Option Str) (path : Str) : Option Target × Server :=
  let picked := s.proxy.router.nextTarget host path
  (picked.1, { s with proxy := { s.proxy with router := picked.2 } })

def put (env : Env) (p : Store) : Server :=
  { s with cache := s.cache.map (fun cache => cache.put s.proxy.hash env p.key p.expiry p.response) }

/-- The host and path by which a stale entry's target is chosen. -/
def revalidationPlace (listener : Listener) (req : Request) (l : CacheLookup) : Option Str × Str :=
  match listener with
  | .http1 => (some l.host, before '?' l.pathAndQuery)
  | .http3 => (s.proxy.uriHost req.uri, req.uri.path)

/-- The conditional request of `upstream::revalidate`. -/
def conditional (target : Target) (l : CacheLookup) (etag : Str) : Option OriginRequest :=
  if s.validUri (originUri target l.pathAndQuery) then
    ([(HeaderName.host.text, l.host), (HeaderName.ifNoneMatch.text, etag)].foldlM addHeader ⟨[]⟩).map
      (fun headers => ⟨target, "GET".toList, originUri target l.pathAndQuery, headers⟩)
  else none

/-- The answer that waits for a put until `base + ttl`, which may panic. -/
def storeThen (env : Env) (key : Str) (base : SystemTime) (ttl : Duration) (response : CachedResponse) (answer : Answer) :
    Answer × Server :=
  match base.add ttl with
  | .ok expiry => (answer, s.put env ⟨key, expiry, response⟩)
  | .error panic => (.panicked panic, s)

/-- What the origin's answer to a conditional request comes to. -/
def revalidated (listener : Listener) (v : Visit) (l : CacheLookup) (hit : CachedResponse) (request : OriginRequest) :
    Filtered :=
  let base := match listener with
    | .http1 => v.later
    | .http3 => v.now
  let result := ((v.origin request).map (fun a => revalidate s.proxy.maxBody a.1 a.2)).getD .failed
  match result with
  | .notModified =>
    let served := s.storeThen v.env l.key base ((storedTtl hit).getD 60) hit (.cached hit l.ifNoneMatch)
    ⟨some served.1, [request], served.2, none⟩
  | .modified fresh =>
    -- only HTTP/3 compares the validator with the new response
    let answer := .cached fresh (match listener with
      | .http1 => none
      | .http3 => l.ifNoneMatch)
    let served := match storedTtl fresh with
      | some ttl => s.storeThen v.env l.key base ttl fresh answer
      | none => (answer, s)
    ⟨some served.1, [request], served.2, none⟩
  | .failed => ⟨none, [request], s, some l.key⟩

/-- The cache stage. -/
def consultCache (listener : Listener) (v : Visit) : Filtered :=
  match s.cache, s.proxy.lookupOf listener v.req with
  | some cache, some l =>
    match cache.lookup s.proxy.hash v.env l.key v.now with
    | .error panic => ⟨some (.panicked panic), [], s, none⟩
    | .ok (result, cache) =>
      let s := { s with cache := some cache }
      match result with
      | .fresh hit => ⟨some (.cached hit l.ifNoneMatch), [], s, none⟩
      | .miss => ⟨none, [], s, some l.key⟩
      | .stale hit =>
        let place := s.revalidationPlace listener v.req l
        let picked := s.nextTarget place.1 place.2
        match hit.etag.bind (fun etag => picked.1.bind (fun target => s.conditional target l etag)) with
        | some request => picked.2.revalidated listener v l hit request
        | none => ⟨none, [], picked.2, some l.key⟩
  | _, _ => ⟨none, [], s, none⟩

/-- What is stored of the response to a forwarded request. -/
def storeFetched (listener : Listener) (v : Visit) (route : Route) (key : Option Str) (request : OriginRequest) : Server :=
  match key, v.origin request with
  | some key, some (head, chunks) =>
    match (s.proxy.outcome head chunks v.later (.fetching listener v.req key route)).1 with
    | some p => s.put v.env p
    | none => s
  | _, _ => s

end Server

/-- The request handed to a route's plugin chain. -/
def pluginRequest (v : Visit) (route : Route) (added : List (Str × Str)) (body : Bytes) : PluginRequest :=
  ⟨v.req.method, v.req.uri.pathAndQueryOr, v.req.headers.visiblePairs ++ route.requestHeaders ++ added, body, v.ip.text⟩

/-! ## HTTP/1 and HTTP/2 -/

namespace ZaphylProxy

/-- The gates of `request_filter`: access rules, rate limit, declared length. -/
def admission (s : Server) (ip : Option IpAddr) (nowMs : Nat) (req : Request) : Option Nat × Server :=
  if !s.access.isEmpty && ip.any (fun ip => !s.access.allows ip) then (some 403, s)
  else
    let limited := s.limit ((ip.map IpAddr.text).getD []) nowMs
    if !limited.1 then (some 429, limited.2)
    else if limited.2.tooLarge req then (some 413, limited.2)
    else (none, limited.2)

def tryServeStatic (s : Server) (req : Request) : Option (Option Bytes) :=
  s.serveStatic (s.proxy.router.matchRoute (headerHost req) req.uri.path) req.uri.path

def tryRunPlugins (s : Server) (v : Visit) : Option Answer × Server :=
  match s.plugins, s.proxy.router.matchRoute (headerHost v.req) v.req.uri.path with
  | some plugins, some route =>
    match plugins.chain route.id with
    | none => (none, s)
    | some chain =>
      let picked := s.nextTarget (headerHost v.req) v.req.uri.path
      match picked.1 with
      | none => (none, picked.2)
      | some target =>
        -- a declared length above the cap is streamed
        if (declaredLength v.req).any (fun len => plugins.maxBody < len) then (none, picked.2)
        else
          match bufferBody plugins.maxBody [] v.body with
          | none => (some (.refused 413), picked.2)
          | some body =>
            if v.body.endsCleanly then
              let host := (v.req.headers.getStr HeaderName.host).getD []
              (some (.plugins chain (pluginRequest v route [] body) host target), picked.2)
            else (some .failed, picked.2)
  | _, _ => (none, s)

/-- `request_filter`: no answer lets the request go on to its upstream. -/
def requestFilter (s : Server) (v : Visit) : Filtered :=
  let admitted := admission s (some v.ip) v.nowMs v.req
  match admitted.1 with
  | some status => ⟨some (.refused status), [], admitted.2, none⟩
  | none =>
    match tryServeStatic admitted.2 v.req with
    | some contents => ⟨some (.file contents), [], admitted.2, none⟩
    | none =>
      let ran := tryRunPlugins admitted.2 v
      match ran.1 with
      | some answer => ⟨some answer, [], ran.2, none⟩
      | none => ran.2.consultCache .http1 v

/-- `upstream_peer` and `upstream_request_filter`. -/
def upstreamRequest (s : Server) (v : Visit) (route : Route) (target : Target) : OriginRequest :=
  let rewritten := (route.rewritePath v.req.uri.path).map (fun path => withQuery path v.req.uri.query)
  let uri := ((rewritten.filter s.validUri).map parsedPathAndQuery).getD v.req.uri.pathAndQueryOr
  let configured := route.requestHeaders.foldl insertHeader v.req.headers
  let forwardedFor := (HeaderValue.ofStr v.ip.text).elim configured (configured.append HeaderName.xForwardedFor)
  let proto := if s.tlsEnabled then "https".toList else "http".toList
  ⟨target, v.req.method, uri, insertHeader forwardedFor (HeaderName.xForwardedProto.text, proto)⟩

def handle (s : Server) (v : Visit) : Handled :=
  let filtered := requestFilter s v
  match filtered.answer with
  | some answer => ⟨answer, filtered.contacts, filtered.server⟩
  | none =>
    let place := headerHost v.req
    let picked := filtered.server.nextTarget place v.req.uri.path
    match filtered.server.proxy.router.matchRoute place v.req.uri.path, picked.1 with
    | some route, some target =>
      let request := upstreamRequest picked.2 v route target
      ⟨.forwarded request, filtered.contacts ++ [request],
        picked.2.storeFetched .http1 v route filtered.storeKey request⟩
    | _, _ => ⟨.noTarget, filtered.contacts, picked.2⟩

end ZaphylProxy

/-! ## HTTP/3 -/

namespace Http3

/-- The line an early request carries on. -/
def earlyDataOne : HeaderName × HeaderValue := (HeaderName.earlyData, ⟨[49], by decide⟩)

def route (s : Server) (v : Visit) : Option Route := s.proxy.router.matchRoute (s.proxy.uriHost v.req.uri) v.req.uri.path

def tryPlugins (s : Server) (v : Visit) : Option Answer × Server :=
  match s.plugins, route s v with
  | some plugins, some matched =>
    match plugins.chain matched.id with
    | none => (none, s)
    | some chain =>
      if (declaredLength v.req).any (fun len => plugins.maxBody < len) then (none, s)
      else
        let picked := s.nextTarget (s.proxy.uriHost v.req.uri) v.req.uri.path
        match picked.1 with
        | none => (some .noTarget, picked.2)
        | some target =>
          match bufferBody plugins.maxBody [] v.body with
          | none => (some (.refused 413), picked.2)
          | some body =>
            let added := if v.handshakeDone then [] else [("early-data".toList, "1".toList)]
            let host := (s.proxy.uriHost v.req.uri).getD []
            (some (.plugins chain (pluginRequest v matched added body) host target), picked.2)
  | _, _ => (none, s)

/-- The request forwarded to the upstream, unless it cannot be built. -/
def upstreamRequest (s : Server) (v : Visit) (route : Route) (target : Target) : Option OriginRequest :=
  let path := (route.rewritePath v.req.uri.path).getD v.req.uri.path
  let uri := originUri target (withQuery path v.req.uri.query)
  if s.validUri uri then
    (route.requestHeaders.foldlM addHeader (v.req.headers.remove HeaderName.host)).map (fun headers =>
      ⟨target, v.req.method, uri,
        if v.handshakeDone then headers else headers.append earlyDataOne.1 earlyDataOne.2⟩)
  else none

/-- The last stage: the target, the declared length, and the upstream. -/
def forward (s : Server) (v : Visit) (contacts : List OriginRequest) (storeKey : Option Str) : Handled :=
  let picked := s.nextTarget (s.proxy.uriHost v.req.uri) v.req.uri.path
  match route s v, picked.1 with
  | some matched, some target =>
    if picked.2.tooLarge v.req then ⟨.refused 413, contacts, picked.2⟩
    else
      match upstreamRequest picked.2 v matched target with
      | none => ⟨.failed, contacts, picked.2⟩
      | some request =>
        ⟨.forwarded request, contacts ++ [request], picked.2.storeFetched .http3 v matched storeKey request⟩
  | _, _ => ⟨.noTarget, contacts, picked.2⟩

/-- `proxy_request`. -/
def proxyRequest (s : Server) (v : Visit) : Handled :=
  if !s.access.isEmpty && !s.access.allows v.ip then ⟨.refused 403, [], s⟩
  else if tooEarly v.handshakeDone v.req.method then ⟨.refused 425, [], s⟩
  else
    match s.serveStatic (route s v) v.req.uri.path with
    | some contents => ⟨.file contents, [], s⟩
    | none =>
      let ran := tryPlugins s v
      match ran.1 with
      | some answer => ⟨answer, [], ran.2⟩
      | none =>
        let consulted := ran.2.consultCache .http3 v
        match consulted.answer with
        | some answer => ⟨answer, consulted.contacts, consulted.server⟩
        | none => forward consulted.server v consulted.contacts consulted.storeKey

end Http3

def Server.handle (s : Server) (listener : Listener) (v : Visit) : Handled :=
  match listener with
  | .http1 => ZaphylProxy.handle s v
  | .http3 => Http3.proxyRequest s v

/-- The server a history of visits leaves. -/
def Server.after (s : Server) (history : List (Listener × Visit)) : Server :=
  history.foldl (fun s visit => (s.handle visit.1 visit.2).server) s

end Zaphyl
