import Zaphyl.HeaderLines
import Zaphyl.PluginStage
/-!
# ForwardStage — the requests a listener sends to an origin

A listener sends two kinds of requests: the conditional request of a stale entry (`mem_contacts_consultCache`) and the
client's request on the plain path (`handle_forwarded`).  Both are functions of the client's request and the settings;
no history of visits changes what they say.
-/
namespace Zaphyl
namespace Server

/-- The request the plain path of the listener forwards by a route to a target, unless it cannot be built. -/
def plainRequest (s : Server) (listener : Listener) (v : Visit) (matched : Route) (target : Target) :
    Option OriginRequest :=
  match listener with
  | .http1 => some (ZaphylProxy.upstreamRequest s v matched target)
  | .http3 => Http3.upstreamRequest s v matched target

/-- The cache makes the listener send a conditional request. -/
def Revalidates (s : Server) (listener : Listener) (v : Visit) (request : OriginRequest) : Prop :=
  ∃ cache l hit cache', s.cache = some cache ∧ s.proxy.lookupOf listener v.req = some l ∧
    cache.lookup s.proxy.hash v.env l.key v.now = .ok (.stale hit, cache') ∧
    s.revalidation listener v l hit = some request

/-- **The cache stage sends the conditional request and no other.** -/
theorem mem_contacts_consultCache (s : Server) (listener : Listener) (v : Visit) (request : OriginRequest) :
    request ∈ (s.consultCache listener v).contacts ↔ s.Revalidates listener v request := by
  unfold Revalidates
  by_cases hused : ∃ cache l, s.cache = some cache ∧ s.proxy.lookupOf listener v.req = some l
  · obtain ⟨cache, l, hcache, hl⟩ := hused
    simp only [hcache, hl, Option.some.injEq]
    cases hlookup : cache.lookup s.proxy.hash v.env l.key v.now with
    | error panic => simp [consultCache, hcache, hl, hlookup]
    | ok found =>
      obtain ⟨result, cache'⟩ := found
      cases result with
      | fresh hit => simp [consultCache, hcache, hl, hlookup]
      | miss => simp [consultCache, hcache, hl, hlookup]
      | stale hit =>
        obtain ⟨t, ht⟩ := consultCache_of_stale hcache hl hlookup
        rw [ht]
        cases hreq : s.revalidation listener v l hit with
        | none => simp [hlookup, hreq]
        | some sent => simp [hlookup, hreq, revalidated_contacts, eq_comm]
  · rw [consultCache_of_unused hused]
    refine iff_of_false (fun h => by cases h) ?_
    rintro ⟨cache, l, -, -, hcache, hl, -⟩
    exact hused ⟨cache, l, hcache, hl⟩

/-- A conditional request is built from the entry's host and tag, for some target. -/
theorem Revalidates.conditional {s : Server} {listener : Listener} {v : Visit} {request : OriginRequest}
    (h : s.Revalidates listener v request) :
    ∃ l target etag, s.proxy.lookupOf listener v.req = some l ∧ s.conditional target l etag = some request := by
  obtain ⟨cache, l, hit, cache', -, hl, -, hrevalidation⟩ := h
  obtain ⟨etag, -, htag⟩ := Option.bind_eq_some_iff.1 hrevalidation
  obtain ⟨target, -, hconditional⟩ := Option.bind_eq_some_iff.1 htag
  exact ⟨l, target, etag, hl, hconditional⟩

end Server

/-! ## What the forwarded requests carry -/

/-- The header lines a route configures: its valid headers, in their order. -/
def Route.headerLines (r : Route) : List (HeaderName × HeaderValue) := r.requestHeaders.filterMap validLine

namespace ZaphylProxy

def protoValue (s : Server) : HeaderValue :=
  if s.tlsEnabled then ⟨"https".toList.map (fun c => UInt8.ofNat c.toNat), by decide⟩
  else ⟨"http".toList.map (fun c => UInt8.ofNat c.toNat), by decide⟩

variable (s : Server) (v : Visit) (matched : Route) (target : Target)

/-- The route's headers inserted, the client's address behind any `X-Forwarded-For`, and the scheme inserted. -/
theorem headers_upstreamRequest :
    (upstreamRequest s v matched target).headers =
      ((HeaderValue.ofStr v.ip.text).elim (matched.requestHeaders.foldl insertHeader v.req.headers)
        ((matched.requestHeaders.foldl insertHeader v.req.headers).append HeaderName.xForwardedFor)).insert
          HeaderName.xForwardedProto (protoValue s) := by
  have hproto : validLine (HeaderName.xForwardedProto.text, if s.tlsEnabled then "https".toList else "http".toList) =
      some (HeaderName.xForwardedProto, protoValue s) := by
    unfold protoValue
    cases s.tlsEnabled with
    | true => decide
    | false => decide
  show insertHeader _ (HeaderName.xForwardedProto.text, if s.tlsEnabled then "https".toList else "http".toList) = _
  rw [insertHeader_eq, hproto, Option.elim_some]

/-- **A configured header replaces the client's.** -/
theorem values_inserted (n : HeaderName) :
    (matched.requestHeaders.foldl insertHeader v.req.headers).values n =
      ((Multimap.valuesAt n matched.headerLines).getLast?.map (fun value => [value])).getD (v.req.headers.values n) := by
  rw [HeaderMap.values, lines_foldl_insertHeader, Multimap.valuesAt_setAll]
  rfl

theorem values_upstreamRequest {n : HeaderName} (hfor : HeaderName.xForwardedFor ≠ n)
    (hproto : HeaderName.xForwardedProto ≠ n) :
    (upstreamRequest s v matched target).headers.values n =
      ((Multimap.valuesAt n matched.headerLines).getLast?.map (fun value => [value])).getD (v.req.headers.values n) := by
  rw [headers_upstreamRequest, HeaderMap.values_insert_ne _ _ hproto, ← values_inserted]
  cases HeaderValue.ofStr v.ip.text with
  | none => rfl
  | some value => exact HeaderMap.values_append_ne _ _ hfor

/-- The client's address stands beside any other `X-Forwarded-For`. -/
theorem values_xForwardedFor : ∃ address,
    ((upstreamRequest s v matched target).headers.values HeaderName.xForwardedFor).Perm
      (address :: (matched.requestHeaders.foldl insertHeader v.req.headers).values HeaderName.xForwardedFor) := by
  obtain ⟨address, haddress⟩ := HeaderValue.exists_ofStr v.ip.visible_text
  have hproto : HeaderName.xForwardedProto ≠ HeaderName.xForwardedFor := by decide
  refine ⟨address, ?_⟩
  rw [headers_upstreamRequest, haddress, Option.elim_some, HeaderMap.values_insert_ne _ _ hproto]
  exact HeaderMap.values_append_self _ _

theorem values_xForwardedProto :
    (upstreamRequest s v matched target).headers.values HeaderName.xForwardedProto = [protoValue s] := by
  rw [headers_upstreamRequest, HeaderMap.values_insert_self]

end ZaphylProxy

namespace Http3

def upstreamUri (v : Visit) (matched : Route) (target : Target) : Str :=
  originUri target (withQuery ((matched.rewritePath v.req.uri.path).getD v.req.uri.path) v.req.uri.query)

/-- The client's headers but for `Host`, those of the route behind them, and the mark of early data. -/
def upstreamHeaders (v : Visit) (matched : Route) : HeaderMap :=
  let headers : HeaderMap := ⟨Multimap.addAll matched.headerLines (v.req.headers.remove HeaderName.host).lines⟩
  if v.handshakeDone then headers else headers.append earlyDataOne.1 earlyDataOne.2

/-- **What HTTP/3 forwards**, and when it can: the URI and the route's headers are valid. -/
theorem upstreamRequest_eq_some_iff {s : Server} {v : Visit} {matched : Route} {target : Target} {request : OriginRequest} :
    upstreamRequest s v matched target = some request ↔
      s.validUri (upstreamUri v matched target) = true ∧ (∀ h ∈ matched.requestHeaders, validLine h ≠ none) ∧
        request = ⟨target, v.req.method, upstreamUri v matched target, upstreamHeaders v matched⟩ := by
  have hunfold : upstreamRequest s v matched target =
      if s.validUri (upstreamUri v matched target) then
        (matched.requestHeaders.foldlM addHeader (v.req.headers.remove HeaderName.host)).map (fun headers =>
          ⟨target, v.req.method, upstreamUri v matched target,
            if v.handshakeDone then headers else headers.append earlyDataOne.1 earlyDataOne.2⟩)
      else none := rfl
  rw [hunfold]
  by_cases hvalid : s.validUri (upstreamUri v matched target) = true
  · rw [if_pos hvalid, and_iff_right hvalid, Option.map_eq_some_iff]
    constructor
    · rintro ⟨headers, hheaders, rfl⟩
      obtain ⟨hlines, rfl⟩ := foldlM_addHeader_eq_some_iff.1 hheaders
      exact ⟨hlines, rfl⟩
    · rintro ⟨hlines, rfl⟩
      exact ⟨_, foldlM_addHeader_eq_some_iff.2 ⟨hlines, rfl⟩, rfl⟩
  · rw [if_neg hvalid]
    exact iff_of_false (fun h => by cases h) (fun h => hvalid h.1)

/-- HTTP/3 cannot forward the request: the URI or a header of the route is invalid. -/
def Unforwardable (s : Server) (v : Visit) (matched : Route) (target : Target) : Prop :=
  s.validUri (upstreamUri v matched target) = false ∨ ∃ h ∈ matched.requestHeaders, validLine h = none

theorem upstreamRequest_of_forwardable {s : Server} {v : Visit} {matched : Route} {target : Target}
    (h : ¬ Unforwardable s v matched target) :
    upstreamRequest s v matched target =
      some ⟨target, v.req.method, upstreamUri v matched target, upstreamHeaders v matched⟩ := by
  obtain ⟨hvalid, hheaders⟩ := not_or.1 h
  apply upstreamRequest_eq_some_iff.2
  exact ⟨(Bool.not_eq_false _).mp hvalid, fun x hx hnone => hheaders ⟨x, hx, hnone⟩, rfl⟩

theorem not_unforwardable_of_some {s : Server} {v : Visit} {matched : Route} {target : Target} {request : OriginRequest}
    (h : upstreamRequest s v matched target = some request) : ¬ Unforwardable s v matched target := by
  obtain ⟨hvalid, hheaders, -⟩ := upstreamRequest_eq_some_iff.1 h
  rintro (hinvalid | ⟨x, hx, hnone⟩)
  · rw [hvalid] at hinvalid
    cases hinvalid
  · exact hheaders x hx hnone

/-- The lines of a name that an early request carries besides the client's and the route's. -/
def earlyValues (v : Visit) (n : HeaderName) : List HeaderValue :=
  if v.handshakeDone = false ∧ n = HeaderName.earlyData then [earlyDataOne.2] else []

/-- **The configured headers stand beside the client's**, of which only `Host` is left out. -/
theorem values_upstreamHeaders (v : Visit) (matched : Route) (n : HeaderName) :
    ((upstreamHeaders v matched).values n).Perm
      (earlyValues v n ++ Multimap.valuesAt n matched.headerLines ++ (v.req.headers.remove HeaderName.host).values n) := by
  have hadded := Multimap.valuesAt_addAll n matched.headerLines (v.req.headers.remove HeaderName.host).lines
  unfold upstreamHeaders earlyValues
  cases v.handshakeDone with
  | true =>
    simp only [Bool.true_eq_false, false_and, if_false, List.nil_append, if_true]
    exact hadded
  | false =>
    by_cases hn : n = HeaderName.earlyData
    · subst hn
      simp only [Bool.false_eq_true, if_false, true_and, if_true, List.cons_append]
      exact (HeaderMap.values_append_self _ _).trans (hadded.cons _)
    · have hother : earlyDataOne.1 ≠ n := fun h => hn h.symm
      simp only [Bool.false_eq_true, if_false, true_and, hn, List.nil_append]
      rw [HeaderMap.values_append_ne _ _ hother]
      exact hadded

/-- The `Host` of a forwarded request is the first the route configures. -/
theorem get_host_upstreamHeaders (v : Visit) (matched : Route) :
    (upstreamHeaders v matched).get HeaderName.host = (Multimap.valuesAt HeaderName.host matched.headerLines).head? := by
  have hnone : Multimap.valuesAt HeaderName.host (v.req.headers.remove HeaderName.host).lines = [] :=
    HeaderMap.values_remove_self v.req.headers
  have hadded := Multimap.head?_valuesAt_addAll HeaderName.host matched.headerLines
    (v.req.headers.remove HeaderName.host).lines
  rw [hnone, List.head?_nil, Option.none_or] at hadded
  unfold upstreamHeaders
  cases v.handshakeDone with
  | true =>
    rw [if_pos rfl, HeaderMap.get_eq_head?]
    exact hadded
  | false =>
    have hother : earlyDataOne.1 ≠ HeaderName.host := by decide
    simp only [Bool.false_eq_true, if_false]
    rw [HeaderMap.get_eq_head?, HeaderMap.values_append_ne _ _ hother]
    exact hadded

end Http3

/-! ## The settings -/

namespace Server

theorem exists_upstreamRoute_of_settings {s t : Server} (h : t.settings = s.settings) {listener : Listener}
    {req : Request} {matched : Route} (hm : t.proxy.upstreamRoute listener req = some matched) :
    ∃ matched', s.proxy.upstreamRoute listener req = some matched' ∧ matched'.configured = matched.configured := by
  have hconfigured := upstreamRoute_of_settings h hm
  rwa [upstreamRoute_settings, Option.map_eq_some_iff] at hconfigured

/-- What is forwarded depends on the settings and the route's configuration. -/
theorem plainRequest_congr {s t : Server} (h : t.settings = s.settings) {listener : Listener} {v : Visit}
    {matched matched' : Route} (hm : matched'.configured = matched.configured) (target : Target) :
    t.plainRequest listener v matched target = s.plainRequest listener v matched' target := by
  have htls : t.tlsEnabled = s.tlsEnabled := congrArg (fun s => s.tlsEnabled) h
  have hvalid : t.validUri = s.validUri := congrArg (fun s => s.validUri) h
  have hheaders : matched'.requestHeaders = matched.requestHeaders := congrArg (fun r => r.requestHeaders) hm
  have hstrip : matched'.stripPrefix = matched.stripPrefix := congrArg (fun r => r.stripPrefix) hm
  have hprefix : matched'.pathPrefix = matched.pathPrefix := congrArg (fun r => r.pathPrefix) hm
  have hrewrite : matched'.rewritePath v.req.uri.path = matched.rewritePath v.req.uri.path := by
    unfold Route.rewritePath
    rw [hstrip, hprefix]
  cases listener with
  | http1 =>
    unfold plainRequest ZaphylProxy.upstreamRequest
    simp only [htls, hvalid, hheaders, hrewrite]
  | http3 =>
    unfold plainRequest Http3.upstreamRequest
    simp only [hvalid, hheaders, hrewrite]

end Server

/-! ## The plain path -/

theorem not_forwarded_of_fromCache {answer : Answer} {request : OriginRequest} (h : answer.FromCache) :
    answer ≠ .forwarded request := by
  rintro rfl
  rcases h with ⟨hit, ifNoneMatch, h⟩ | ⟨panic, h⟩
  · cases h
  · cases h

namespace ZaphylProxy

theorem tryRunPlugins_ne_forwarded (s : Server) (v : Visit) (request : OriginRequest) :
    (tryRunPlugins s v).1 ≠ some (.forwarded request) := by
  intro h
  obtain ⟨plugins, matched, chain, target, -, -, -, -, -, hcase⟩ := tryRunPlugins_answer h
  rcases hcase with ⟨hanswer, -⟩ | ⟨hanswer, -⟩ | ⟨hanswer, -⟩
  · cases hanswer
  · cases hanswer
  · cases hanswer

/-- **The filter does not forward**: it answers by itself or lets the request go on. -/
theorem requestFilter_ne_forwarded (s : Server) (v : Visit) (request : OriginRequest) :
    (requestFilter s v).answer ≠ some (.forwarded request) := by
  unfold requestFilter
  intro h
  simp only at h
  split at h
  · cases h
  · split at h
    · cases h
    · split at h
      · rename_i answer hran
        exact tryRunPlugins_ne_forwarded _ v request (hran.trans h)
      · exact not_forwarded_of_fromCache (Server.consultCache_fromCache _ _ _ h) rfl

theorem handle_forwarded {s : Server} {v : Visit} {request : OriginRequest}
    (h : (handle s v).answer = .forwarded request) :
    ∃ matched target, s.proxy.upstreamRoute .http1 v.req = some matched ∧
      s.plainRequest .http1 v matched target = some request := by
  have hfiltered := settings_requestFilter s v
  unfold handle at h
  simp only at h
  split at h
  · rename_i answer hanswer
    exact absurd (hanswer.trans (congrArg some h)) (requestFilter_ne_forwarded s v request)
  · split at h
    · rename_i matched target hmatched htarget
      have hroute : (requestFilter s v).server.proxy.upstreamRoute .http1 v.req = some matched := hmatched
      obtain ⟨matched', hmatched', hconfigured⟩ := Server.exists_upstreamRoute_of_settings hfiltered hroute
      have hpicked : ((requestFilter s v).server.nextTarget (headerHost v.req) v.req.uri.path).2.settings = s.settings :=
        (Server.settings_nextTarget ..).trans hfiltered
      refine ⟨matched', target, hmatched', ?_⟩
      rw [← Server.plainRequest_congr hpicked hconfigured]
      exact congrArg some (Answer.forwarded.inj h)
    · cases h

/-- A request that the filter lets go on is forwarded, when its route has a target. -/
theorem handle_forwards {s : Server} {v : Visit} {matched : Route}
    (hroute : s.proxy.upstreamRoute .http1 v.req = some matched) (htargets : matched.targets ≠ [])
    (h : (requestFilter s v).answer = none) : ∃ request, (handle s v).answer = .forwarded request := by
  have hsame := settings_requestFilter s v
  obtain ⟨matched', hmatched, hconfigured⟩ := Server.exists_upstreamRoute_of_settings hsame.symm hroute
  have hlater : (requestFilter s v).server.proxy.router.matchRoute (headerHost v.req) v.req.uri.path = some matched' :=
    hmatched
  have htargets' : matched'.targets ≠ [] := by
    rw [← matched'.targets_configured_ne_nil, hconfigured, matched.targets_configured_ne_nil]
    exact htargets
  obtain ⟨target, htarget⟩ := Option.isSome_iff_exists.1 ((nextTarget_isSome_iff hlater).2 htargets')
  unfold handle
  simp only [h, hlater, htarget]
  exact ⟨_, rfl⟩

end ZaphylProxy

namespace Http3

theorem tryPlugins_ne_forwarded (s : Server) (v : Visit) (request : OriginRequest) :
    (tryPlugins s v).1 ≠ some (.forwarded request) := by
  intro h
  obtain ⟨plugins, matched, chain, -, -, -, -, hcase⟩ := tryPlugins_answer h
  rcases hcase with hanswer | ⟨hanswer, -⟩ | ⟨target, -, hanswer, -⟩
  · cases hanswer
  · cases hanswer
  · cases hanswer

theorem forward_forwarded {s : Server} {v : Visit} {contacts : List OriginRequest} {storeKey : Option Str}
    {request : OriginRequest} (h : (forward s v contacts storeKey).answer = .forwarded request) :
    ∃ matched target, s.proxy.upstreamRoute .http3 v.req = some matched ∧
      s.plainRequest .http3 v matched target = some request := by
  unfold forward at h
  simp only at h
  split at h
  · rename_i matched target hmatched htarget
    split at h
    · cases h
    · split at h
      · cases h
      · rename_i sent hsent
        refine ⟨matched, target, hmatched, ?_⟩
        rw [← Answer.forwarded.inj h]
        exact hsent
  · cases h

theorem proxyRequest_forwarded {s : Server} {v : Visit} {request : OriginRequest}
    (h : (proxyRequest s v).answer = .forwarded request) :
    ∃ matched target, s.proxy.upstreamRoute .http3 v.req = some matched ∧
      s.plainRequest .http3 v matched target = some request := by
  rcases proxyRequest_cases s v with ⟨_, hstage⟩ | ⟨_, hstage⟩ | ⟨answer, hran, hstage⟩ | ⟨answer, hcached, hstage⟩ |
    ⟨-, hstage⟩
  · rw [hstage] at h
    cases h
  · rw [hstage] at h
    cases h
  · rw [hstage] at h
    exact absurd (hran.trans (congrArg some h)) (tryPlugins_ne_forwarded s v request)
  · rw [hstage] at h
    exact absurd h (not_forwarded_of_fromCache (Server.consultCache_fromCache _ _ _ hcached))
  · rw [hstage] at h
    have hsame : (((tryPlugins s v).2.consultCache .http3 v).server).settings = s.settings :=
      (Server.settings_consultCache ..).trans (settings_tryPlugins s v)
    obtain ⟨matched, target, hmatched, hrequest⟩ := forward_forwarded h
    obtain ⟨matched', hmatched', hconfigured⟩ := Server.exists_upstreamRoute_of_settings hsame hmatched
    refine ⟨matched', target, hmatched', ?_⟩
    rw [← Server.plainRequest_congr hsame hconfigured]
    exact hrequest

end Http3

/-- **What a listener forwards is the plain request** of the request's route to one of its targets. -/
theorem Server.handle_forwarded {s : Server} {listener : Listener} {v : Visit} {request : OriginRequest}
    (h : (s.handle listener v).answer = .forwarded request) :
    ∃ matched target, s.proxy.upstreamRoute listener v.req = some matched ∧
      s.plainRequest listener v matched target = some request := by
  cases listener with
  | http1 => exact ZaphylProxy.handle_forwarded h
  | http3 => exact Http3.proxyRequest_forwarded h

end Zaphyl
